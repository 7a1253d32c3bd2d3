import ZkVerify.Frame.BatchLog
import ZkVerify.Aggregate.Lifecycle

/-!
# Aggregations as batches

A statement that is accepted is announced by `NewProof` with a domain id and an
aggregation id; the aggregation is announced by `NewAggregationReceipt` when it is
published.  Read this way, the events are a history of batches, one for each pair of
ids: `NewProof` appends to a batch and `NewAggregationReceipt` closes it.

`DomainEntry.Matches` relates a domain to its batches and `State.Matches` the storage to
all of them.  A pending aggregation holds exactly the items of its batch, and every
batch without a pending aggregation is closed or empty.  There is one lemma for each
way in which the operations touch the aggregations.
-/

namespace ZkVerify.Aggregate

open Frame Frame.BatchLog DomainEntry

variable {A X T₁ T₂ : Type} {S M : ℕ}

/-! ## Reading the events -/

/-- The statements announced for the aggregation `a` of the domain `d`, in order. -/
def proofs (d a : ℕ) (events : List Event) : List H256 :=
  events.filterMap fun
    | .newProof statement d' a' => if d' = d ∧ a' = a then some statement else none
    | _ => none

/-- How often the receipt of the aggregation `a` of the domain `d` is announced. -/
def receipts (d a : ℕ) (events : List Event) : ℕ :=
  events.countP fun
    | .newAggregationReceipt d' a' _ => decide (d' = d ∧ a' = a)
    | _ => false

/-- The ids of the domains announced as new, in order. -/
def registrations (events : List Event) : List ℕ :=
  events.filterMap fun
    | .newDomain d => some d
    | _ => none

/-- The act on batches that an event stands for. -/
def Event.act : Event → Option (Act (ℕ × ℕ) H256)
  | .newProof statement d a => some (.append (d, a) statement)
  | .newAggregationReceipt d a _ => some (.close (d, a))
  | _ => none

/-- The history of batches that a list of events stands for. -/
def acts (events : List Event) : List (Act (ℕ × ℕ) H256) := events.filterMap Event.act

theorem proofs_eq (d a : ℕ) (events : List Event) :
    proofs d a events = appended (d, a) (acts events) := by
  unfold proofs acts appended
  rw [List.filterMap_filterMap]
  congr 1
  funext e
  cases e <;> simp [Event.act]

theorem receipts_eq (d a : ℕ) (events : List Event) :
    receipts d a events = closes (d, a) (acts events) := by
  unfold receipts acts closes
  rw [List.countP_filterMap]
  congr 1
  funext e
  cases e <;> simp [Event.act]

/-- The events that announce neither a statement nor a receipt nor a domain. -/
def Event.quiet : Event → Bool
  | .newProof .. | .newAggregationReceipt .. | .newDomain _ => false
  | _ => true

theorem acts_of_quiet {events : List Event} (h : ∀ e ∈ events, e.quiet = true) :
    acts events = [] := by
  unfold acts
  rw [List.filterMap_eq_nil_iff]
  intro e he
  have hquiet := h e he
  cases e <;> simp_all [Event.act, Event.quiet]

theorem registrations_of_quiet {events : List Event} (h : ∀ e ∈ events, e.quiet = true) :
    registrations events = [] := by
  unfold registrations
  rw [List.filterMap_eq_nil_iff]
  intro e he
  have hquiet := h e he
  cases e <;> simp_all [Event.quiet]

theorem advanceEvents_quiet (D : DomainEntry A T₁ T₂ S M) :
    ∀ e ∈ D.advanceEvents, e.quiet = true := by
  unfold advanceEvents
  split <;> simp [Event.quiet]

theorem enqueueEvents_quiet (D : DomainEntry A T₁ T₂ S M) (next : AggregationEntry A S)
    (queue : BoundedMap ℕ (AggregationEntry A S) M) :
    ∀ e ∈ D.enqueueEvents next queue, e.quiet = true := by
  intro e he
  rcases List.mem_append.mp he with he | he
  · exact advanceEvents_quiet _ e he
  · split at he <;> simp at he <;> rcases he with rfl | rfl <;> rfl

theorem handleHoldState_quiet [DecidableEq A] (D : DomainEntry A T₁ T₂ S M)
    (rows : Finset (ℕ × A)) : ∀ e ∈ (D.handleHoldState rows).2, e.quiet = true := by
  unfold handleHoldState
  split
  · simp
  · dsimp only
    split <;> simp [Event.quiet, stateChangedEvent]

/-! ## One domain and its batches -/

namespace DomainEntry

/-- The statements of the pending aggregation with the id `a`. -/
def pendingHashes (D : DomainEntry A T₁ T₂ S M) (a : ℕ) : Option (List H256) :=
  if D.next.id = a then some D.next.hashes else (D.shouldPublish.get a).map AggregationEntry.hashes

/-- The domain matches its batches: those of the pending aggregations are being filled with the
statements that are pending, the others are closed or empty, and those to come are empty. -/
structure Matches (D : DomainEntry A T₁ T₂ S M) (b : ℕ → Slot H256) : Prop where
  pending : ∀ a hashes, D.pendingHashes a = some hashes → b a = .filling hashes
  idle : ∀ a, D.pendingHashes a = none → ∀ items, b a = .filling items → items = []
  future : 0 < D.next.id → ∀ a, D.next.id < a → b a = .filling []
  dummy : b 0 = .filling []

namespace Matches

variable {D D' : DomainEntry A T₁ T₂ S M} {b : ℕ → Slot H256}

/-- Only the aggregations matter. -/
theorem congr (h : D.Matches b) (hnext : D'.next = D.next)
    (hqueue : D'.shouldPublish = D.shouldPublish) : D'.Matches b := by
  have hpending : D'.pendingHashes = D.pendingHashes := by
    funext a
    rw [pendingHashes, hnext, hqueue, pendingHashes]
  exact ⟨hpending ▸ h.pending, hpending ▸ h.idle, hnext ▸ h.future, h.dummy⟩

theorem next_slot (h : D.Matches b) : b D.next.id = .filling D.next.hashes :=
  h.pending _ _ (if_pos rfl)

/-- The batch `a₀` gets the contents `slot`, which is final or matches the pending aggregation with
that id.  The other aggregations stay, except that an empty one may be started. -/
theorem update (h : D.Matches b) {a₀ : ℕ} {slot : Slot H256} (hpos : 0 < a₀)
    (hself : (D'.pendingHashes a₀ = none ∧ ∃ items, slot = .closed items) ∨
      ∃ hashes, D'.pendingHashes a₀ = some hashes ∧ slot = .filling hashes)
    (hothers : ∀ a, a ≠ a₀ → D'.pendingHashes a = D.pendingHashes a ∨
      (D'.pendingHashes a = some [] ∧ b a = .filling []))
    (hids : 0 < D'.next.id → 0 < D.next.id ∧ D.next.id ≤ D'.next.id ∧ a₀ ≤ D'.next.id) :
    D'.Matches (Function.update b a₀ slot) where
  pending := by
    intro a hashes hget
    by_cases ha : a = a₀
    · subst ha
      rw [Function.update_self]
      rcases hself with ⟨hnone, -⟩ | ⟨hashes', hsome, rfl⟩
      · simp [hnone] at hget
      · rw [hsome, Option.some.injEq] at hget
        rw [hget]
    · rw [Function.update_of_ne ha]
      rcases hothers a ha with hsame | ⟨hnew, hslot⟩
      · exact h.pending a hashes (hsame ▸ hget)
      · rw [hnew, Option.some.injEq] at hget
        rw [hslot, hget]
  idle := by
    intro a hget items hitems
    by_cases ha : a = a₀
    · subst ha
      rw [Function.update_self] at hitems
      rcases hself with ⟨-, items', rfl⟩ | ⟨hashes, hsome, -⟩
      · cases hitems
      · simp [hsome] at hget
    · rw [Function.update_of_ne ha] at hitems
      rcases hothers a ha with hsame | ⟨hnew, -⟩
      · exact h.idle a (hsame ▸ hget) items hitems
      · simp [hnew] at hget
  future := by
    intro hpos' a ha
    obtain ⟨hnext, hle, hle₀⟩ := hids hpos'
    have ha₀ : a ≠ a₀ := by omega
    rw [Function.update_of_ne ha₀]
    exact h.future hnext a (by omega)
  dummy := by
    rw [Function.update_of_ne hpos.ne]
    exact h.dummy

/-- The next aggregation moves on: its batch gets the new contents `slot`, which is either
final or matches the new entry of the queue. -/
theorem advance (h : D.Matches b) (hpos : 0 < D.next.id) {slot : Slot H256}
    (hid : D'.next.id = D.next.id + 1 ∨ D'.next.id = 0)
    (hstatements : D'.next.statements.toList = [])
    (hself : D'.shouldPublish.get D.next.id = none ∧ (∃ items, slot = .closed items) ∨
      ∃ aggregation, D'.shouldPublish.get D.next.id = some aggregation ∧
        slot = .filling aggregation.hashes)
    (hothers : ∀ a, a ≠ D.next.id → D'.shouldPublish.get a = D.shouldPublish.get a) :
    D'.Matches (Function.update b D.next.id slot) := by
  have hne : D'.next.id ≠ D.next.id := by omega
  apply h.update hpos
  · rw [pendingHashes, if_neg hne]
    rcases hself with ⟨hnone, hclosed⟩ | ⟨aggregation, hsome, hslot⟩
    · exact .inl ⟨by rw [hnone, Option.map_none], hclosed⟩
    · exact .inr ⟨aggregation.hashes, by rw [hsome, Option.map_some], hslot⟩
  · intro a ha
    by_cases ha' : a = D'.next.id
    · -- The new aggregation is empty, and so is its batch.
      subst ha'
      refine .inr ⟨by simp [pendingHashes, AggregationEntry.hashes, hstatements], ?_⟩
      rcases hid with hid | hid
      · rw [hid]
        exact h.future hpos _ (Nat.lt_succ_self _)
      · rw [hid]
        exact h.dummy
    · left
      rw [pendingHashes, if_neg (Ne.symm ha'), pendingHashes, if_neg (Ne.symm ha), hothers a ha]
  · omega

/-- Accepting a statement appends it to the batch of the next aggregation. -/
theorem acceptStatement [DecidableEq A] {rows : Finset (ℕ × A)} {account : A} {reserve : Reserve}
    {statement : H256} {events : List Event} (h : D.Matches b) (hwf : D.WF)
    (hready : D.state = .ready) (hroom : D.canAddStatement = true)
    (haccept : D.acceptStatement rows account reserve statement = .ok (D', events)) :
    D'.Matches (Function.update b D.next.id (.filling (D.next.hashes ++ [statement]))) := by
  have hpos := hwf.next_id_pos_of_ready hready
  obtain ⟨next, hid, -, hlist, ⟨-, rfl, -⟩ | ⟨-, queue, hqueue, rfl, -⟩⟩ :=
    acceptStatement_ok hwf hready hroom haccept
  all_goals
    have hhashes : next.hashes = D.next.hashes ++ [statement] := by
      simp [AggregationEntry.hashes, hlist]
    rw [← hhashes]
  · -- The aggregation is still the next one.
    apply h.update hpos
    · exact .inr ⟨next.hashes, if_pos hid, rfl⟩
    · intro a ha
      left
      rw [pendingHashes, if_neg (by simpa [hid] using ha.symm), pendingHashes, if_neg ha.symm]
    · intro _
      exact ⟨hpos, hid.ge, hid.ge⟩
  · -- It is complete and went to the queue.
    apply h.advance hpos
    · rw [← hid]
      exact (advance_next_id { D with next := next }).imp And.left And.left
    · exact advance_next_statements _
    · exact .inr ⟨next, BoundedMap.get_of_insert_self hqueue, rfl⟩
    · intro a ha
      exact BoundedMap.get_of_insert_ne hqueue ha

/-- Taking an aggregation closes its batch. -/
theorem takeAggregation {a : ℕ} {aggregation : AggregationEntry A S} {popped : List Event}
    (h : D.Matches b) (hwf : D.WF)
    (htake : D.takeAggregation a = .ok (some aggregation, D', popped)) :
    b a = .filling aggregation.hashes ∧
      D'.Matches (Function.update b a (.closed aggregation.hashes)) := by
  rcases takeAggregation_ok hwf htake with ⟨rfl, hne, rfl, rfl, -⟩ | ⟨hid, hget, rfl, -⟩
  · refine ⟨h.next_slot, ?_⟩
    apply h.advance (hwf.next_id_pos hne)
    · exact D.advance_next_id.imp And.left And.left
    · exact advance_next_statements _
    · rw [advance_shouldPublish]
      exact .inl ⟨hwf.get_next_id, _, rfl⟩
    · intro a _
      rw [advance_shouldPublish]
  · have hslot : b a = .filling aggregation.hashes :=
      h.pending a _ (by rw [pendingHashes, if_neg hid, hget, Option.map_some])
    refine ⟨hslot, ?_⟩
    apply h.update (hwf.queued a aggregation hget).2.1
    · left
      rw [pendingHashes, if_neg hid, BoundedMap.get_remove_self, Option.map_none]
      exact ⟨rfl, _, rfl⟩
    · intro a' ha'
      left
      rw [pendingHashes, pendingHashes, BoundedMap.get_remove_of_ne _ ha']
    · intro hpos
      have hlt : a < D.next.id :=
        (hwf.ids.resolve_right fun hdummy => hpos.ne' hdummy.1).2 a aggregation hget
      exact ⟨hpos, le_rfl, hlt.le⟩

end Matches

end DomainEntry

/-! ## The storage and its batches -/

/-- Every stored domain matches its batches; an id that is not in use has no unfinished batch, and
an id that was not given out yet has only empty ones. -/
structure State.Matches (s : State A X T₁ T₂ S M) (b : ℕ × ℕ → Slot H256) : Prop where
  stored : ∀ d D, s.domains.lookup d = some D → D.Matches fun a => b (d, a)
  gone : ∀ d, s.domains.lookup d = none → ∀ a items, b (d, a) = .filling items → items = []
  fresh : ∀ d, s.nextDomainId ≤ d → ∀ a, b (d, a) = .filling []

namespace State.Matches

variable {s s' : State A X T₁ T₂ S M} {b b' : ℕ × ℕ → Slot H256} {d : ℕ}
  {D D' : DomainEntry A T₁ T₂ S M}

theorem genesis (x : X) : (State.genesis x : State A X T₁ T₂ S M).Matches init :=
  ⟨fun d D hlookup => by simp [State.genesis] at hlookup, fun _ _ _ items h => by cases h; rfl,
    fun _ _ _ => rfl⟩

/-- The other fields of the storage may change. -/
theorem of_domains_eq (h : s.Matches b) (hdomains : s'.domains = s.domains)
    (hnext : s'.nextDomainId = s.nextDomainId) : s'.Matches b :=
  ⟨hdomains ▸ h.stored, hdomains ▸ h.gone, hnext ▸ h.fresh⟩

/-- A stored domain and its batches change, the others stay. -/
theorem replace (hrep : Represented s) (h : s.Matches b) (hlookup : s.domains.lookup d = some D)
    (hdomains : s'.domains = s.domains.insert d D') (hnext : s'.nextDomainId = s.nextDomainId)
    (hothers : ∀ d' a, d' ≠ d → b' (d', a) = b (d', a)) (hD : D'.Matches fun a => b' (d, a)) :
    s'.Matches b' where
  stored := by
    rw [hdomains]
    refine Finmap.forall_lookup_insert hD fun d' D₁ hd' hlookup₁ => ?_
    simp only [hothers d' _ hd']
    exact h.stored d' D₁ hlookup₁
  gone := by
    intro d' hnone a items hitems
    have hd' : d' ≠ d := by
      rintro rfl
      simp [hdomains] at hnone
    rw [hdomains, Finmap.lookup_insert_of_ne _ hd'] at hnone
    exact h.gone d' hnone a items (hothers d' a hd' ▸ hitems)
  fresh := by
    intro d' hd' a
    have hlt := hrep.id_lt d D hlookup
    rw [hothers d' a (by omega)]
    exact h.fresh d' (hnext ▸ hd') a

/-- A stored domain changes, but none of its aggregations. -/
theorem replace_same (hrep : Represented s) (h : s.Matches b)
    (hlookup : s.domains.lookup d = some D) (hdomains : s'.domains = s.domains.insert d D')
    (hnext : s'.nextDomainId = s.nextDomainId) (hagg : D'.next = D.next)
    (hqueue : D'.shouldPublish = D.shouldPublish) : s'.Matches b :=
  h.replace hrep hlookup hdomains hnext (fun _ _ _ => rfl)
    ((h.stored d D hlookup).congr hagg hqueue)

/-- A new domain starts with empty batches. -/
theorem register (h : s.Matches b)
    (hdomains : s'.domains = s.domains.insert s.nextDomainId D)
    (hnext : s'.nextDomainId = s.nextDomainId + 1) (hempty : D.next.statements.toList = [])
    (hqueue : D.shouldPublish = BoundedMap.empty) : s'.Matches b where
  stored := by
    rw [hdomains]
    refine Finmap.forall_lookup_insert ?_ fun d D _ => h.stored d D
    have hfresh := h.fresh s.nextDomainId le_rfl
    refine ⟨fun a hashes hget => ?_, fun a _ items hitems => ?_, fun _ a _ => hfresh a, hfresh 0⟩
    · rw [hfresh a]
      by_cases ha : D.next.id = a
      · simp [pendingHashes, ha, AggregationEntry.hashes, hempty] at hget
        rw [hget]
      · simp [pendingHashes, ha, hqueue] at hget
    · rw [hfresh a] at hitems
      cases hitems
      rfl
  gone := by
    intro d hnone
    have hd : d ≠ s.nextDomainId := by
      rintro rfl
      simp [hdomains] at hnone
    rw [hdomains, Finmap.lookup_insert_of_ne _ hd] at hnone
    exact h.gone d hnone
  fresh := fun d hd => h.fresh d (by omega)

/-- A domain without statements is removed. -/
theorem unregister (h : s.Matches b) (hlookup : s.domains.lookup d = some D)
    (hdomains : s'.domains = s.domains.erase d) (hnext : s'.nextDomainId = s.nextDomainId)
    (hempty : D.next.statements.toList = []) (hqueue : ∀ a, D.shouldPublish.get a = none) :
    s'.Matches b where
  stored := by
    rw [hdomains]
    exact Finmap.forall_lookup_erase fun d D _ => h.stored d D
  gone := by
    intro d' hnone a items hitems
    by_cases hd' : d' = d
    · subst hd'
      have hD := h.stored d' D hlookup
      by_cases ha : D.next.id = a
      · have hpending := hD.pending a D.next.hashes (if_pos ha)
        rw [hitems, Slot.filling.injEq, AggregationEntry.hashes, hempty] at hpending
        exact hpending
      · exact hD.idle a (by simp [pendingHashes, ha, hqueue]) items hitems
    · rw [hdomains, Finmap.lookup_erase_ne hd'] at hnone
      exact h.gone d' hnone a items hitems
  fresh := hnext ▸ h.fresh

end State.Matches

end ZkVerify.Aggregate
