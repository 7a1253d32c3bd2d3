import ZkVerify.Aggregate.Batches

/-!
# What happens to a statement

`replay_run` is the simulation of the pallet by `Frame.BatchLog`: the events of every
run can be replayed as a history of batches, the storage matches the batches at every
point, and the batches that are closed are the published aggregations.  That no
statement is lost, published twice or reordered then follows from the rules of
`Frame.BatchLog`, and is stated for the events and the storage in
`statements_conserved`.
-/

namespace ZkVerify.Aggregate

open Frame Frame.BatchLog DomainEntry

variable {A X T₁ T₂ : Type} {S M : ℕ}

/-! ## The simulation -/

/-- The statements of the aggregations that were added to `Published`. -/
def newlyPublished (s s' : State A X T₁ T₂ S M) : List H256 :=
  (s'.published.drop s.published.length).flatMap fun entry => entry.2.hashes

/-- The call asks for the publication of the aggregation `a` of the domain `d`. -/
def Call.publishes (d a : ℕ) : Call A → Bool
  | .aggregate _ d' a' => decide (d' = d ∧ a' = a)
  | _ => false

private theorem update_row (b : ℕ × ℕ → Slot H256) (d a : ℕ) (slot : Slot H256) :
    (fun a' => Function.update b (d, a) slot (d, a')) =
      Function.update (fun a' => b (d, a')) a slot := by
  funext a'
  by_cases ha : a' = a
  · simp [ha]
  · simp [ha]

private theorem update_other_row (b : ℕ × ℕ → Slot H256) {d d' : ℕ} (a a' : ℕ)
    (slot : Slot H256) (h : d' ≠ d) : Function.update b (d, a) slot (d', a') = b (d', a') := by
  simp [h]

/-- On the way from `s` to `s'` the batches develop from `b` to `b'` as the new events say; the
batches that are closed on the way are those in `lists`. -/
structure Replay (s s' : State A X T₁ T₂ S M) (b b' : ℕ × ℕ → Slot H256)
    (lists : ℕ → ℕ → List (List H256)) : Prop where
  replayed : ∃ events, s'.events = s.events ++ events ∧ BatchLog.run b (acts events) = some b'
  matched : s'.Matches b'
  delivered : ∀ d a, (b' (d, a)).delivered = (b (d, a)).delivered ++ lists d a
  /-- The ids given to domains are `0, 1, 2, …`, in this order. -/
  ids : registrations s.events = List.range s.nextDomainId →
    registrations s'.events = List.range s'.nextDomainId

namespace Replay

variable {s s' s'' : State A X T₁ T₂ S M} {b b' b'' : ℕ × ℕ → Slot H256}
  {lists lists' : ℕ → ℕ → List (List H256)}

theorem trans (h : Replay s s' b b' lists) (h' : Replay s' s'' b' b'' lists') :
    Replay s s'' b b'' fun d a => lists d a ++ lists' d a := by
  obtain ⟨events, hevents, hrun⟩ := h.replayed
  obtain ⟨events', hevents', hrun'⟩ := h'.replayed
  refine ⟨⟨events ++ events', ?_, ?_⟩, h'.matched, fun d a => ?_, fun hids => h'.ids (h.ids hids)⟩
  · rw [hevents', hevents, List.append_assoc]
  · rw [acts, List.filterMap_append]
    exact BatchLog.run_append hrun hrun'
  · rw [h'.delivered, h.delivered, List.append_assoc]

theorem congr_lists (h : Replay s s' b b' lists) (hlists : ∀ d a, lists d a = lists' d a) :
    Replay s s' b b' lists' :=
  ⟨h.replayed, h.matched, fun d a => hlists d a ▸ h.delivered d a, h.ids⟩

/-- Events that announce no domain do not change the ids given out. -/
theorem ids_of_events {events : List Event} (hevents : s'.events = s.events ++ events)
    (hnext : s'.nextDomainId = s.nextDomainId) (hnone : registrations events = [])
    (hids : registrations s.events = List.range s.nextDomainId) :
    registrations s'.events = List.range s'.nextDomainId := by
  rw [hevents, hnext, ← hids]
  unfold registrations at hnone ⊢
  rw [List.filterMap_append, hnone, List.append_nil]

/-- Nothing happens to the batches. -/
theorem of_quiet {events : List Event} (hevents : s'.events = s.events ++ events)
    (hquiet : ∀ e ∈ events, e.quiet = true) (hnext : s'.nextDomainId = s.nextDomainId)
    (hmatches : s'.Matches b) : Replay s s' b b fun _ _ => [] where
  replayed := ⟨events, hevents, by rw [acts_of_quiet hquiet]; rfl⟩
  matched := hmatches
  delivered := fun _ _ => (List.append_nil _).symm
  ids := ids_of_events hevents hnext (registrations_of_quiet hquiet)

end Replay

section simulation

variable [DecidableEq A] {cfg : Config A X T₁ T₂} {kept : Set HoldReason}
  {s s' : State A X T₁ T₂ S M} {c : Call A} {b : ℕ × ℕ → Slot H256}

private theorem replay_accepted {d : ℕ} {D D' : DomainEntry A T₁ T₂ S M} {account : A}
    {reserve : Reserve} {statement : H256} {events : List Event} {x : X} (hrep : Represented s)
    (h : s.Matches b) (hlookup : s.domains.lookup d = some D) (hready : D.state = .ready)
    (hroom : D.canAddStatement = true)
    (haccept : D.acceptStatement s.submittersAllowlist account reserve statement =
      .ok (D', events)) :
    Replay s { s.deposit (.newProof statement d D.next.id :: events) with
        domains := s.domains.insert d D', chain := x } b
      (Function.update b (d, D.next.id) (.filling (D.next.hashes ++ [statement])))
      fun _ _ => [] := by
  have hwf := hrep.wf d D hlookup
  have hD := h.stored d D hlookup
  have hslot : b (d, D.next.id) = .filling D.next.hashes := hD.next_slot
  have hquiet : ∀ e ∈ events, e.quiet = true := by
    obtain ⟨next, -, -, -, ⟨-, -, rfl⟩ | ⟨-, queue, -, -, rfl⟩⟩ :=
      acceptStatement_ok hwf hready hroom haccept
    · simp
    · exact enqueueEvents_quiet D next queue
  have hregistrations : registrations (.newProof statement d D.next.id :: events) = [] := by
    show registrations events = []
    exact registrations_of_quiet hquiet
  refine ⟨⟨_, rfl, ?_⟩, h.replace hrep hlookup rfl rfl
    (fun d' a hd' => update_other_row b _ _ _ hd') ?_, fun d' a => ?_,
    Replay.ids_of_events rfl rfl hregistrations⟩
  · -- The only act is the new statement.
    have hacts : acts (.newProof statement d D.next.id :: events) =
        [.append (d, D.next.id) statement] := by
      show _ :: acts events = _
      rw [acts_of_quiet hquiet]
    rw [hacts]
    exact run_append_filling hslot
  · rw [update_row]
    exact hD.acceptStatement hwf hready hroom haccept
  · by_cases hk : (d', a) = (d, D.next.id)
    · rw [hk, Function.update_self, hslot]
      rfl
    · rw [Function.update_of_ne hk, List.append_nil]

private theorem replay_aggregated {d a : ℕ} {D D' : DomainEntry A T₁ T₂ S M}
    {aggregation : AggregationEntry A S} {popped : List Event} {receipt : H256} {x : X}
    (hrep : Represented s) (h : s.Matches b) (hlookup : s.domains.lookup d = some D)
    (htake : D.takeAggregation a = .ok (some aggregation, D', popped)) :
    Replay s { s.deposit (popped ++ (D'.handleHoldState s.submittersAllowlist).2 ++
          [.newAggregationReceipt d a receipt]) with
        domains := s.domains.insert d (D'.handleHoldState s.submittersAllowlist).1
        published := s.published ++ [(d, aggregation)]
        chain := x } b
      (Function.update b (d, a) (.closed aggregation.hashes))
      fun d' a' => if d = d' ∧ a = a' then [aggregation.hashes] else [] := by
  have hwf := hrep.wf d D hlookup
  obtain ⟨hslot, hD'⟩ := (h.stored d D hlookup).takeAggregation hwf htake
  have hquiet : ∀ e ∈ popped ++ (D'.handleHoldState s.submittersAllowlist).2,
      e.quiet = true := by
    intro e he
    rcases List.mem_append.mp he with he | he
    · rcases takeAggregation_ok hwf htake with ⟨-, -, -, -, rfl⟩ | ⟨-, -, -, rfl⟩
      · exact advanceEvents_quiet D e he
      · cases he
    · exact handleHoldState_quiet D' _ e he
  refine ⟨⟨_, rfl, ?_⟩, h.replace hrep hlookup rfl rfl
    (fun d' a hd' => update_other_row b _ _ _ hd') ?_, fun d' a' => ?_,
    Replay.ids_of_events rfl rfl ?_⟩
  · rw [acts, List.filterMap_append, ← acts, acts_of_quiet hquiet]
    exact run_close_filling hslot
  · rw [update_row, handleHoldState_frame]
    exact hD'.congr rfl rfl
  · by_cases hk : d = d' ∧ a = a'
    · obtain ⟨rfl, rfl⟩ := hk
      rw [Function.update_self, hslot, if_pos ⟨rfl, rfl⟩]
      rfl
    · rw [Function.update_of_ne (by grind), if_neg hk, List.append_nil]
  · rw [registrations, List.filterMap_append, ← registrations, registrations_of_quiet hquiet]
    rfl

/-- Every successful call is a replay: an accepted statement is appended to a batch, a published
aggregation closes its batch, and nothing else touches them. -/
theorem replay_effect (hrep : Represented s) (hstates : HoldStates s) (h : s.Matches b)
    (heffect : Effect cfg s c s') :
    ∃ b', Replay s s' b b' fun d a => if c.publishes d a then [newlyPublished s s'] else [] := by
  cases heffect with
  | skipped hevents =>
      refine ⟨b, .of_quiet rfl (fun e he => ?_) rfl (h.of_domains_eq rfl rfl)⟩
      obtain ⟨cause, rfl⟩ := hevents e he
      rfl
  | initialized =>
      exact ⟨b, .of_quiet (List.append_nil _).symm (by simp) rfl (h.of_domains_eq rfl rfl)⟩
  | accepted hlookup hready hroom _ _ haccept =>
      exact ⟨_, replay_accepted hrep h hlookup hready hroom haccept⟩
  | aggregated _ hlookup htake =>
      refine ⟨_, (replay_aggregated hrep h hlookup htake).congr_lists fun d' a' => ?_⟩
      simp [Call.publishes, newlyPublished]
  | registered _ _ _ _ _ hcreate =>
      obtain ⟨-, rfl⟩ := tryCreate_ok hcreate
      refine ⟨b, ⟨_, rfl, rfl⟩, h.register rfl rfl rfl rfl, fun _ _ => (List.append_nil _).symm,
        fun hids => ?_⟩
      show registrations (s.events ++ _) = List.range (s.nextDomainId + 1)
      rw [registrations, List.filterMap_append, ← registrations, hids, List.range_succ]
      rfl
  | held _ hlookup =>
      exact ⟨b, .of_quiet rfl (by simp [Event.quiet, stateChangedEvent]) rfl
        (h.replace_same hrep hlookup rfl rfl rfl rfl)⟩
  | unregistered _ hlookup _ hremovable =>
      obtain ⟨hempty, hqueue, -⟩ := hstates.drained_of_removable hlookup hremovable
      exact ⟨b, .of_quiet rfl (by simp [Event.quiet]) rfl (h.unregister hlookup rfl rfl hempty
        (BoundedMap.get_of_length_eq_zero hqueue))⟩
  | feeSet _ hlookup =>
      exact ⟨b, .of_quiet (List.append_nil _).symm (by simp) rfl
        (h.replace_same hrep hlookup rfl rfl rfl rfl)⟩
  | allowlisted _ hlookup _ _ _ hcount =>
      rw [changeFootprintCount_frame hcount]
      exact ⟨b, .of_quiet (List.append_nil _).symm (by simp) rfl
        (h.replace_same hrep hlookup rfl rfl rfl rfl)⟩
  | submittersRemoved _ hlookup _ _ _ hcount =>
      rw [changeFootprintCount_frame hcount]
      refine ⟨b, .of_quiet rfl (handleHoldState_quiet _ _) rfl
        (h.replace_same hrep hlookup rfl rfl ?_ ?_)⟩ <;> rw [handleHoldState_frame]

/-- The statement lists that a step publishes as aggregation `a` of domain `d`: one list for a
successful `aggregate` call. -/
def publication (d a : ℕ) (s : State A X T₁ T₂ S M) : Step cfg kept → List (List H256)
  | .environment _ => []
  | .call c =>
      match dispatch cfg c s with
      | .ok (s', _) => if c.publishes d a then [newlyPublished s s'] else []
      | .error _ => []

/-- The statement lists that a run publishes as aggregation `a` of domain `d`. -/
def publications (d a : ℕ) (s : State A X T₁ T₂ S M) : List (Step cfg kept) → List (List H256)
  | [] => []
  | step :: steps => publication d a s step ++ publications d a (exec s step) steps

theorem replay_exec (hrep : Represented s) (hstates : HoldStates s) (h : s.Matches b)
    (step : Step cfg kept) :
    ∃ b', Replay s (exec s step) b b' fun d a => publication d a s step := by
  cases step with
  | environment e =>
      exact ⟨b, .of_quiet (List.append_nil _).symm (by simp) rfl (h.of_domains_eq rfl rfl)⟩
  | call c =>
      cases hok : dispatch cfg c s with
      | ok result =>
          simp only [exec, publication, hok]
          exact replay_effect hrep hstates h (effect_of_dispatch hok)
      | error e =>
          simp only [exec, publication, hok]
          exact ⟨b, .of_quiet (List.append_nil _).symm (by simp) rfl h⟩

/-- Every run is a replay. -/
theorem replay_run (hrep : Represented s) (hstates : HoldStates s) (h : s.Matches b)
    (steps : List (Step cfg kept)) :
    ∃ b', Replay s (run s steps) b b' fun d a => publications d a s steps := by
  induction steps generalizing s b with
  | nil => exact ⟨b, .of_quiet (List.append_nil _).symm (by simp) rfl h⟩
  | cons step steps ih =>
      obtain ⟨b₁, hstep⟩ := replay_exec hrep hstates h step
      obtain ⟨b', hrun⟩ := ih (represented_run hrep [step]) (holdStates_run hrep hstates [step])
        hstep.matched
      exact ⟨b', hstep.trans hrun⟩

/-! ## Where a statement is -/

/-- The places where a domain keeps a pending aggregation. -/
inductive Place
  | next
  | queued (key : ℕ)
deriving DecidableEq

/-- The aggregation at a place. -/
def DomainEntry.pendingAt (D : DomainEntry A T₁ T₂ S M) : Place → Option (AggregationEntry A S)
  | .next => some D.next
  | .queued key => D.shouldPublish.get key

/-- The statements are those of the only pending aggregation of the domain `d` with the id `a`. -/
def SolePending (s : State A X T₁ T₂ S M) (d a : ℕ) (statements : List H256) : Prop :=
  ∃ D place aggregation, s.domains.lookup d = some D ∧ D.pendingAt place = some aggregation ∧
    aggregation.id = a ∧ aggregation.hashes = statements ∧
    ∀ place' aggregation', D.pendingAt place' = some aggregation' → aggregation'.id = a →
      place' = place

omit [DecidableEq A] in
/-- The aggregation with a pending id is at exactly one place. -/
theorem WF.sole_place {D : DomainEntry A T₁ T₂ S M} (hwf : D.WF) {a : ℕ} {hashes : List H256}
    (h : D.pendingHashes a = some hashes) :
    ∃ place aggregation, D.pendingAt place = some aggregation ∧ aggregation.id = a ∧
      aggregation.hashes = hashes ∧
      ∀ place' aggregation', D.pendingAt place' = some aggregation' → aggregation'.id = a →
        place' = place := by
  unfold pendingHashes at h
  split at h
  · rename_i hid
    refine ⟨.next, D.next, rfl, hid, Option.some.inj h, fun place' aggregation' hget hid' => ?_⟩
    cases place' with
    | next => rfl
    | queued key =>
        obtain rfl : key = D.next.id := (hwf.queued _ _ hget).1.symm.trans (hid'.trans hid.symm)
        have hnone : D.pendingAt (.queued D.next.id) = none := hwf.get_next_id
        rw [hnone] at hget
        cases hget
  · rename_i hid
    obtain ⟨aggregation, hget, rfl⟩ := Option.map_eq_some_iff.mp h
    refine ⟨.queued a, aggregation, hget, (hwf.queued _ _ hget).1, rfl,
      fun place' aggregation' hget' hid' => ?_⟩
    cases place' with
    | next =>
        cases hget'
        exact absurd hid' hid
    | queued key => rw [← hid', (hwf.queued _ _ hget').1]

omit [DecidableEq A] in
/-- An unfinished batch with items belongs to the only pending aggregation with its id. -/
theorem State.Matches.solePending (hrep : Represented s) (h : s.Matches b) {d a : ℕ}
    {items : List H256} (hslot : b (d, a) = .filling items) (hne : items ≠ []) :
    SolePending s d a items := by
  cases hlookup : s.domains.lookup d with
  | none => exact absurd (h.gone d hlookup a items hslot) hne
  | some D =>
      have hD := h.stored d D hlookup
      cases hpending : D.pendingHashes a with
      | none => exact absurd (hD.idle a hpending items hslot) hne
      | some hashes =>
          have hitems := hD.pending a hashes hpending
          rw [hslot, Slot.filling.injEq] at hitems
          subst hitems
          obtain ⟨place, aggregation, hrest⟩ := WF.sole_place (hrep.wf d D hlookup) hpending
          exact ⟨D, place, aggregation, hlookup, hrest⟩

omit [DecidableEq A] in
/-- No pending aggregation has the id of a closed batch. -/
theorem State.Matches.not_pending (hrep : Represented s) (h : s.Matches b) {d a : ℕ}
    {items : List H256} (hslot : b (d, a) = .closed items) {D : DomainEntry A T₁ T₂ S M}
    (hlookup : s.domains.lookup d = some D) {place : Place} {aggregation : AggregationEntry A S}
    (hget : D.pendingAt place = some aggregation) : aggregation.id ≠ a := by
  rintro rfl
  have hD := h.stored d D hlookup
  cases place with
  | next =>
      cases hget
      have hfilling := hD.next_slot
      simp [hslot] at hfilling
  | queued key =>
      have hwf := hrep.wf d D hlookup
      obtain rfl := (hwf.queued _ _ hget).1
      have hqueued : D.shouldPublish.get aggregation.id = some aggregation := hget
      have hid : D.next.id ≠ aggregation.id := by
        intro hid
        rw [← hid, hwf.get_next_id] at hqueued
        cases hqueued
      have hfilling := hD.pending aggregation.id aggregation.hashes
        (by rw [pendingHashes, if_neg hid, hqueued, Option.map_some])
      simp [hslot] at hfilling

/-- In every run from the empty storage the statements announced for an aggregation are, in this
order, those of the only pending aggregation with its ids or, once `aggregate` succeeded, those
that were published.  A receipt is announced once, no statement is announced after it, and no id
is used twice. -/
theorem statements_conserved (x : X) (steps : List (Step cfg kept)) :
    let s₀ : State A X T₁ T₂ S M := .genesis x
    let s := run s₀ steps
    (∀ d a, proofs d a s.events ≠ [] →
        (publications d a s₀ steps = [] ∧ SolePending s d a (proofs d a s.events)) ∨
          publications d a s₀ steps = [proofs d a s.events]) ∧
      (∀ d a, receipts d a s.events ≤ 1) ∧
      (∀ d a receipt before after,
        s.events = before ++ .newAggregationReceipt d a receipt :: after →
          proofs d a after = []) ∧
      (registrations s.events).Nodup ∧
      (∀ d a (later : List (Step cfg kept)), publications d a s₀ steps ≠ [] →
        ∀ D, (run s later).domains.lookup d = some D → ∀ place aggregation,
          D.pendingAt place = some aggregation → aggregation.id ≠ a) ∧
      (∀ d (later : List (Step cfg kept)), d ∈ registrations s.events →
        s.domains.lookup d = none → (run s later).domains.lookup d = none) := by
  intro s₀ s
  have hrep₀ : Represented s₀ := Represented.genesis x
  have hstates₀ : HoldStates s₀ := HoldStates.genesis x
  have hrep : Represented s := represented_run hrep₀ steps
  have hstates : HoldStates s := holdStates_run hrep₀ hstates₀ steps
  obtain ⟨b, hreplay⟩ := replay_run hrep₀ hstates₀ (State.Matches.genesis x) steps
  obtain ⟨events, hevents, hrun⟩ := hreplay.replayed
  obtain rfl : s.events = events := hevents
  have hids : registrations s.events = List.range s.nextDomainId := hreplay.ids rfl
  have hdelivered : ∀ d a, (b (d, a)).delivered = publications d a s₀ steps := hreplay.delivered
  have hitems : ∀ d a, (b (d, a)).items = proofs d a s.events := by
    intro d a
    rw [items_run hrun, proofs_eq]
    rfl
  refine ⟨?_, ?_, ?_, ?_, ?_, ?_⟩
  · -- The batch of the ids is being filled, and pending, or it is closed, and published.
    intro d a hne
    rw [← hitems] at hne ⊢
    rw [← hdelivered]
    cases hslot : b (d, a) with
    | filling items =>
        rw [hslot] at hne
        exact .inl ⟨rfl, hreplay.matched.solePending hrep hslot hne⟩
    | closed items => exact .inr rfl
  · intro d a
    rw [receipts_eq]
    exact closes_le_one hrun (d, a)
  · intro d a receipt before after hsplit
    rw [hsplit, acts, List.filterMap_append] at hrun
    rw [proofs_eq]
    exact appended_after_close hrun
  · rw [hids]
    exact List.nodup_range
  · -- A published batch is closed, and it stays closed in the rest of the run.
    intro d a later hpublished D hlookup place aggregation hget
    obtain ⟨b', hlater⟩ := replay_run hrep hstates hreplay.matched later
    obtain ⟨events', -, hrun'⟩ := hlater.replayed
    rw [← hdelivered] at hpublished
    cases hslot : b (d, a) with
    | filling items => simp [hslot, Slot.delivered] at hpublished
    | closed items =>
        exact hlater.matched.not_pending (represented_run hrep later) (closed_run hslot hrun').1
          hlookup hget
  · intro d later hmem hnone
    rw [hids, List.mem_range] at hmem
    exact (gone_run hrep ⟨hmem, hnone⟩ later).2

end simulation

end ZkVerify.Aggregate
