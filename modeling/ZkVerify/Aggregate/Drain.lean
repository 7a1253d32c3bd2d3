import ZkVerify.Aggregate.Tickets
import ZkVerify.Aggregate.Funds

/-!
# Draining a domain on hold

A domain on hold is removed in three phases: its pending aggregations are published,
its rows are removed, and it is unregistered.  `manager_drains_domain` says that the manager
can always do this, whatever the order in which the aggregations are published.

Every publication takes one id out of the set of pending ids and adds none.  The
aggregation that is started in the place of a published one is empty, so it is not
pending, and its id is not that of a queued aggregation.  This is `Draining`, the
invariant of the first phase.
-/

namespace ZkVerify.Aggregate

open Frame DomainEntry

variable {A X T₁ T₂ : Type} {S M : ℕ}

/-! ## Pending aggregations -/

namespace DomainEntry

/-- The aggregation with this id waits to be published: it is queued, or it is the next one and
has statements. -/
def Pending (D : DomainEntry A T₁ T₂ S M) (id : ℕ) : Prop :=
  (id = D.next.id ∧ D.next.statements.toList ≠ []) ∨ (D.shouldPublish.get id).isSome

variable {D : DomainEntry A T₁ T₂ S M} {id : ℕ}

/-- A pending aggregation can be taken, and then the others are still pending. -/
theorem takeAggregation_of_pending (hwf : D.WF) (hpending : D.Pending id) :
    ∃ aggregation D' popped, D.takeAggregation id = .ok (some aggregation, D', popped) ∧
      ∀ b, D'.Pending b ↔ D.Pending b ∧ b ≠ id := by
  have hnext : D.shouldPublish.get D.next.id = none := hwf.get_next_id
  rcases hpending with ⟨rfl, hne⟩ | hqueued
  · refine ⟨D.next, D.advance, D.advanceEvents, ?_, fun b => ?_⟩
    · rw [takeAggregation, if_pos rfl, popNextAggregation_eq hwf.next_size_le hne]
    · -- The new aggregation is empty, whatever its id is.
      by_cases hb : b = D.next.id
      · simp [Pending, hb, hnext]
      · simp [Pending, hb]
  · obtain ⟨aggregation, hget⟩ := Option.isSome_iff_exists.mp hqueued
    have hid : id ≠ D.next.id := by
      rintro rfl
      simp [hnext] at hget
    refine ⟨aggregation, { D with shouldPublish := D.shouldPublish.remove id }, [], ?_,
      fun b => ?_⟩
    · rw [takeAggregation, if_neg (Ne.symm hid), hget]
    · by_cases hb : b = id
      · subst hb
        simp [Pending, BoundedMap.get_remove_self, hid]
      · simp [Pending, BoundedMap.get_remove_of_ne _ hb, hb]

/-- Without pending aggregations the domain holds no statement. -/
theorem empty_of_not_pending (h : ∀ id, ¬ D.Pending id) :
    D.next.statements.toList = [] ∧ D.shouldPublish.length = 0 := by
  constructor
  · by_contra hne
    exact h D.next.id (.inl ⟨rfl, hne⟩)
  · rw [BoundedMap.length, Finset.card_eq_zero, Finset.eq_empty_iff_forall_notMem]
    intro k hk
    refine h k (.inr ?_)
    rwa [BoundedMap.get, Finmap.lookup_isSome, ← Finmap.mem_keys]

end DomainEntry

/-! ## The calls of the manager -/

variable [DecidableEq A] {cfg : Config A X T₁ T₂} {kept : Set HoldReason}
  {s : State A X T₁ T₂ S M} {origin : RawOrigin A} {d : ℕ} {D D₀ : DomainEntry A T₁ T₂ S M}

/-- Publish aggregations of one domain, one call after the other. -/
def aggregateAll (cfg : Config A X T₁ T₂) (origin : RawOrigin A) (d : ℕ) :
    List ℕ → State A X T₁ T₂ S M → Except (Abort Error Panic) (State A X T₁ T₂ S M)
  | [], s => .ok s
  | a :: ids, s => do
      let (s, _) ← aggregate cfg origin d a s
      aggregateAll cfg origin d ids s

/-- The manager may publish any aggregation. -/
theorem canUserAggregateIt_manager (rules : AggregateSecurityRules) (owner : User A)
    (deliveryOwner : A) (aggregation : AggregationEntry A S) :
    rules.canUserAggregateIt .manager owner deliveryOwner aggregation = true := by
  cases rules <;> simp [AggregateSecurityRules.canUserAggregateIt, User.isManager]

/-- A call of the manager to publish a pending aggregation succeeds. -/
theorem aggregate_manager (hmanager : cfg.managerOrigin origin = true)
    (hdispatch : ∀ a root destination fee owner x,
      cfg.dispatchAggregation d a root destination fee owner x = .ok ())
    (hlookup : s.domains.lookup d = some D) {a : ℕ} {aggregation : AggregationEntry A S}
    {D' : DomainEntry A T₁ T₂ S M} {popped : List Event}
    (htake : D.takeAggregation a = .ok (some aggregation, D', popped)) :
    ∃ s' info, aggregate cfg origin d a s = .ok (s', info) ∧
      s'.domains.lookup d = some (D'.handleHoldState s.submittersAllowlist).1 ∧
      s'.submittersAllowlist = s.submittersAllowlist := by
  unfold aggregate User.fromOrigin
  simp only [hmanager, if_true, hlookup, htake, okOr_some, ok_bind, unwind_ok, hdispatch,
    canUserAggregateIt_manager, ensure_true, raise_ok]
  exact ⟨_, _, rfl, Finmap.lookup_insert _, rfl⟩

/-! ## Publishing -/

/-- The domain `d`, once `D₀`, is on its way out and `ids` are its pending ids. -/
structure Draining (d : ℕ) (D₀ : DomainEntry A T₁ T₂ S M) (rows : Finset (ℕ × A)) (ids : List ℕ)
    (s : State A X T₁ T₂ S M) : Prop where
  represented : Represented s
  states : HoldStates s
  rows_eq : s.submittersAllowlist = rows
  stored : ∃ D, s.domains.lookup d = some D ∧ Moved D₀ D ∧ D.state ≠ .ready ∧
    ∀ a, D.Pending a ↔ a ∈ ids

namespace Draining

variable {rows : Finset (ℕ × A)} {ids : List ℕ} {a : ℕ}

/-- Publishing a pending aggregation succeeds and takes its id out. -/
theorem aggregate (hmanager : cfg.managerOrigin origin = true)
    (hdispatch : ∀ a root destination fee owner x,
      cfg.dispatchAggregation d a root destination fee owner x = .ok ())
    (hnodup : (a :: ids).Nodup) (h : Draining d D₀ rows (a :: ids) s) :
    ∃ s' info, aggregate cfg origin d a s = .ok (s', info) ∧ Draining d D₀ rows ids s' := by
  obtain ⟨D, hlookup, hmoved, hne, hids⟩ := h.stored
  have hwf := h.represented.wf d D hlookup
  obtain ⟨aggregation, D', popped, htake, hpending⟩ :=
    takeAggregation_of_pending hwf ((hids a).mpr List.mem_cons_self)
  obtain ⟨s', info, hok, hlookup', hrows⟩ :=
    aggregate_manager hmanager hdispatch hlookup htake
  have heffect : Effect cfg s (.aggregate origin d a) s' := effect_of_dispatch hok
  have hne' : D'.state ≠ .ready := by
    rcases takeAggregation_ok hwf htake with ⟨-, -, -, rfl, -⟩ | ⟨-, -, rfl, -⟩
    · exact advance_state_of_ne_ready D hne
    · exact hne
  refine ⟨s', info, hok, h.represented.effect heffect, h.states.effect h.represented heffect,
    hrows.trans h.rows_eq, _, hlookup', ?_, handleHoldState_state_ne_ready _ _ hne', fun b => ?_⟩
  · exact (hmoved.trans (takeAggregation_moved hwf htake)).trans (handleHoldState_moved _ _)
  · -- Re-evaluating the hold state moves no aggregation.
    have hframe : (D'.handleHoldState s.submittersAllowlist).1.Pending b ↔ D'.Pending b := by
      rw [handleHoldState_frame]
      rfl
    have ha : a ∉ ids := (List.nodup_cons.mp hnodup).1
    rw [hframe, hpending, hids, List.mem_cons]
    constructor
    · rintro ⟨rfl | hmem, hb⟩
      · exact absurd rfl hb
      · exact hmem
    · intro hmem
      exact ⟨.inr hmem, fun hb => ha (hb ▸ hmem)⟩

/-- All pending aggregations can be published, in any order. -/
theorem aggregateAll (hmanager : cfg.managerOrigin origin = true)
    (hdispatch : ∀ a root destination fee owner x,
      cfg.dispatchAggregation d a root destination fee owner x = .ok ())
    (hnodup : ids.Nodup) (h : Draining d D₀ rows ids s) :
    ∃ s', aggregateAll cfg origin d ids s = .ok s' ∧ Draining d D₀ rows [] s' := by
  induction ids generalizing s with
  | nil => exact ⟨s, rfl, h⟩
  | cons a ids ih =>
      obtain ⟨s₁, info, hok, hdraining⟩ := h.aggregate hmanager hdispatch hnodup
      obtain ⟨s', hrest, hdone⟩ := ih (List.nodup_cons.mp hnodup).2 hdraining
      refine ⟨s', ?_, hdone⟩
      rw [Aggregate.aggregateAll, hok]
      exact hrest

/-- A domain without pending aggregations and without rows is removable. -/
theorem removable (h : Draining d D₀ rows [] s) (hrows : ∀ a, (d, a) ∉ rows) :
    ∃ D, s.domains.lookup d = some D ∧ D.state = .removable := by
  obtain ⟨D, hlookup, -, hne, hpending⟩ := h.stored
  obtain ⟨hnext, hqueue⟩ := empty_of_not_pending (D := D) fun a => by simp [hpending]
  refine ⟨D, hlookup, ?_⟩
  rcases h.states.state_of_ne_ready hlookup hne with ⟨-, hstate⟩ | ⟨hleft, -⟩
  · exact hstate
  · refine absurd ⟨hnext, hqueue, .inr fun a => ?_⟩ hleft
    rw [h.represented.id_eq d D hlookup, h.rows_eq]
    exact hrows a

end Draining

/-! ## Removing the rows -/

/-- The ticket of `D` can be lowered in every state of the chain. -/
def DomainEntry.CanLower (cfg : Config A X T₁ T₂) (D : DomainEntry A T₁ T₂ S M) : Prop :=
  ∀ owner ticket n, D.owner = .account owner → D.ticketAllowlist = some ⟨ticket, n⟩ →
    ∀ m ≤ n, ∀ x, ∃ r, cfg.considerationAllowList.update ticket owner ⟨m, 0⟩ x = .ok r

/-- The counter can be lowered by the number of removed rows. -/
theorem decreaseFootprintCount_succeeds {rows : Finset (ℕ × A)}
    (hmatches : D.TicketMatches (rowCount d rows)) (hlower : D.CanLower cfg) (submitters : List A)
    (x : X) :
    ∃ D' x', D.decreaseFootprintCount cfg
      (saturatedInto u64Max (removeRows d rows submitters).2) x = .ok (D', x') := by
  unfold decreaseFootprintCount changeFootprintCount
  cases howner : D.owner with
  | manager => exact ⟨_, _, rfl⟩
  | account owner =>
      cases hticket : D.ticketAllowlist with
      | none => exact ⟨_, _, rfl⟩
      | some ticket =>
          obtain ⟨ticket, n⟩ := ticket
          obtain ⟨-, -, rfl⟩ := hmatches.of_ticket hticket
          obtain ⟨m, hm⟩ := Option.ne_none_iff_exists'.mp
            (decrease_recount_ne_none d rows submitters)
          have hle : m ≤ rowCount d rows := by
            rw [checkedSub_eq_some] at hm
            omega
          obtain ⟨⟨ticket', x'⟩, hupdate⟩ := hlower owner ticket _ howner hticket m hle x
          simp only [User.account?, hm, okOr_some, ok_bind, hupdate]
          exact ⟨_, _, rfl⟩

/-- Once nothing is pending, the manager removes the rows and leaves a removable domain. -/
theorem Draining.removeProofSubmitters {rows : Finset (ℕ × A)} (h : Draining d D₀ rows [] s)
    (hmanager : cfg.managerOrigin origin = true) (hrules : D₀.proofRules = .onlyAllowlisted)
    (hmatches : D₀.TicketMatches (rowCount d rows)) (hlower : D₀.CanLower cfg)
    {submitters : List A} (hall : ∀ a, (d, a) ∈ rows → a ∈ submitters) :
    ∃ s' info D, removeProofSubmitters cfg origin d submitters s = .ok (s', info) ∧
      s'.domains.lookup d = some D ∧ D.state = .removable := by
  obtain ⟨D, hlookup, hmoved, hne, hpending⟩ := h.stored
  obtain ⟨hnext, hqueue⟩ := empty_of_not_pending (D := D) fun a => by simp [hpending]
  have hid : D.id = d := h.represented.id_eq d D hlookup
  have hrulesD : D.proofRules = .onlyAllowlisted := hmoved.proofRules.trans hrules
  have hmatchesD : D.TicketMatches (rowCount d rows) :=
    hmatches.congr hmoved.owner hmoved.proofRules hmoved.ticketAllowlist
  have hlowerD : D.CanLower cfg := by
    unfold CanLower
    rw [hmoved.owner, hmoved.ticketAllowlist]
    exact hlower
  obtain ⟨D', x', hcount⟩ := decreaseFootprintCount_succeeds hmatchesD hlowerD submitters s.chain
  have hframe := changeFootprintCount_frame hcount
  have hdrained : D'.Drained (removeRows d rows submitters).1 := by
    rw [hframe]
    refine ⟨hnext, hqueue, .inr fun a hmem => ?_⟩
    rw [hid, mem_removeRows] at hmem
    exact hmem.2 ⟨rfl, hall a hmem.1⟩
  have hne' : D'.state ≠ .ready := by
    rw [hframe]
    exact hne
  have hstate : (D'.handleHoldState (removeRows d rows submitters).1).1.state = .removable := by
    rw [handleHoldState_fst, if_neg hne']
    exact updateHoldState_of_drained hdrained
  unfold Aggregate.removeProofSubmitters User.fromOrigin tryRemoveSubmitters removeSubmitters
  simp only [hmanager, if_true, hlookup, okOr_some, ok_bind, User.canHandleDomain, ensure_true,
    hrulesD, decide_true, hid, h.rows_eq, hcount]
  exact ⟨_, _, _, rfl, Finmap.lookup_insert _, hstate⟩

/-! ## Removing the domain -/

/-- The manager can unregister a removable domain. -/
theorem unregisterDomain_manager (hmanager : cfg.managerOrigin origin = true)
    (hlookup : s.domains.lookup d = some D) (hstate : D.state = .removable) :
    ∃ s' info, unregisterDomain cfg origin d s = .ok (s', info) ∧ s'.domains.lookup d = none := by
  unfold unregisterDomain User.fromOrigin
  simp only [hmanager, if_true, hlookup, okOr_some, ok_bind, User.canHandleDomain, ensure_true,
    hstate, decide_true]
  exact ⟨_, _, rfl, Finmap.lookup_erase _ _⟩

/-- A domain on hold is never stuck.  When the manager publishes its pending aggregations, in any
order, and then removes its rows, if there are any, every call succeeds and the domain becomes
removable; and then the manager can unregister it. -/
theorem manager_drains_domain (hs : Reachable cfg kept s) (hlookup : s.domains.lookup d = some D)
    (hhold : D.state = .hold) (hmanager : cfg.managerOrigin origin = true)
    (hdispatch : ∀ a root destination fee owner x,
      cfg.dispatchAggregation d a root destination fee owner x = .ok ())
    (hlower : D.CanLower cfg) {ids : List ℕ} (hnodup : ids.Nodup)
    (hids : ∀ a, a ∈ ids ↔ D.Pending a) {submitters : List A}
    (hsubmitters : ∀ a, a ∈ submitters ↔ (d, a) ∈ s.submittersAllowlist) :
    ∃ s₁ s₂ D₂ s₃ info,
      aggregateAll cfg origin d ids s = .ok s₁ ∧
      (if submitters = [] then s₂ = s₁
        else ∃ info, removeProofSubmitters cfg origin d submitters s₁ = .ok (s₂, info)) ∧
      s₂.domains.lookup d = some D₂ ∧ D₂.state = .removable ∧
      unregisterDomain cfg origin d s₂ = .ok (s₃, info) ∧ s₃.domains.lookup d = none := by
  have hdraining : Draining d D s.submittersAllowlist ids s :=
    ⟨hs.represented, hs.holdStates, rfl, D, hlookup, by constructor <;> rfl, by simp [hhold],
      fun a => (hids a).symm⟩
  obtain ⟨s₁, haggregate, hdone⟩ := hdraining.aggregateAll hmanager hdispatch hnodup
  by_cases hnil : submitters = []
  · -- There are no rows, so the last publication made the domain removable.
    obtain ⟨D₁, hlookup₁, hstate₁⟩ := hdone.removable fun a hmem => by
      simpa [hnil] using (hsubmitters a).mpr hmem
    obtain ⟨s₃, info, hunregister, hgone⟩ :=
      unregisterDomain_manager hmanager hlookup₁ hstate₁
    exact ⟨s₁, s₁, D₁, s₃, info, haggregate, by simp [hnil], hlookup₁, hstate₁, hunregister, hgone⟩
  · -- Only a domain with an allowlist has rows.
    obtain ⟨a, ha⟩ := List.exists_mem_of_ne_nil submitters hnil
    obtain ⟨D', hlookup', hrules⟩ := hs.holdStates.rows d a ((hsubmitters a).mp ha)
    rw [hlookup] at hlookup'
    cases hlookup'
    obtain ⟨s₂, info₂, D₂, hremove, hlookup₂, hstate₂⟩ :=
      hdone.removeProofSubmitters hmanager hrules (hs.counted d D hlookup) hlower
        fun a => (hsubmitters a).mpr
    obtain ⟨s₃, info, hunregister, hgone⟩ :=
      unregisterDomain_manager hmanager hlookup₂ hstate₂
    exact ⟨s₁, s₂, D₂, s₃, info, haggregate, by simp [hnil, hremove], hlookup₂, hstate₂,
      hunregister, hgone⟩

/-- Account `5` registers a domain with an allowlist, accounts `6` and `7` fill one aggregation and
start the next, and the domain is put on hold. -/
def sampleOnHold : List (Step sampleConfig ∅) :=
  [.call (.registerDomain (.signed 5) 2 none .onlyOwner .onlyAllowlisted ⟨.none, 10, 4⟩ (some 9)),
    .call (.allowlistProofSubmitters (.signed 5) 0 ⟨[6, 7], by decide⟩),
    .call (.onProofVerified (some 6) (some 0) (Vector.replicate 32 0)),
    .call (.onProofVerified (some 7) (some 0) (Vector.replicate 32 1)),
    .call (.onProofVerified (some 6) (some 0) (Vector.replicate 32 2)),
    .call (.holdDomain (.signed 5) 0)]

/-- The ticket for two rows can be lowered. -/
theorem sampleConfig_update (m : ℕ) (hm : m ≤ 2) (owner : ℕ) (x : Book ℕ HoldReason) :
    ∃ r, sampleConfig.considerationAllowList.update 4 owner ⟨m, 0⟩ x = .ok r := by
  show ∃ r, (if 4 ≤ 2 * m then if 2 * m - 4 ≤ x.free owner then _ else _ else _) = _
  split
  · rw [if_pos (by omega)]
    exact ⟨_, rfl⟩
  · exact ⟨_, rfl⟩

theorem manager_drains_domain_sample :
    let s : State ℕ (Book ℕ HoldReason) ℕ ℕ 4 2 := run (.genesis sampleBook) sampleOnHold
    ∃ s₁ s₂ D₂ s₃ info,
      aggregateAll sampleConfig .root 0 [2, 1] s = .ok s₁ ∧
      (if ([7, 6] : List ℕ) = [] then s₂ = s₁
        else ∃ info, removeProofSubmitters sampleConfig .root 0 [7, 6] s₁ = .ok (s₂, info)) ∧
      s₂.domains.lookup 0 = some D₂ ∧ D₂.state = .removable ∧
      unregisterDomain sampleConfig .root 0 s₂ = .ok (s₃, info) ∧
      s₃.domains.lookup 0 = none := by
  intro s
  have hrows : s.submittersAllowlist = {(0, 6), (0, 7)} := by decide
  obtain ⟨D, hlookup, hhold, hticket, hnext, hne, hkeys⟩ : ∃ D, s.domains.lookup 0 = some D ∧
      D.state = .hold ∧ D.ticketAllowlist = some ⟨4, 2⟩ ∧ D.next.id = 2 ∧
      D.next.statements.toList.length = 1 ∧ D.shouldPublish.toFinmap.keys = {1} :=
    ⟨_, rfl, rfl, rfl, rfl, rfl, rfl⟩
  refine manager_drains_domain ⟨sampleBook, sampleOnHold, rfl⟩ hlookup hhold rfl
    (fun _ _ _ _ _ _ => rfl) ?_ (by decide) (fun a => ?_) fun a => ?_
  · intro owner ticket n _ hticket' m hm x
    rw [hticket] at hticket'
    cases hticket'
    exact sampleConfig_update m hm owner x
  · rw [Pending, BoundedMap.get, Finmap.lookup_isSome, ← Finmap.mem_keys, hkeys, hnext,
      ← List.length_pos_iff]
    simp [hne]
  · rw [hrows]
    simp [or_comm]

end ZkVerify.Aggregate
