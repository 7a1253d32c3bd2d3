import ZkVerify.Aggregate.Lifecycle
import ZkVerify.Aggregate.Funds

/-!
# When an aggregation is published

`aggregate` takes the aggregation out of the domain before it asks whether the caller may
publish it, and judges by the aggregation it took whether it is complete.  None of this
can be seen from outside: a call that fails is rolled back.

`DomainEntry.Names` says which aggregation an id names, `DomainEntry.MayPublish` who is
admitted by the rules, and `DomainEntry.Retired` what is left of the domain once the
aggregation is gone.  `aggregate_ok_iff` is the exact condition for success together with
the effect.
-/

namespace ZkVerify.Aggregate

open Frame DomainEntry

variable {A X T₁ T₂ : Type} {S M : ℕ}

/-! ## The ids of the aggregations -/

/-- The ids of the aggregations that are being filled are words. -/
def IdsBounded (s : State A X T₁ T₂ S M) : Prop :=
  ∀ d D, s.domains.lookup d = some D → D.next.id ≤ u64Max

namespace DomainEntry

variable {D D' : DomainEntry A T₁ T₂ S M}

theorem advance_next_id_le : D.advance.next.id ≤ u64Max := by
  unfold advance
  split
  · assumption
  · exact Nat.zero_le _

theorem takeAggregation_next_id_le {a : ℕ} {aggregation : AggregationEntry A S}
    {popped : List Event} (hwf : D.WF) (hle : D.next.id ≤ u64Max)
    (h : D.takeAggregation a = .ok (some aggregation, D', popped)) : D'.next.id ≤ u64Max := by
  rcases takeAggregation_ok hwf h with ⟨-, -, -, rfl, -⟩ | ⟨-, -, rfl, -⟩
  · exact advance_next_id_le
  · exact hle

variable [DecidableEq A]

theorem acceptStatement_next_id_le {rows : Finset (ℕ × A)} {account : A} {reserve : Reserve}
    {statement : H256} {events : List Event} (hwf : D.WF) (hready : D.state = .ready)
    (hroom : D.canAddStatement = true) (hle : D.next.id ≤ u64Max)
    (h : D.acceptStatement rows account reserve statement = .ok (D', events)) :
    D'.next.id ≤ u64Max := by
  obtain ⟨next, hid, -, -, ⟨-, rfl, -⟩ | ⟨-, queue, -, rfl, -⟩⟩ :=
    acceptStatement_ok hwf hready hroom h
  · rw [← hid] at hle
    exact hle
  · exact advance_next_id_le

theorem handleHoldState_next (D : DomainEntry A T₁ T₂ S M) (rows : Finset (ℕ × A)) :
    (D.handleHoldState rows).1.next = D.next := by
  rw [handleHoldState_frame]

end DomainEntry

variable [DecidableEq A] {cfg : Config A X T₁ T₂} {kept : Set HoldReason}
  {s s' : State A X T₁ T₂ S M} {c : Call A}

/-- Every successful call keeps the ids bounded. -/
theorem IdsBounded.effect (hrep : Represented s) (h : IdsBounded s) (heffect : Effect cfg s c s') :
    IdsBounded s' := by
  have hinsert : ∀ {d : ℕ} {D' : DomainEntry A T₁ T₂ S M}, D'.next.id ≤ u64Max →
      ∀ d₁ D₁, (s.domains.insert d D').lookup d₁ = some D₁ → D₁.next.id ≤ u64Max := by
    intro d D' hle
    exact Finmap.forall_lookup_insert hle fun d₁ D₁ _ => h d₁ D₁
  cases heffect with
  | skipped | initialized => exact h
  | accepted hlookup hready hroom _ _ haccept =>
      apply hinsert
      exact acceptStatement_next_id_le (hrep.wf _ _ hlookup) hready hroom (h _ _ hlookup) haccept
  | aggregated _ hlookup htake =>
      apply hinsert
      rw [handleHoldState_next]
      exact takeAggregation_next_id_le (hrep.wf _ _ hlookup) (h _ _ hlookup) htake
  | registered _ _ _ _ _ hcreate =>
      obtain ⟨-, rfl⟩ := tryCreate_ok hcreate
      have hone : 1 ≤ u64Max := by decide
      exact hinsert hone
  | held _ hlookup =>
      have hle := h _ _ hlookup
      exact hinsert hle
  | unregistered => exact Finmap.forall_lookup_erase fun d₁ D₁ _ => h d₁ D₁
  | feeSet _ hlookup =>
      have hle := h _ _ hlookup
      exact hinsert hle
  | allowlisted _ hlookup _ _ _ hcount =>
      have hle := h _ _ hlookup
      rw [changeFootprintCount_frame hcount]
      exact hinsert hle
  | submittersRemoved _ hlookup _ _ _ hcount =>
      have hle := h _ _ hlookup
      rw [changeFootprintCount_frame hcount]
      apply hinsert
      rw [handleHoldState_next]
      exact hle

/-- Every run keeps the ids bounded. -/
theorem idsBounded_run (hrep : Represented s) (h : IdsBounded s) (steps : List (Step cfg kept)) :
    IdsBounded (run s steps) := by
  apply effect_induction hrep h
  · intro s c s' _ hrep h heffect
    exact h.effect hrep heffect
  · intro s e h
    exact h

omit [DecidableEq A] in
theorem IdsBounded.genesis (x : X) : IdsBounded (.genesis x : State A X T₁ T₂ S M) := by
  intro d D hlookup
  simp [State.genesis] at hlookup

theorem Reachable.idsBounded (hs : Reachable cfg kept s) : IdsBounded s := by
  obtain ⟨x, steps, rfl⟩ := hs
  exact idsBounded_run (Represented.genesis x) (IdsBounded.genesis x) steps

/-! ## What an id names and who may publish it -/

namespace DomainEntry

variable {D D' : DomainEntry A T₁ T₂ S M} {a : ℕ} {aggregation : AggregationEntry A S}

/-- The id names the next aggregation, which has statements, or one in the queue. -/
def Names (D : DomainEntry A T₁ T₂ S M) (a : ℕ) (aggregation : AggregationEntry A S) : Prop :=
  (D.next.id = a ∧ D.next.statements.toList ≠ [] ∧ aggregation = D.next) ∨
    D.shouldPublish.get a = some aggregation

/-- The rules of the domain admit the caller: everybody, or the manager and the two owners, or
everybody once the aggregation has all its statements. -/
def MayPublish (D : DomainEntry A T₁ T₂ S M) (aggregator : User A)
    (aggregation : AggregationEntry A S) : Prop :=
  D.aggregateRules = .untrusted ∨
    (aggregator = .manager ∨ aggregator = D.owner ∨ aggregator = .account D.delivery.owner) ∨
    (D.aggregateRules = .onlyOwnerUncompleted ∧
      aggregation.statements.toList.length = aggregation.size)

omit [DecidableEq A] in
/-- Taking an aggregation does not panic, and finds one exactly if the id names one. -/
theorem WF.takeAggregation_returns (hwf : D.WF) (a : ℕ) :
    ∃ taken D' popped, D.takeAggregation a = .ok (taken, D', popped) ∧
      ∀ aggregation, taken = some aggregation ↔ D.Names a aggregation := by
  unfold DomainEntry.takeAggregation Names
  by_cases hid : D.next.id = a
  · subst hid
    rw [if_pos rfl]
    by_cases hempty : D.next.statements.toList = []
    · refine ⟨_, _, _, popNextAggregation_empty hempty, ?_⟩
      intro aggregation
      simp [hempty, hwf.get_next_id]
    · refine ⟨_, _, _, popNextAggregation_eq hwf.next_size_le hempty, ?_⟩
      intro aggregation
      simp [hempty, hwf.get_next_id, eq_comm]
  · rw [if_neg hid]
    refine ⟨_, _, _, rfl, ?_⟩
    intro aggregation
    simp [hid]

omit [DecidableEq A] in
/-- No pending aggregation has more statements than its size. -/
theorem WF.length_le_of_names (hwf : D.WF) (h : D.Names a aggregation) :
    aggregation.statements.toList.length ≤ aggregation.size := by
  rcases h with ⟨-, -, rfl⟩ | hget
  · have hlength := hwf.next_length
    have hsize := hwf.next_size
    omega
  · obtain ⟨-, -, hsize, hlength⟩ := hwf.queued a aggregation hget
    omega

theorem canUserAggregateIt_iff {aggregator : User A}
    (hlength : aggregation.statements.toList.length ≤ aggregation.size) :
    D.aggregateRules.canUserAggregateIt aggregator D.owner D.delivery.owner aggregation = true ↔
      D.MayPublish aggregator aggregation := by
  have hcompleted : aggregation.completed = true ↔
      aggregation.statements.toList.length = aggregation.size := by
    rw [AggregationEntry.completed, decide_eq_true_iff, AggregationEntry.spaceLeft]
    omega
  have howner : (aggregator.account? = some D.delivery.owner ∨ aggregator = D.owner) ∨
      aggregator.isManager = true ↔
        aggregator = .manager ∨ aggregator = D.owner ∨ aggregator = .account D.delivery.owner := by
    cases aggregator with
    | manager => simp [User.isManager]
    | account who =>
        simp only [User.account?, Option.some.injEq, User.isManager, Bool.false_eq_true, or_false,
          reduceCtorEq, User.account.injEq, false_or]
        exact or_comm
  unfold AggregateSecurityRules.canUserAggregateIt MayPublish
  cases hrules : D.aggregateRules with
  | untrusted => simp
  | onlyOwner => simp [howner]
  | onlyOwnerUncompleted =>
      simp only [Bool.or_eq_true, decide_eq_true_eq, hcompleted, howner, reduceCtorEq, true_and,
        false_or]
      exact or_comm

/-! ## What is left of the domain -/

/-- The aggregation `a` is gone from the domain.  If it was the next one, an empty aggregation with
the next id took its place, or the dummy when the ids are used up; the state is re-evaluated. -/
structure Retired (D D' : DomainEntry A T₁ T₂ S M) (a : ℕ) (rows : Finset (ℕ × A)) : Prop where
  moved : D.Moved D'
  next : D'.next = if D.next.id = a
    then ⟨if a = u64Max then 0 else a + 1, D.next.size, BoundedVec.empty⟩ else D.next
  queue : ∀ k, D'.shouldPublish.get k = if k = a then none else D.shouldPublish.get k
  ready : D.state = .ready → ¬ (D.next.id = a ∧ a = u64Max) → D'.state = .ready
  evaluated : D.state ≠ .ready ∨ (D.next.id = a ∧ a = u64Max) →
    (D'.Drained rows → D'.state = .removable) ∧ (¬ D'.Drained rows → D'.state = .hold)

/-- A domain that is not ready is re-evaluated. -/
theorem handleHoldState_state_of_ne_ready {rows : Finset (ℕ × A)} (h : D.state ≠ .ready) :
    ((D.handleHoldState rows).1.Drained rows → (D.handleHoldState rows).1.state = .removable) ∧
      (¬ (D.handleHoldState rows).1.Drained rows → (D.handleHoldState rows).1.state = .hold) := by
  rw [handleHoldState_fst, if_neg h]
  exact ⟨updateHoldState_of_drained (D := D), updateHoldState_of_not_drained (D := D)⟩

theorem handleHoldState_shouldPublish (D : DomainEntry A T₁ T₂ S M) (rows : Finset (ℕ × A)) :
    (D.handleHoldState rows).1.shouldPublish = D.shouldPublish := by
  rw [handleHoldState_frame]

theorem handleHoldState_state_of_ready {rows : Finset (ℕ × A)} (h : D.state = .ready) :
    (D.handleHoldState rows).1.state = .ready := by
  rw [handleHoldState_fst, if_pos h, h]

/-- What `aggregate` leaves of the domain. -/
theorem retired_of_takeAggregation (rows : Finset (ℕ × A)) {popped : List Event} (hwf : D.WF)
    (hle : D.next.id ≤ u64Max) (h : D.takeAggregation a = .ok (some aggregation, D', popped)) :
    D.Retired (D'.handleHoldState rows).1 a rows := by
  have hmoved := (takeAggregation_moved hwf h).trans (handleHoldState_moved D' rows)
  rcases takeAggregation_ok hwf h with ⟨rfl, -, -, rfl, -⟩ | ⟨hne, -, rfl, -⟩
  · -- The next aggregation is replaced.
    have hqueue : ∀ k, D.advance.shouldPublish.get k =
        if k = D.next.id then none else D.shouldPublish.get k := by
      intro k
      rw [advance_shouldPublish]
      split
      · rename_i hk
        rw [hk, hwf.get_next_id]
      · rfl
    by_cases hlast : D.next.id = u64Max
    · have hadvance : D.advance =
          { D with state := .hold, next := ⟨0, D.next.size, BoundedVec.empty⟩ } :=
        if_neg hlast.not_lt
      refine ⟨hmoved, ?_, ?_, ?_, ?_⟩
      · rw [handleHoldState_next, if_pos rfl, if_pos hlast, hadvance]
      · simpa only [handleHoldState_shouldPublish] using hqueue
      · intro _ hcontra
        exact absurd ⟨rfl, hlast⟩ hcontra
      · intro _
        exact handleHoldState_state_of_ne_ready (by simp [hadvance])
    · have hadvance : D.advance =
          { D with next := ⟨D.next.id + 1, D.next.size, BoundedVec.empty⟩ } :=
        if_pos (lt_of_le_of_ne hle hlast)
      have hstate : D.advance.state = D.state := by rw [hadvance]
      refine ⟨hmoved, ?_, ?_, ?_, ?_⟩
      · rw [handleHoldState_next, if_pos rfl, if_neg hlast, hadvance]
      · simpa only [handleHoldState_shouldPublish] using hqueue
      · intro hready _
        exact handleHoldState_state_of_ready (hstate.trans hready)
      · rintro (hready | ⟨-, hcontra⟩)
        · exact handleHoldState_state_of_ne_ready (hstate ▸ hready)
        · exact absurd hcontra hlast
  · -- An entry of the queue is removed.
    refine ⟨hmoved, ?_, ?_, ?_, ?_⟩
    · rw [handleHoldState_next, if_neg hne]
    · intro k
      rw [handleHoldState_shouldPublish]
      split
      · rename_i hk
        rw [hk, BoundedMap.get_remove_self]
      · rename_i hk
        rw [BoundedMap.get_remove_of_ne _ hk]
    · intro hready _
      exact handleHoldState_state_of_ready hready
    · rintro (hready | ⟨hcontra, -⟩)
      · exact handleHoldState_state_of_ne_ready hready
      · exact absurd hcontra hne

end DomainEntry

/-! ## The call -/

section call

variable {origin : RawOrigin A} {aggregator : User A} {d a : ℕ}

/-- The delivery of the aggregation succeeds, once the fees of its statements are settled. -/
def Delivered (cfg : Config A X T₁ T₂) (aggregator : User A) (d a : ℕ)
    (D : DomainEntry A T₁ T₂ S M) (aggregation : AggregationEntry A S) (x : X) : Prop :=
  cfg.dispatchAggregation d a (aggregation.computeReceipt cfg.merkleRoot)
    D.delivery.data.destination D.delivery.data.fee D.delivery.owner
    (aggregation.statements.toList.foldl (settleStatement cfg aggregator D.delivery.owner) x) =
      .ok ()

/-- The domain `d` has an aggregation with the id `a`, the caller may publish it, and it is
delivered. -/
def Publishable (cfg : Config A X T₁ T₂) (aggregator : User A) (d a : ℕ)
    (s : State A X T₁ T₂ S M) : Prop :=
  ∃ D aggregation, s.domains.lookup d = some D ∧ D.Names a aggregation ∧
    D.MayPublish aggregator aggregation ∧ Delivered cfg aggregator d a D aggregation s.chain

/-- What is publishable is published. -/
theorem aggregate_of_publishable (hrep : Represented s)
    (horigin : User.fromOrigin cfg origin = .ok aggregator)
    (h : Publishable cfg aggregator d a s) :
    ∃ s' info, aggregate cfg origin d a s = .ok (s', info) := by
  obtain ⟨D, aggregation, hlookup, hnames, hmay, hdelivered⟩ := h
  have hwf := hrep.wf d D hlookup
  obtain ⟨taken, D', popped, htake, htaken⟩ := hwf.takeAggregation_returns a
  obtain rfl := (htaken aggregation).mpr hnames
  have hmoved := takeAggregation_moved hwf htake
  have hmoved' := hmoved.trans (handleHoldState_moved D' s.submittersAllowlist)
  have hrules := (canUserAggregateIt_iff (hwf.length_le_of_names hnames)).mpr hmay
  unfold Delivered at hdelivered
  unfold aggregate
  simp only [horigin, hlookup, okOr_some, htake, unwind_ok, hmoved.aggregateRules, hmoved.owner,
    hmoved.delivery, hmoved'.delivery, hrules, ensure_true, ok_bind, hdelivered, raise_ok]
  exact ⟨_, _, rfl⟩

/-- The call does not panic. -/
theorem aggregate_ne_panic (hrep : Represented s)
    (horigin : User.fromOrigin cfg origin = .ok aggregator) (panic : Panic) :
    aggregate cfg origin d a s ≠ .error (.panic panic) := by
  unfold aggregate
  rw [horigin, ok_bind]
  cases hlookup : s.domains.lookup d with
  | none => simp
  | some D =>
      obtain ⟨taken, D', popped, htake, -⟩ :=
        (hrep.wf d D hlookup).takeAggregation_returns a
      rw [okOr_some, ok_bind, htake, unwind_ok, ok_bind]
      cases taken with
      | none => simp
      | some aggregation =>
          dsimp only
          rw [okOr_some, ok_bind]
          cases D'.aggregateRules.canUserAggregateIt aggregator D'.owner D'.delivery.owner
            aggregation with
          | false => simp [Abort.of]
          | true =>
              rw [ensure_true, ok_bind]
              generalize cfg.dispatchAggregation d a _ _ _ _ _ = result
              cases result with
              | error e => simp [raise, Abort.of]
              | ok u => simp [pure, Except.pure]

/-- A call of `aggregate` by a signed account or the manager succeeds exactly if the id names an
aggregation, the rules admit the caller and the delivery succeeds.  A call that fails returns an
error and changes nothing.  A call that succeeds takes this aggregation out of its domain, leaves
all other domains alone and publishes it. -/
theorem aggregate_ok_iff (hs : Reachable cfg kept s)
    (horigin : User.fromOrigin cfg origin = .ok aggregator) (d a : ℕ) :
    ((∃ s' info, aggregate cfg origin d a s = .ok (s', info)) ↔
        Publishable cfg aggregator d a s) ∧
      (∀ e, aggregate cfg origin d a s = .error e →
        (∃ error, e = .error error) ∧
          exec s (.call (.aggregate origin d a) : Step cfg kept) = s) ∧
      (∀ s' info, aggregate cfg origin d a s = .ok (s', info) →
        ∃ D D' aggregation, s.domains.lookup d = some D ∧ D.Names a aggregation ∧
          s'.domains = s.domains.insert d D' ∧ D.Retired D' a s.submittersAllowlist ∧
          s'.published = s.published ++ [(d, aggregation)] ∧
          s'.submittersAllowlist = s.submittersAllowlist ∧
          s'.nextDomainId = s.nextDomainId) := by
  have hrep := hs.represented
  refine ⟨⟨?_, aggregate_of_publishable hrep horigin⟩, ?_, ?_⟩
  · rintro ⟨s', info, hok⟩
    have heffect : Effect cfg s (.aggregate origin d a) s' := effect_of_dispatch hok
    cases heffect with
    | aggregated horigin' hlookup htake hrules hdispatch =>
        rename_i D D' aggregation popped
        rw [horigin] at horigin'
        cases horigin'
        have hwf := hrep.wf d _ hlookup
        have hmoved := takeAggregation_moved hwf htake
        have hmoved' := hmoved.trans (handleHoldState_moved D' s.submittersAllowlist)
        obtain ⟨taken, _, _, htake', htaken⟩ := hwf.takeAggregation_returns a
        rw [htake] at htake'
        cases htake'
        have hnames := (htaken aggregation).mp rfl
        rw [hmoved.aggregateRules, hmoved.owner, hmoved.delivery] at hrules
        rw [hmoved'.delivery, hmoved.delivery] at hdispatch
        exact ⟨D, aggregation, hlookup, hnames,
          (canUserAggregateIt_iff (hwf.length_le_of_names hnames)).mp hrules, hdispatch⟩
  · intro e herror
    constructor
    · cases e with
      | error error => exact ⟨error, rfl⟩
      | panic panic => exact absurd herror (aggregate_ne_panic hrep horigin panic)
    · have hdispatch : dispatch cfg (.aggregate origin d a) s = .error e := herror
      simp only [exec, hdispatch]
  · intro s' info hok
    have heffect : Effect cfg s (.aggregate origin d a) s' := effect_of_dispatch hok
    cases heffect with
    | aggregated _ hlookup htake =>
        have hwf := hrep.wf d _ hlookup
        obtain ⟨taken, _, _, htake', htaken⟩ := hwf.takeAggregation_returns a
        rw [htake] at htake'
        cases htake'
        exact ⟨_, _, _, hlookup, (htaken _).mp rfl, rfl,
          retired_of_takeAggregation _ hwf (hs.idsBounded d _ hlookup) htake, rfl, rfl, rfl⟩

end call

/-- One statement is waiting in the next aggregation of a domain that everybody may use. -/
def sampleWaiting : List (Step sampleConfig ∅) :=
  [.call (.registerDomain .root 2 none .untrusted .untrusted ⟨.none, 10, 4⟩ (some 7)),
    .call (.onProofVerified (some 1) (some 0) (Vector.replicate 32 0))]

theorem aggregate_ok_sample :
    let s : State ℕ (Book ℕ HoldReason) ℕ ℕ 4 2 := run (.genesis sampleBook) sampleWaiting
    Publishable sampleConfig (.account 3) 0 1 s := by
  intro s
  have hok : (aggregate sampleConfig (.signed 3) 0 1 s).isOk = true := by decide
  cases haggregate : aggregate sampleConfig (.signed 3) 0 1 s with
  | error e => simp [haggregate, Except.isOk, Except.toBool] at hok
  | ok result =>
      exact (aggregate_ok_iff (s := s) ⟨sampleBook, sampleWaiting, rfl⟩ rfl 0 1).1.mp
        ⟨result.1, result.2, haggregate⟩

end ZkVerify.Aggregate
