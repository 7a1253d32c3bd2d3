import ZkVerify.Aggregate.Effects

/-!
# How a domain is represented

`DomainEntry.WF` is the invariant of a stored domain: the next aggregation is never
complete, the queue holds complete aggregations under their own ids, and the id of
the next aggregation is larger than all of them.  The exception is a domain whose
ids are used up.  It carries an empty dummy aggregation with id `0`, and it is not
ready.

Under `WF` the methods that move aggregations do not panic and have closed forms:

* `popNextAggregation_eq`: a non-empty next aggregation is replaced by
  `DomainEntry.advance`;
* `takeAggregation_ok`: what is taken is the next aggregation or an entry of the queue;
* `acceptStatement_eq`: a statement that is accepted is appended to the next
  aggregation, which is queued if it is complete.

`represented_run` says that every stored domain satisfies `WF` after every run.
-/

namespace ZkVerify.Aggregate

open Frame

variable {A X T₁ T₂ : Type} {S M : ℕ}

/-! ## Starting the next aggregation -/

theorem AggregationEntry.create_eq {size : ℕ} (id : ℕ) (hsize : size ≤ S) :
    (AggregationEntry.create id size : Except Panic (AggregationEntry A S)) =
      .ok ⟨id, size, BoundedVec.empty⟩ :=
  if_pos hsize

namespace DomainEntry

/-- The domain once its next aggregation was taken: a new one with the next id or, when the ids
are used up, the dummy. -/
def advance (D : DomainEntry A T₁ T₂ S M) : DomainEntry A T₁ T₂ S M :=
  if D.next.id < u64Max then
    { D with next := ⟨D.next.id + 1, D.next.size, BoundedVec.empty⟩ }
  else { D with state := .hold, next := ⟨0, D.next.size, BoundedVec.empty⟩ }

/-- The events of `advance`. -/
def advanceEvents (D : DomainEntry A T₁ T₂ S M) : List Event :=
  if D.next.id < u64Max then [] else [.domainStateChanged D.id .hold]

theorem popNextAggregation_eq {D : DomainEntry A T₁ T₂ S M} (hsize : D.next.size ≤ S)
    (hne : D.next.statements.toList ≠ []) :
    D.popNextAggregation = .ok (some D.next, D.advance, D.advanceEvents) := by
  unfold popNextAggregation advance advanceEvents AggregationEntry.createNext
  rw [if_neg hne]
  by_cases hid : D.next.id < u64Max
  · rw [checkedAdd_eq_some.mpr ⟨hid, rfl⟩]
    simp only [AggregationEntry.create_eq _ hsize, if_pos hid]
    rfl
  · rw [checkedAdd_eq_none.mpr (by omega)]
    simp only [AggregationEntry.create_eq _ hsize, if_neg hid]
    rfl

theorem popNextAggregation_empty {D : DomainEntry A T₁ T₂ S M}
    (hempty : D.next.statements.toList = []) : D.popNextAggregation = .ok (none, D, []) :=
  if_pos hempty

section advance

variable (D : DomainEntry A T₁ T₂ S M)

@[simp] theorem advance_next_statements : D.advance.next.statements.toList = [] := by
  unfold advance
  split <;> rfl

@[simp] theorem advance_shouldPublish : D.advance.shouldPublish = D.shouldPublish := by
  unfold advance
  split <;> rfl

/-- The new id is the next one, or the dummy's on a domain on hold. -/
theorem advance_next_id :
    (D.advance.next.id = D.next.id + 1 ∧ D.advance.state = D.state) ∨
      (D.advance.next.id = 0 ∧ D.advance.state = .hold) := by
  unfold advance
  split
  · exact .inl ⟨rfl, rfl⟩
  · exact .inr ⟨rfl, rfl⟩

theorem advance_state_of_ne_ready (h : D.state ≠ .ready) : D.advance.state ≠ .ready := by
  rcases D.advance_next_id with ⟨-, hstate⟩ | ⟨-, hstate⟩
  · rwa [hstate]
  · simp [hstate]

end advance

/-! ## What the operations leave alone -/

/-- Only the state and the aggregations of the domain may differ. -/
structure Moved (D D' : DomainEntry A T₁ T₂ S M) : Prop where
  id : D'.id = D.id
  owner : D'.owner = D.owner
  maxAggregationSize : D'.maxAggregationSize = D.maxAggregationSize
  publishQueueSize : D'.publishQueueSize = D.publishQueueSize
  ticketDomain : D'.ticketDomain = D.ticketDomain
  ticketAllowlist : D'.ticketAllowlist = D.ticketAllowlist
  aggregateRules : D'.aggregateRules = D.aggregateRules
  proofRules : D'.proofRules = D.proofRules
  delivery : D'.delivery = D.delivery

theorem Moved.refl (D : DomainEntry A T₁ T₂ S M) : Moved D D := by
  constructor <;> rfl

theorem Moved.trans {D D' D'' : DomainEntry A T₁ T₂ S M} (h : Moved D D') (h' : Moved D' D'') :
    Moved D D'' := by
  constructor
  exacts [h'.id.trans h.id, h'.owner.trans h.owner,
    h'.maxAggregationSize.trans h.maxAggregationSize, h'.publishQueueSize.trans h.publishQueueSize,
    h'.ticketDomain.trans h.ticketDomain, h'.ticketAllowlist.trans h.ticketAllowlist,
    h'.aggregateRules.trans h.aggregateRules, h'.proofRules.trans h.proofRules,
    h'.delivery.trans h.delivery]

theorem advance_moved (D : DomainEntry A T₁ T₂ S M) : Moved D D.advance := by
  unfold advance
  split <;> constructor <;> rfl

/-! ## Registering and paying for rows -/

/-- A change of the count either finds no ticket or replaces it. -/
theorem changeFootprintCount_ok {cfg : Config A X T₁ T₂} {recount : ℕ → Option ℕ}
    {D D' : DomainEntry A T₁ T₂ S M} {x x' : X}
    (h : D.changeFootprintCount cfg recount x = .ok (D', x')) :
    (D' = D ∧ x' = x ∧ (D.owner = .manager ∨ D.ticketAllowlist = none)) ∨
      ∃ owner ticket count ticket' count', D.owner = .account owner ∧
        D.ticketAllowlist = some ⟨ticket, count⟩ ∧ recount count = some count' ∧
        cfg.considerationAllowList.update ticket owner ⟨count', 0⟩ x = .ok (ticket', x') ∧
        D' = { D with ticketAllowlist := some ⟨ticket', count'⟩ } := by
  unfold changeFootprintCount at h
  split at h
  · rename_i howner
    cases h
    refine .inl ⟨rfl, rfl, .inl ?_⟩
    cases hD : D.owner with
    | manager => rfl
    | account a => simp [hD, User.account?] at howner
  · rename_i hticket
    cases h
    exact .inl ⟨rfl, rfl, .inr hticket⟩
  · rename_i owner ticket count howner hticket
    obtain ⟨count', hrecount, h⟩ := seq_eq_ok.mp h
    obtain ⟨⟨ticket', x₁⟩, hupdate, h⟩ := seq_eq_ok.mp h
    cases h
    refine .inr ⟨owner, ticket, count, ticket', count', ?_, hticket, okOr_eq_ok.mp hrecount,
      hupdate, rfl⟩
    cases hD : D.owner with
    | manager => simp [hD, User.account?] at howner
    | account a => simpa [hD, User.account?] using howner

/-- A change of the count touches nothing but the ticket. -/
theorem changeFootprintCount_frame {cfg : Config A X T₁ T₂} {recount : ℕ → Option ℕ}
    {D D' : DomainEntry A T₁ T₂ S M} {x x' : X}
    (h : D.changeFootprintCount cfg recount x = .ok (D', x')) :
    D' = { D with ticketAllowlist := D'.ticketAllowlist } := by
  rcases changeFootprintCount_ok h with ⟨rfl, -, -⟩ | ⟨_, _, _, _, _, -, -, -, -, rfl⟩ <;> rfl

/-- The domain that `try_create` makes. -/
theorem tryCreate_ok {id : ℕ} {owner : User A}
    {nextAggregationId maxAggregationSize publishQueueSize : ℕ}
    {aggregateRules : AggregateSecurityRules} {proofRules : ProofSecurityRules}
    {ticketDomain : Option T₁} {ticketAllowlist : Option (CountableTicket T₂)}
    {delivery : DeliveryParams A} {D : DomainEntry A T₁ T₂ S M}
    (h : tryCreate id owner nextAggregationId maxAggregationSize publishQueueSize aggregateRules
      proofRules ticketDomain ticketAllowlist delivery = .ok D) :
    (0 < maxAggregationSize ∧ maxAggregationSize ≤ S ∧ publishQueueSize ≤ M) ∧
      D = { id, owner, state := .ready,
            next := ⟨nextAggregationId, maxAggregationSize, BoundedVec.empty⟩, maxAggregationSize,
            shouldPublish := BoundedMap.empty, publishQueueSize, ticketDomain, ticketAllowlist,
            aggregateRules, proofRules, delivery } := by
  unfold tryCreate at h
  split at h
  · cases h
  · rename_i hbounds
    have hsize : maxAggregationSize ≤ S := by omega
    rw [unwind_eq_ok, create, if_neg (by omega), if_neg (by omega),
      AggregationEntry.create_eq _ hsize] at h
    cases h
    exact ⟨by omega, rfl⟩

/-! ## The invariant -/

/-- The representation invariant of a domain. -/
structure WF (D : DomainEntry A T₁ T₂ S M) : Prop where
  size_pos : 0 < D.maxAggregationSize
  size_le : D.maxAggregationSize ≤ S
  next_size : D.next.size = D.maxAggregationSize
  next_length : D.next.statements.toList.length < D.maxAggregationSize
  queue_le : D.publishQueueSize ≤ M
  queue_length : D.shouldPublish.length ≤ D.publishQueueSize
  queued : ∀ k aggregation, D.shouldPublish.get k = some aggregation →
    aggregation.id = k ∧ 0 < k ∧ aggregation.size = D.maxAggregationSize ∧
      aggregation.statements.toList.length = D.maxAggregationSize
  ids : (0 < D.next.id ∧ ∀ k aggregation, D.shouldPublish.get k = some aggregation →
      k < D.next.id) ∨
    (D.next.id = 0 ∧ D.next.statements.toList = [] ∧ D.state ≠ .ready)

namespace WF

variable {D : DomainEntry A T₁ T₂ S M}

theorem next_size_le (h : D.WF) : D.next.size ≤ S := h.next_size ▸ h.size_le

/-- A domain with statements in the next aggregation has not used up its ids. -/
theorem next_id_pos (h : D.WF) (hne : D.next.statements.toList ≠ []) : 0 < D.next.id :=
  h.ids.elim (fun hids => hids.1) fun hdummy => absurd hdummy.2.1 hne

theorem next_id_pos_of_ready (h : D.WF) (hready : D.state = .ready) : 0 < D.next.id :=
  h.ids.elim (fun hids => hids.1) fun hdummy => absurd hready hdummy.2.2

/-- The next aggregation is not in the queue. -/
theorem get_next_id (h : D.WF) : D.shouldPublish.get D.next.id = none := by
  cases hget : D.shouldPublish.get D.next.id with
  | none => rfl
  | some aggregation =>
      rcases h.ids with ⟨-, hlt⟩ | ⟨hzero, -⟩
      · exact absurd (hlt _ _ hget) (lt_irrefl _)
      · have := (h.queued _ _ hget).2.1
        omega

/-- The state may change as long as it does not become ready again. -/
theorem withState (h : D.WF) {state : DomainState}
    (hstate : D.state ≠ .ready → state ≠ .ready) : WF { D with state := state } :=
  { h with ids := h.ids.imp_right fun ⟨hid, hempty, hready⟩ => ⟨hid, hempty, hstate hready⟩ }

/-- The fields that the invariant does not mention may change. -/
theorem withDelivery (h : D.WF) (delivery : DeliveryParams A) :
    WF { D with delivery := delivery } := { h with }

theorem withTicketAllowlist (h : D.WF) (ticket : Option (CountableTicket T₂)) :
    WF { D with ticketAllowlist := ticket } := { h with }

/-- Taking an entry out of the queue keeps the invariant. -/
theorem remove (h : D.WF) (id : ℕ) : WF { D with shouldPublish := D.shouldPublish.remove id } where
  size_pos := h.size_pos
  size_le := h.size_le
  next_size := h.next_size
  next_length := h.next_length
  queue_le := h.queue_le
  queue_length := by
    refine le_trans ?_ h.queue_length
    simp only [BoundedMap.length, BoundedMap.toFinmap_remove, Finmap.keys_erase]
    exact Finset.card_erase_le
  queued := Finmap.forall_lookup_erase fun k aggregation _ => h.queued k aggregation
  ids := h.ids.imp_left fun ⟨hpos, hlt⟩ =>
    ⟨hpos, Finmap.forall_lookup_erase fun k aggregation _ => hlt k aggregation⟩

/-- Starting the next aggregation keeps the invariant. -/
theorem advance (h : D.WF) (hne : D.next.statements.toList ≠ []) : D.advance.WF := by
  have hpos := h.next_id_pos hne
  have hlt : ∀ k aggregation, D.shouldPublish.get k = some aggregation → k < D.next.id :=
    (h.ids.resolve_right fun hdummy => hne hdummy.2.1).2
  unfold DomainEntry.advance
  split
  · have hbelow : ∀ k aggregation, D.shouldPublish.get k = some aggregation →
        k < D.next.id + 1 := by
      intro k aggregation hget
      have := hlt k aggregation hget
      omega
    exact { h with next_length := h.size_pos, ids := .inl ⟨Nat.succ_pos _, hbelow⟩ }
  · -- The ids are used up: the dummy comes with the hold state.
    exact { h with next_length := h.size_pos, ids := .inr ⟨rfl, rfl, by simp⟩ }

end WF

/-! ## Taking an aggregation -/

/-- Under the invariant, what is taken is the next aggregation or an entry of the queue. -/
theorem takeAggregation_ok {D D' : DomainEntry A T₁ T₂ S M} {id : ℕ}
    {aggregation : AggregationEntry A S} {popped : List Event} (hwf : D.WF)
    (h : D.takeAggregation id = .ok (some aggregation, D', popped)) :
    (D.next.id = id ∧ D.next.statements.toList ≠ [] ∧ aggregation = D.next ∧ D' = D.advance ∧
        popped = D.advanceEvents) ∨
      (D.next.id ≠ id ∧ D.shouldPublish.get id = some aggregation ∧
        D' = { D with shouldPublish := D.shouldPublish.remove id } ∧ popped = []) := by
  unfold takeAggregation at h
  split at h
  · rename_i hid
    by_cases hempty : D.next.statements.toList = []
    · rw [popNextAggregation_empty hempty] at h
      cases h
    · rw [popNextAggregation_eq hwf.next_size_le hempty] at h
      cases h
      exact .inl ⟨hid, hempty, rfl, rfl, rfl⟩
  · rename_i hid
    obtain ⟨hget, rfl, rfl⟩ : D.shouldPublish.get id = some aggregation ∧
        { D with shouldPublish := D.shouldPublish.remove id } = D' ∧ [] = popped := by
      simpa only [Except.ok.injEq, Prod.mk.injEq] using h
    exact .inr ⟨hid, hget, rfl, rfl⟩

/-- Taking an aggregation keeps the invariant. -/
theorem WF.takeAggregation {D D' : DomainEntry A T₁ T₂ S M} {id : ℕ}
    {aggregation : AggregationEntry A S} {popped : List Event} (hwf : D.WF)
    (h : D.takeAggregation id = .ok (some aggregation, D', popped)) : D'.WF := by
  rcases takeAggregation_ok hwf h with ⟨-, hne, -, rfl, -⟩ | ⟨-, -, rfl, -⟩
  · exact hwf.advance hne
  · exact hwf.remove id

theorem takeAggregation_moved {D D' : DomainEntry A T₁ T₂ S M} {id : ℕ}
    {aggregation : AggregationEntry A S} {popped : List Event} (hwf : D.WF)
    (h : D.takeAggregation id = .ok (some aggregation, D', popped)) : Moved D D' := by
  rcases takeAggregation_ok hwf h with ⟨-, -, -, rfl, -⟩ | ⟨-, -, rfl, -⟩
  · exact D.advance_moved
  · constructor <;> rfl

/-! ## The hold state -/

section holdState

variable [DecidableEq A] (D : DomainEntry A T₁ T₂ S M) (rows : Finset (ℕ × A))

theorem handleHoldState_fst : (D.handleHoldState rows).1 =
    if D.state = .ready then D else D.updateHoldState rows := by
  unfold handleHoldState
  split
  · rfl
  · dsimp only
    split <;> rfl

/-- What `handle_hold_state` leaves alone. -/
theorem handleHoldState_frame : (D.handleHoldState rows).1 =
    { D with state := (D.handleHoldState rows).1.state } := by
  rw [handleHoldState_fst]
  split <;> rfl

theorem handleHoldState_moved : Moved D (D.handleHoldState rows).1 := by
  rw [handleHoldState_frame]
  constructor <;> rfl

theorem updateHoldState_state_ne_ready : (D.updateHoldState rows).state ≠ .ready := by
  unfold updateHoldState
  dsimp only
  split <;> simp

theorem handleHoldState_state_ne_ready (h : D.state ≠ .ready) :
    (D.handleHoldState rows).1.state ≠ .ready := by
  rw [handleHoldState_fst, if_neg h]
  exact D.updateHoldState_state_ne_ready rows

/-- A domain with queued aggregations that is not ready is on hold. -/
theorem updateHoldState_of_queue (h : D.shouldPublish.length ≠ 0) :
    D.updateHoldState rows = { D with state := .hold } := by
  unfold updateHoldState
  rw [if_neg fun hcond => h hcond.1]

/-- A domain that is ready, or on hold with a non-empty queue, is not changed. -/
theorem handleHoldState_of_queue (hstate : D.state = .ready ∨ D.state = .hold)
    (hqueue : D.shouldPublish.length ≠ 0) : D.handleHoldState rows = (D, []) := by
  unfold handleHoldState
  rcases hstate with hstate | hstate
  · rw [if_pos hstate]
  · rw [if_neg (by simp [hstate]), D.updateHoldState_of_queue rows hqueue]
    dsimp only
    rw [if_pos hstate, ← hstate]

variable {D}

theorem WF.updateHoldState (h : D.WF) : (D.updateHoldState rows).WF :=
  h.withState fun _ => D.updateHoldState_state_ne_ready rows

theorem WF.handleHoldState (h : D.WF) : (D.handleHoldState rows).1.WF := by
  rw [handleHoldState_fst]
  split
  · exact h
  · exact h.updateHoldState rows

end holdState

/-! ## Accepting a statement -/

/-- The domain whose next aggregation became `next` and went to the queue, which is then `queue`. -/
def enqueue (D : DomainEntry A T₁ T₂ S M) (next : AggregationEntry A S)
    (queue : BoundedMap ℕ (AggregationEntry A S) M) : DomainEntry A T₁ T₂ S M :=
  { ({ D with next := next } : DomainEntry A T₁ T₂ S M).advance with shouldPublish := queue }

/-- The events of `enqueue`. -/
def enqueueEvents (D : DomainEntry A T₁ T₂ S M) (next : AggregationEntry A S)
    (queue : BoundedMap ℕ (AggregationEntry A S) M) : List Event :=
  advanceEvents { D with next := next } ++ .aggregationComplete D.id next.id ::
    if D.publishQueueSize ≤ queue.length then [.domainFull D.id] else []

theorem enqueue_state (D : DomainEntry A T₁ T₂ S M) (next : AggregationEntry A S)
    (queue : BoundedMap ℕ (AggregationEntry A S) M) :
    (D.enqueue next queue).state = D.state ∨ (D.enqueue next queue).state = .hold :=
  (advance_next_id { D with next := next }).imp And.right And.right

/-- There is room in the queue when the statement to come completes the next aggregation. -/
theorem WF.queue_has_room {D : DomainEntry A T₁ T₂ S M} (hwf : D.WF)
    (hroom : D.canAddStatement = true)
    (hlast : D.maxAggregationSize ≤ D.next.statements.toList.length + 1) :
    D.shouldPublish.length < D.publishQueueSize := by
  have hsize := hwf.next_size
  simp only [canAddStatement, Bool.or_eq_true, decide_eq_true_eq] at hroom
  unfold AggregationEntry.spaceLeft at hroom
  omega

/-- Queueing a complete next aggregation keeps the invariant. -/
theorem WF.enqueue {D : DomainEntry A T₁ T₂ S M} {next : AggregationEntry A S}
    {queue : BoundedMap ℕ (AggregationEntry A S) M} (hwf : D.WF) (hready : D.state = .ready)
    (hroom : D.shouldPublish.length < D.publishQueueSize) (hid : next.id = D.next.id)
    (hsize : next.size = D.maxAggregationSize)
    (hlength : next.statements.toList.length = D.maxAggregationSize)
    (hqueue : queue.toFinmap = D.shouldPublish.toFinmap.insert D.next.id next) :
    (D.enqueue next queue).WF := by
  have hpos := hwf.next_id_pos_of_ready hready
  have hlt : ∀ k aggregation, D.shouldPublish.get k = some aggregation → k < D.next.id :=
    (hwf.ids.resolve_right fun hdummy => hdummy.2.2 hready).2
  have hcard : queue.length ≤ D.publishQueueSize := by
    rw [BoundedMap.length, hqueue, Finmap.keys_insert]
    exact (Finset.card_insert_le _ _).trans hroom
  have hqueued : ∀ k aggregation, queue.get k = some aggregation →
      aggregation.id = k ∧ 0 < k ∧ aggregation.size = D.maxAggregationSize ∧
        aggregation.statements.toList.length = D.maxAggregationSize := by
    unfold BoundedMap.get
    rw [hqueue]
    exact Finmap.forall_lookup_insert ⟨hid, hpos, hsize, hlength⟩
      fun k aggregation _ => hwf.queued k aggregation
  have hbelow : ∀ k aggregation, queue.get k = some aggregation → k < D.next.id + 1 := by
    unfold BoundedMap.get
    rw [hqueue]
    refine Finmap.forall_lookup_insert (Nat.lt_succ_self _) fun k aggregation _ hget => ?_
    have := hlt k aggregation hget
    omega
  unfold DomainEntry.enqueue DomainEntry.advance
  split
  · exact { hwf with
      next_size := hsize
      next_length := hwf.size_pos
      queue_length := hcard
      queued := hqueued
      ids := .inl ⟨Nat.succ_pos _, hid ▸ hbelow⟩ }
  · exact { hwf with
      next_size := hsize
      next_length := hwf.size_pos
      queue_length := hcard
      queued := hqueued
      ids := .inr ⟨rfl, rfl, by simp⟩ }

/-- A statement is appended to the next aggregation, which is popped when it is complete then. -/
theorem appendStatement_eq {D : DomainEntry A T₁ T₂ S M} (hwf : D.WF) (account : A)
    (reserve : Reserve) (statement : H256) :
    ∃ next : AggregationEntry A S, next.id = D.next.id ∧ next.size = D.maxAggregationSize ∧
      next.statements.toList = D.next.statements.toList ++ [⟨account, reserve, statement⟩] ∧
      D.appendStatement account reserve statement =
        if D.maxAggregationSize ≤ next.statements.toList.length then
          .ok (some next, advance { D with next := next }, advanceEvents { D with next := next })
        else .ok (none, { D with next := next }, []) := by
  have hroom : D.next.statements.toList.length < S := hwf.next_length.trans_le hwf.size_le
  obtain ⟨statements, hpush, hlist⟩ := BoundedVec.tryPush_of_lt
    (⟨account, reserve, statement⟩ : StatementEntry A) hroom
  set next : AggregationEntry A S := ⟨D.next.id, D.next.size, statements⟩
  set appended : DomainEntry A T₁ T₂ S M := { D with next := next }
  have happend : D.appendStatement account reserve statement =
      if appended.isNextAggregationComplete then appended.popNextAggregation
      else .ok (none, appended, []) := by
    simp only [appendStatement, hpush, okOr_some, ok_bind]
    rfl
  have hcomplete : appended.isNextAggregationComplete = true ↔
      D.maxAggregationSize ≤ next.statements.toList.length := by
    rw [← hwf.next_size]
    exact decide_eq_true_iff
  have hpop : appended.popNextAggregation =
      .ok (some next, appended.advance, appended.advanceEvents) :=
    popNextAggregation_eq hwf.next_size_le (by simp [appended, next, hlist])
  refine ⟨next, rfl, hwf.next_size, hlist, ?_⟩
  simp only [happend, hcomplete, hpop]
  rfl

variable [DecidableEq A]

private theorem acceptStatement_of_none {D D₁ : DomainEntry A T₁ T₂ S M} {rows : Finset (ℕ × A)}
    {account : A} {reserve : Reserve} {statement : H256}
    (happend : D.appendStatement account reserve statement = .ok (none, D₁, []))
    (hkeep : D₁.handleHoldState rows = (D₁, [])) :
    D.acceptStatement rows account reserve statement = .ok (D₁, []) := by
  unfold acceptStatement
  simp only [happend, ok_bind, hkeep]
  rfl

private theorem acceptStatement_of_some {D D₁ : DomainEntry A T₁ T₂ S M} {rows : Finset (ℕ × A)}
    {account : A} {reserve : Reserve} {statement : H256} {aggregation : AggregationEntry A S}
    {popped : List Event} {queue : BoundedMap ℕ (AggregationEntry A S) M}
    (happend : D.appendStatement account reserve statement = .ok (some aggregation, D₁, popped))
    (hinsert : D₁.shouldPublish.tryInsert aggregation.id aggregation = some queue)
    (hkeep : handleHoldState { D₁ with shouldPublish := queue } rows =
      ({ D₁ with shouldPublish := queue }, [])) :
    D.acceptStatement rows account reserve statement =
      .ok ({ D₁ with shouldPublish := queue },
        popped ++ .aggregationComplete D₁.id aggregation.id ::
          if D₁.publishQueueSize ≤ queue.length then [.domainFull D₁.id] else []) := by
  have havailable : D₁.availableAggregation aggregation = .ok ({ D₁ with shouldPublish := queue },
      .aggregationComplete D₁.id aggregation.id ::
        if D₁.publishQueueSize ≤ queue.length then [.domainFull D₁.id] else []) := by
    simp only [availableAggregation, hinsert, okOr_some, ok_bind]
    rfl
  unfold acceptStatement
  simp only [happend, ok_bind, havailable, hkeep, List.append_nil]
  rfl

/-- A statement for a ready domain with room is appended to the next aggregation, which is queued
if it is complete.  In particular nothing panics. -/
theorem acceptStatement_eq {D : DomainEntry A T₁ T₂ S M} (hwf : D.WF) (hready : D.state = .ready)
    (hroom : D.canAddStatement = true) (rows : Finset (ℕ × A)) (account : A) (reserve : Reserve)
    (statement : H256) :
    ∃ next : AggregationEntry A S, next.id = D.next.id ∧ next.size = D.maxAggregationSize ∧
      next.statements.toList = D.next.statements.toList ++ [⟨account, reserve, statement⟩] ∧
      ((next.statements.toList.length < D.maxAggregationSize ∧
          D.acceptStatement rows account reserve statement = .ok ({ D with next := next }, [])) ∨
        (next.statements.toList.length = D.maxAggregationSize ∧
          ∃ queue : BoundedMap ℕ (AggregationEntry A S) M,
            queue.toFinmap = D.shouldPublish.toFinmap.insert D.next.id next ∧
            D.acceptStatement rows account reserve statement =
              .ok (D.enqueue next queue, D.enqueueEvents next queue))) := by
  obtain ⟨next, hid, hsize, hlist, happend⟩ :=
    appendStatement_eq hwf account reserve statement
  have hlength := hwf.next_length
  have hcount : next.statements.toList.length = D.next.statements.toList.length + 1 := by
    simp [hlist]
  refine ⟨next, hid, hsize, hlist, ?_⟩
  by_cases hlast : next.statements.toList.length < D.maxAggregationSize
  · rw [if_neg (by omega)] at happend
    exact .inl ⟨hlast, acceptStatement_of_none happend (if_pos hready)⟩
  · -- The statement completes the aggregation, and the queue has room for it.
    rw [if_pos (by omega)] at happend
    have hspace : D.shouldPublish.length < M :=
      (hwf.queue_has_room hroom (by omega)).trans_le hwf.queue_le
    obtain ⟨queue, hinsert, hqueue⟩ := BoundedMap.tryInsert_of_lt D.next.id next hspace
    have hstate : (D.enqueue next queue).state = .ready ∨ (D.enqueue next queue).state = .hold :=
      (D.enqueue_state next queue).imp_left fun h => h.trans hready
    have hfilled : (D.enqueue next queue).shouldPublish.length ≠ 0 := by
      show queue.length ≠ 0
      rw [BoundedMap.length, hqueue, Finmap.keys_insert]
      simp
    set popped : DomainEntry A T₁ T₂ S M := advance { D with next := next }
    have hmoved : Moved { D with next := next } popped := advance_moved _
    have hinsert' : popped.shouldPublish.tryInsert next.id next = some queue := by
      rw [hid]
      simpa only [popped, advance_shouldPublish] using hinsert
    have haccept : D.acceptStatement rows account reserve statement =
        .ok (D.enqueue next queue, advanceEvents { D with next := next } ++
          .aggregationComplete popped.id next.id ::
            if popped.publishQueueSize ≤ queue.length then [.domainFull popped.id] else []) :=
      acceptStatement_of_some happend hinsert' (handleHoldState_of_queue _ rows hstate hfilled)
    rw [hmoved.id, hmoved.publishQueueSize] at haccept
    exact .inr ⟨by omega, queue, hqueue, haccept⟩

/-- `acceptStatement_eq`, read as what a successful call did. -/
theorem acceptStatement_ok {D D' : DomainEntry A T₁ T₂ S M} {rows : Finset (ℕ × A)} {account : A}
    {reserve : Reserve} {statement : H256} {events : List Event} (hwf : D.WF)
    (hready : D.state = .ready) (hroom : D.canAddStatement = true)
    (h : D.acceptStatement rows account reserve statement = .ok (D', events)) :
    ∃ next : AggregationEntry A S, next.id = D.next.id ∧ next.size = D.maxAggregationSize ∧
      next.statements.toList = D.next.statements.toList ++ [⟨account, reserve, statement⟩] ∧
      ((next.statements.toList.length < D.maxAggregationSize ∧ D' = { D with next := next } ∧
          events = []) ∨
        (next.statements.toList.length = D.maxAggregationSize ∧
          ∃ queue : BoundedMap ℕ (AggregationEntry A S) M,
            queue.toFinmap = D.shouldPublish.toFinmap.insert D.next.id next ∧
            D' = D.enqueue next queue ∧ events = D.enqueueEvents next queue)) := by
  obtain ⟨next, hid, hsize, hlist, ⟨hlength, heq⟩ | ⟨hlength, queue, hqueue, heq⟩⟩ :=
    acceptStatement_eq hwf hready hroom rows account reserve statement
  · rw [h] at heq
    cases heq
    exact ⟨next, hid, hsize, hlist, .inl ⟨hlength, rfl, rfl⟩⟩
  · rw [h] at heq
    cases heq
    exact ⟨next, hid, hsize, hlist, .inr ⟨hlength, queue, hqueue, rfl, rfl⟩⟩

/-- Accepting a statement keeps the invariant. -/
theorem WF.acceptStatement {D D' : DomainEntry A T₁ T₂ S M} {rows : Finset (ℕ × A)} {account : A}
    {reserve : Reserve} {statement : H256} {events : List Event} (hwf : D.WF)
    (hready : D.state = .ready) (hroom : D.canAddStatement = true)
    (h : D.acceptStatement rows account reserve statement = .ok (D', events)) : D'.WF := by
  obtain ⟨next, hid, hsize, hlist, ⟨hlength, rfl, -⟩ | ⟨hlength, queue, hqueue, rfl, -⟩⟩ :=
    acceptStatement_ok hwf hready hroom h
  · have hids : 0 < next.id ∧ ∀ k aggregation, D.shouldPublish.get k = some aggregation →
        k < next.id := by
      rw [hid]
      exact hwf.ids.resolve_right fun hdummy => hdummy.2.2 hready
    exact { hwf with next_size := hsize, next_length := hlength, ids := .inl hids }
  · have hcount : next.statements.toList.length = D.next.statements.toList.length + 1 := by
      simp [hlist]
    exact hwf.enqueue hready (hwf.queue_has_room hroom (by omega)) hid hsize hlength hqueue

theorem acceptStatement_moved {D D' : DomainEntry A T₁ T₂ S M} {rows : Finset (ℕ × A)}
    {account : A} {reserve : Reserve} {statement : H256} {events : List Event} (hwf : D.WF)
    (hready : D.state = .ready) (hroom : D.canAddStatement = true)
    (h : D.acceptStatement rows account reserve statement = .ok (D', events)) : Moved D D' := by
  obtain ⟨next, -, -, -, ⟨-, rfl, -⟩ | ⟨-, queue, -, rfl, -⟩⟩ :=
    acceptStatement_ok hwf hready hroom h
  · constructor <;> rfl
  · have hadvance := advance_moved { D with next := next }
    exact ⟨hadvance.id, hadvance.owner, hadvance.maxAggregationSize, hadvance.publishQueueSize,
      hadvance.ticketDomain, hadvance.ticketAllowlist, hadvance.aggregateRules,
      hadvance.proofRules, hadvance.delivery⟩

end DomainEntry

/-! ## The invariant of the storage -/

/-- Every stored domain is stored under its id, which is below the next one, and satisfies its
invariant. -/
structure Represented (s : State A X T₁ T₂ S M) : Prop where
  id_eq : ∀ d D, s.domains.lookup d = some D → D.id = d
  id_lt : ∀ d D, s.domains.lookup d = some D → d < s.nextDomainId
  wf : ∀ d D, s.domains.lookup d = some D → D.WF

namespace Represented

open DomainEntry

variable {s s' : State A X T₁ T₂ S M} {d : ℕ} {D D' : DomainEntry A T₁ T₂ S M}

theorem genesis (x : X) : Represented (.genesis x : State A X T₁ T₂ S M) := by
  constructor <;> intro d D hlookup <;> simp [State.genesis] at hlookup

/-- The other fields of the storage may change. -/
theorem of_domains_eq (h : Represented s) (hdomains : s'.domains = s.domains)
    (hnext : s'.nextDomainId = s.nextDomainId) : Represented s' :=
  ⟨hdomains ▸ h.id_eq, hdomains ▸ hnext ▸ h.id_lt, hdomains ▸ h.wf⟩

theorem insert (h : Represented s) (hdomains : s'.domains = s.domains.insert d D)
    (hnext : s.nextDomainId ≤ s'.nextDomainId) (hid : D.id = d) (hlt : d < s'.nextDomainId)
    (hwf : D.WF) : Represented s' := by
  constructor <;> rw [hdomains]
  · exact Finmap.forall_lookup_insert hid fun d' D' _ => h.id_eq d' D'
  · exact Finmap.forall_lookup_insert hlt fun d' D' _ hlookup =>
      (h.id_lt d' D' hlookup).trans_le hnext
  · exact Finmap.forall_lookup_insert hwf fun d' D' _ => h.wf d' D'

/-- A stored domain may be replaced by one with the same id. -/
theorem replace (h : Represented s) (hlookup : s.domains.lookup d = some D)
    (hdomains : s'.domains = s.domains.insert d D') (hnext : s'.nextDomainId = s.nextDomainId)
    (hid : D'.id = D.id) (hwf : D'.WF) : Represented s' :=
  h.insert hdomains hnext.ge (hid.trans (h.id_eq d D hlookup))
    ((h.id_lt d D hlookup).trans_eq hnext.symm) hwf

theorem erase (h : Represented s) (hdomains : s'.domains = s.domains.erase d)
    (hnext : s'.nextDomainId = s.nextDomainId) : Represented s' := by
  constructor <;> rw [hdomains]
  · exact Finmap.forall_lookup_erase fun d' D' _ => h.id_eq d' D'
  · rw [hnext]
    exact Finmap.forall_lookup_erase fun d' D' _ => h.id_lt d' D'
  · exact Finmap.forall_lookup_erase fun d' D' _ => h.wf d' D'

variable [DecidableEq A]

/-- Every successful call keeps the invariant. -/
theorem effect {cfg : Config A X T₁ T₂} {c : Call A} (h : Represented s)
    (heffect : Effect cfg s c s') : Represented s' := by
  cases heffect with
  | skipped | initialized => exact h.of_domains_eq rfl rfl
  | accepted hlookup hready hroom _ _ haccept =>
      have hwf := h.wf _ _ hlookup
      exact h.replace hlookup rfl rfl (acceptStatement_moved hwf hready hroom haccept).id
        (hwf.acceptStatement hready hroom haccept)
  | aggregated _ hlookup htake =>
      have hwf := h.wf _ _ hlookup
      exact h.replace hlookup rfl rfl
        ((takeAggregation_moved hwf htake).trans (handleHoldState_moved _ _)).id
        ((hwf.takeAggregation htake).handleHoldState _)
  | registered _ _ _ _ _ hcreate =>
      obtain ⟨⟨hpos, hsize, hqueue⟩, rfl⟩ := tryCreate_ok hcreate
      refine h.insert rfl (Nat.le_succ _) rfl (Nat.lt_succ_self _) ?_
      exact ⟨hpos, hsize, rfl, hpos, hqueue, Nat.zero_le _, by simp, .inl ⟨Nat.one_pos, by simp⟩⟩
  | held _ hlookup => exact h.replace hlookup rfl rfl rfl ((h.wf _ _ hlookup).updateHoldState _)
  | unregistered => exact h.erase rfl rfl
  | feeSet _ hlookup => exact h.replace hlookup rfl rfl rfl ((h.wf _ _ hlookup).withDelivery _)
  | allowlisted _ hlookup _ _ _ hcount =>
      have hframe := changeFootprintCount_frame hcount
      refine h.replace hlookup rfl rfl (by rw [hframe]) ?_
      rw [hframe]
      exact (h.wf _ _ hlookup).withTicketAllowlist _
  | submittersRemoved _ hlookup _ _ _ hcount =>
      have hframe := changeFootprintCount_frame hcount
      refine h.replace hlookup rfl rfl ((handleHoldState_moved _ _).id.trans (by rw [hframe])) ?_
      rw [hframe]
      exact ((h.wf _ _ hlookup).withTicketAllowlist _).handleHoldState _

end Represented

/-- After every run, every stored domain satisfies its invariant. -/
theorem represented_run [DecidableEq A] {cfg : Config A X T₁ T₂} {kept : Set HoldReason}
    {s : State A X T₁ T₂ S M} (h : Represented s) (steps : List (Step cfg kept)) :
    Represented (run s steps) := by
  apply run_induction h
  · intro s c s' info _ h hok
    exact h.effect (effect_of_dispatch hok)
  · intro s e h
    exact h.of_domains_eq rfl rfl

/-- What every effect on a represented storage keeps holds after every run. -/
theorem effect_induction [DecidableEq A] {cfg : Config A X T₁ T₂} {kept : Set HoldReason}
    {P : State A X T₁ T₂ S M → Prop} {s : State A X T₁ T₂ S M} {steps : List (Step cfg kept)}
    (hrep : Represented s) (hinit : P s)
    (heffect : ∀ s c s', .call c ∈ steps → Represented s → P s → Effect cfg s c s' → P s')
    (henv : ∀ s (e : Environment cfg kept), P s → P { s with chain := e.act s.chain }) :
    P (run s steps) := by
  have hboth : Represented (run s steps) ∧ P (run s steps) := by
    apply run_induction (P := fun s => Represented s ∧ P s) ⟨hrep, hinit⟩
    · rintro s c s' info hmem ⟨hrep, h⟩ hok
      exact ⟨hrep.effect (effect_of_dispatch hok),
        heffect s c s' hmem hrep h (effect_of_dispatch hok)⟩
    · rintro s e ⟨hrep, h⟩
      exact ⟨hrep.of_domains_eq rfl rfl, henv s e h⟩
  exact hboth.2

theorem Reachable.represented [DecidableEq A] {cfg : Config A X T₁ T₂} {kept : Set HoldReason}
    {s : State A X T₁ T₂ S M} (h : Reachable cfg kept s) : Represented s := by
  obtain ⟨x, steps, rfl⟩ := h
  exact represented_run (Represented.genesis x) steps

end ZkVerify.Aggregate
