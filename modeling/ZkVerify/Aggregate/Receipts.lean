import ZkVerify.Aggregate.History

/-!
# What a receipt commits to

A receipt is announced together with the publication of an aggregation, and the statements
of the aggregation were announced one by one before.  `receipt_of_run` puts the two
together over a whole run, from the events alone: every receipt is the Merkle root of the
statements announced for its ids, and there is at least one.  Conversely `receipt_or_pending`
says where the statements announced for a pair of ids are.
-/

namespace ZkVerify.Aggregate

open Frame Frame.BatchLog DomainEntry

variable {A X T₁ T₂ : Type} {S M : ℕ} [DecidableEq A] {cfg : Config A X T₁ T₂}
  {kept : Set HoldReason} {s s' : State A X T₁ T₂ S M} {c : Call A}

/-- Events that are quiet announce no receipt. -/
private theorem not_receipt_of_quiet {events : List Event} (h : ∀ e ∈ events, e.quiet = true)
    {d a : ℕ} {receipt : H256} : .newAggregationReceipt d a receipt ∉ events := by
  intro hmem
  cases h _ hmem

omit [DecidableEq A] in
theorem newlyPublished_eq {d : ℕ} {aggregation : AggregationEntry A S}
    (h : s'.published = s.published ++ [(d, aggregation)]) :
    newlyPublished s s' = aggregation.hashes := by
  simp [newlyPublished, h]

/-- A call that announces a receipt publishes an aggregation, with at least one statement, and the
receipt is the root of its statements. -/
theorem effect_receipt (hrep : Represented s) (heffect : Effect cfg s c s') {events : List Event}
    (hevents : s'.events = s.events ++ events) {d a : ℕ} {receipt : H256}
    (hmem : .newAggregationReceipt d a receipt ∈ events) :
    c.publishes d a = true ∧ newlyPublished s s' ≠ [] ∧
      receipt = cfg.merkleRoot (newlyPublished s s') := by
  have hquiet : ∀ new : List Event, s'.events = s.events ++ new →
      (∀ e ∈ new, e.quiet = true) → False := by
    intro new hnew hall
    obtain rfl := List.append_cancel_left (hevents.symm.trans hnew)
    exact not_receipt_of_quiet hall hmem
  cases heffect with
  | skipped hskip =>
      refine (hquiet _ rfl fun e he => ?_).elim
      obtain ⟨cause, rfl⟩ := hskip e he
      rfl
  | accepted hlookup hready hroom _ _ haccept =>
      obtain rfl := List.append_cancel_left hevents
      rcases List.mem_cons.mp hmem with hmem | hmem
      · cases hmem
      · obtain ⟨next, -, -, -, ⟨-, -, rfl⟩ | ⟨-, queue, -, -, rfl⟩⟩ :=
          acceptStatement_ok (hrep.wf _ _ hlookup) hready hroom haccept
        · cases hmem
        · exact (not_receipt_of_quiet (enqueueEvents_quiet _ next queue) hmem).elim
  | @aggregated origin d' a' _ D D' aggregation popped _ hlookup htake =>
      have hwf := hrep.wf _ D hlookup
      have hne : aggregation.statements.toList ≠ [] := by
        rcases takeAggregation_ok hwf htake with ⟨-, hne, rfl, -⟩ | ⟨-, hget, -⟩
        · exact hne
        · -- A queued aggregation is complete.
          obtain ⟨-, -, -, hlength⟩ := hwf.queued _ _ hget
          intro hempty
          have hpos := hwf.size_pos
          rw [hempty, List.length_nil] at hlength
          omega
      have hpopped : ∀ e ∈ popped, e.quiet = true := by
        rcases takeAggregation_ok hwf htake with ⟨-, -, -, -, rfl⟩ | ⟨-, -, -, rfl⟩
        · exact advanceEvents_quiet D
        · simp
      obtain rfl := List.append_cancel_left hevents
      rcases List.mem_append.mp hmem with hmem | hmem
      · rcases List.mem_append.mp hmem with hmem | hmem
        · exact (not_receipt_of_quiet hpopped hmem).elim
        · exact (not_receipt_of_quiet (handleHoldState_quiet D' _) hmem).elim
      · cases List.mem_singleton.mp hmem
        refine ⟨by simp [Call.publishes], ?_, ?_⟩
        · rw [newlyPublished_eq rfl, AggregationEntry.hashes]
          simpa using hne
        · rw [newlyPublished_eq rfl]
          rfl
  | registered =>
      obtain rfl := List.append_cancel_left hevents
      simp at hmem
  | held => exact (hquiet _ rfl (by simp [Event.quiet, stateChangedEvent])).elim
  | unregistered => exact (hquiet _ rfl (by simp [Event.quiet])).elim
  | submittersRemoved => exact (hquiet _ rfl (handleHoldState_quiet _ _)).elim
  | feeSet | allowlisted | initialized =>
      exact (hquiet [] (List.append_nil _).symm (by simp)).elim

/-- The receipts announced so far are the roots of the batches they close, and no such batch is
empty. -/
def Receipted (cfg : Config A X T₁ T₂) (s : State A X T₁ T₂ S M) (b : ℕ × ℕ → Slot H256) : Prop :=
  ∀ d a receipt, .newAggregationReceipt d a receipt ∈ s.events →
    ∃ items, b (d, a) = .closed items ∧ items ≠ [] ∧ receipt = cfg.merkleRoot items

/-- A successful call keeps the receipts in order: a closed batch stays as it is, and the batch of
a new receipt is closed with what is published. -/
theorem Receipted.effect {b b' : ℕ × ℕ → Slot H256} (hrep : Represented s)
    (h : Receipted cfg s b) (heffect : Effect cfg s c s')
    (hreplay : Replay s s' b b' fun d a =>
      if c.publishes d a then [newlyPublished s s'] else []) : Receipted cfg s' b' := by
  obtain ⟨events, hevents, hrun⟩ := hreplay.replayed
  intro d a receipt hmem
  rw [hevents] at hmem
  rcases List.mem_append.mp hmem with hmem | hmem
  · obtain ⟨items, hclosed, hitems⟩ := h d a receipt hmem
    exact ⟨items, (closed_run hclosed hrun).1, hitems⟩
  · obtain ⟨hpublishes, hne, hroot⟩ := effect_receipt hrep heffect hevents hmem
    have hdelivered := hreplay.delivered d a
    rw [if_pos hpublishes] at hdelivered
    refine ⟨newlyPublished s s', ?_, hne, hroot⟩
    cases hslot : b' (d, a) with
    | filling items => simp [hslot, Slot.delivered] at hdelivered
    | closed items =>
        rw [hslot, Slot.delivered] at hdelivered
        cases hslot₀ : b (d, a) <;> simp_all [Slot.delivered]

/-- After every run there is a history of batches that the events replay, that the storage matches
and whose closed batches are the receipts. -/
theorem exists_batches (x : X) (steps : List (Step cfg kept)) :
    let s : State A X T₁ T₂ S M := run (.genesis x) steps
    ∃ b, s.Matches b ∧ BatchLog.run init (acts s.events) = some b ∧ Receipted cfg s b := by
  intro s
  have hall : HoldStates s ∧ ∃ b, s.Matches b ∧ BatchLog.run init (acts s.events) = some b ∧
      Receipted cfg s b := by
    apply effect_induction (P := fun s => HoldStates s ∧ ∃ b, s.Matches b ∧
      BatchLog.run init (acts s.events) = some b ∧ Receipted cfg s b) (.genesis x)
    · exact ⟨.genesis x, _, .genesis x, rfl, fun d a receipt hmem => by cases hmem⟩
    · rintro s c s' - hrep ⟨hstates, b, hmatches, hrun, hreceipted⟩ heffect
      obtain ⟨b', hreplay⟩ := replay_effect hrep hstates hmatches heffect
      obtain ⟨events, hevents, hrun'⟩ := hreplay.replayed
      refine ⟨hstates.effect hrep heffect, b', hreplay.matched, ?_,
        hreceipted.effect hrep heffect hreplay⟩
      rw [hevents, acts, List.filterMap_append]
      exact BatchLog.run_append hrun hrun'
    · rintro s e ⟨hstates, b, hmatches, hrun, hreceipted⟩
      exact ⟨⟨hstates.evaluated, hstates.rows⟩, b, hmatches.of_domains_eq rfl rfl, hrun,
        hreceipted⟩
  exact hall.2

/-- The items of a batch are the statements announced for its ids. -/
theorem items_eq_proofs {events : List Event} {b : ℕ × ℕ → Slot H256}
    (h : BatchLog.run init (acts events) = some b) (d a : ℕ) :
    (b (d, a)).items = proofs d a events := by
  rw [items_run h, proofs_eq]
  rfl

/-- In every reachable state, a receipt is the root of the statements announced for its ids, and
there is at least one. -/
theorem Reachable.receipt_eq (hs : Reachable cfg kept s) {d a : ℕ} {receipt : H256}
    (hmem : .newAggregationReceipt d a receipt ∈ s.events) :
    proofs d a s.events ≠ [] ∧ receipt = cfg.merkleRoot (proofs d a s.events) := by
  obtain ⟨x, steps, rfl⟩ := hs
  obtain ⟨b, -, hrun, hreceipted⟩ := exists_batches (S := S) (M := M) x steps
  obtain ⟨items, hclosed, hne, hroot⟩ := hreceipted d a receipt hmem
  obtain rfl : items = proofs d a _ := by
    rw [← items_eq_proofs hrun, hclosed]
    rfl
  exact ⟨hne, hroot⟩

/-- In every reachable state, the statements announced for a pair of ids are pending together, or
their receipt has been announced. -/
theorem Reachable.pending_or_receipt (hs : Reachable cfg kept s) {d a : ℕ}
    (hne : proofs d a s.events ≠ []) :
    SolePending s d a (proofs d a s.events) ∨
      .newAggregationReceipt d a (cfg.merkleRoot (proofs d a s.events)) ∈ s.events := by
  have hs' := hs
  have hrep := hs.represented
  obtain ⟨x, steps, rfl⟩ := hs
  obtain ⟨b, hmatches, hrun, -⟩ := exists_batches (S := S) (M := M) x steps
  have hitems := items_eq_proofs hrun d a
  cases hslot : b (d, a) with
  | filling items =>
      rw [hslot, Slot.items] at hitems
      rw [← hitems] at hne ⊢
      exact .inl (hmatches.solePending hrep hslot hne)
  | closed items =>
      -- A batch is closed by the announcement of its receipt.
      right
      have hcount := closes_run hrun (d, a)
      rw [hslot, ← receipts_eq] at hcount
      have hpos : 0 < receipts d a (run (.genesis x) steps : State A X T₁ T₂ S M).events := by
        simp only [Slot.delivered, init, List.length_singleton, List.length_nil] at hcount
        omega
      obtain ⟨e, he, hreceipt⟩ := List.countP_pos_iff.mp hpos
      cases e with
      | newAggregationReceipt d' a' receipt =>
          obtain ⟨rfl, rfl⟩ := of_decide_eq_true hreceipt
          rwa [(hs'.receipt_eq he).2] at he
      | _ => cases hreceipt

end ZkVerify.Aggregate
