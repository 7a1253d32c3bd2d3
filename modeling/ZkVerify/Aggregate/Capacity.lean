import ZkVerify.Aggregate.Funds

/-!
# How much a domain holds

A domain collects statements in its next aggregation and keeps the complete ones in a
queue.  `canAddStatement` admits a statement when the queue has room for one more
aggregation or when the statement does not complete the next one.  So a ready domain
is full exactly when its queue is and the next aggregation lacks one statement, and
this bounds the statements that can be pending.
-/

namespace ZkVerify.Aggregate

open Frame DomainEntry

variable {A X T₁ T₂ : Type} {S M : ℕ}

/-! ## Room for a statement -/

/-- The statements of a domain that are not published yet. -/
def DomainEntry.pendingStatements (D : DomainEntry A T₁ T₂ S M) : ℕ :=
  D.next.statements.toList.length +
    D.shouldPublish.toFinmap.total fun _ aggregation => aggregation.statements.toList.length

namespace DomainEntry.WF

variable {D : DomainEntry A T₁ T₂ S M}

/-- A domain has no room exactly if its queue is full and the next statement completes the next
aggregation. -/
theorem canAddStatement_eq_false (h : D.WF) :
    D.canAddStatement = false ↔ D.shouldPublish.length = D.publishQueueSize ∧
      D.next.statements.toList.length = D.maxAggregationSize - 1 := by
  have hqueue := h.queue_length
  have hlength := h.next_length
  have hpos := h.size_pos
  simp only [canAddStatement, Bool.or_eq_false_iff, decide_eq_false_iff_not,
    AggregationEntry.spaceLeft, h.next_size]
  omega

/-- The queued aggregations are complete, so they hold the same number of statements each. -/
theorem total_queued (h : D.WF) :
    (D.shouldPublish.toFinmap.total fun _ aggregation => aggregation.statements.toList.length) =
      D.shouldPublish.length * D.maxAggregationSize :=
  Finmap.total_const _ fun k aggregation hget => (h.queued k aggregation hget).2.2.2

theorem pendingStatements_le (h : D.WF) :
    D.pendingStatements ≤
      D.publishQueueSize * D.maxAggregationSize + D.maxAggregationSize - 1 := by
  have hlength := h.next_length
  have hqueue : D.shouldPublish.length * D.maxAggregationSize ≤
      D.publishQueueSize * D.maxAggregationSize :=
    Nat.mul_le_mul_right _ h.queue_length
  rw [pendingStatements, h.total_queued]
  omega

end DomainEntry.WF

/-! ## Refusals -/

theorem cannotAggregate_notMem_enqueueEvents (D : DomainEntry A T₁ T₂ S M)
    (next : AggregationEntry A S) (queue : BoundedMap ℕ (AggregationEntry A S) M)
    (statement : H256) (cause : CannotAggregateCause) :
    .cannotAggregate statement cause ∉ D.enqueueEvents next queue := by
  unfold enqueueEvents advanceEvents
  split <;> split <;> simp

variable [DecidableEq A] {cfg : Config A X T₁ T₂} {kept : Set HoldReason}

/-- The callback answers a proof of `account` for the domain `d` with the given cause. -/
def RefusedWith (cfg : Config A X T₁ T₂) (s : State A X T₁ T₂ S M) (account : A) (d : ℕ)
    (statement : H256) (cause : CannotAggregateCause) : Prop :=
  ∃ s' new, onProofVerified cfg (some account) (some d) statement s = .ok s' ∧
    s'.events = s.events ++ new ∧ .cannotAggregate statement cause ∈ new

/-- A domain with room does not answer that it is full. -/
theorem onDomainProof_ne_full {D : DomainEntry A T₁ T₂ S M} (hwf : D.WF)
    (hready : D.state = .ready) (hroom : D.canAddStatement = true) {account : A} {d : ℕ}
    {statement : H256} {s s' : State A X T₁ T₂ S M} {new : List Event}
    (h : onDomainProof cfg account d statement D s = .ok s')
    (hevents : s'.events = s.events ++ new) :
    .cannotAggregate statement (.domainStorageFull d) ∉ new := by
  unfold onDomainProof at h
  rw [if_neg (not_not.mpr hready), if_neg (by simp [hroom])] at h
  obtain ⟨authorized, -, h⟩ := seq_eq_ok.mp h
  split at h
  · cases h
    rw [← List.append_cancel_left hevents]
    simp
  · obtain ⟨⟨result, x⟩, -, h⟩ := seq_eq_ok.mp h
    cases result with
    | error e =>
        cases h
        rw [← List.append_cancel_left hevents]
        simp
    | ok reserve =>
        obtain ⟨⟨accepted, events⟩, haccept, h⟩ := seq_eq_ok.mp h
        cases h
        rw [← List.append_cancel_left hevents]
        -- What follows the acceptance reports a completed aggregation, never a refusal.
        obtain ⟨next, -, -, -, ⟨-, -, rfl⟩ | ⟨-, queue, -, -, rfl⟩⟩ :=
          acceptStatement_ok hwf hready hroom haccept
        · simp
        · simp [cannotAggregate_notMem_enqueueEvents]

/-- A proof for a ready domain is refused for lack of room exactly if there is none. -/
theorem refusedWith_full_iff {s : State A X T₁ T₂ S M} {d : ℕ} {D : DomainEntry A T₁ T₂ S M}
    (hlookup : s.domains.lookup d = some D) (hwf : D.WF) (hready : D.state = .ready) (account : A)
    (statement : H256) :
    RefusedWith cfg s account d statement (.domainStorageFull d) ↔ D.canAddStatement = false := by
  have hproof : onProofVerified cfg (some account) (some d) statement s =
      onDomainProof cfg account d statement D s := by
    simp only [onProofVerified, hlookup]
  unfold RefusedWith
  rw [hproof]
  constructor
  · rintro ⟨s', new, hok, hevents, hmem⟩
    by_contra hroom
    exact onDomainProof_ne_full hwf hready (by simpa using hroom) hok hevents hmem
  · intro hfull
    refine ⟨s.deposit [.cannotAggregate statement (.domainStorageFull d)], _, ?_, rfl, by simp⟩
    unfold onDomainProof
    rw [if_neg (not_not.mpr hready), if_pos hfull]

/-! ## Capacity -/

/-- In every reachable state, what is stored for a domain fits its sizes: the next aggregation is
not complete, the queue holds at most its number of complete aggregations, each under its own id,
and the id of the next aggregation is larger than theirs unless the ids are used up.  A proof for
a ready domain is refused for lack of room exactly if the queue is full and the next aggregation
lacks one statement, which bounds the pending statements. -/
theorem domain_capacity {s : State A X T₁ T₂ S M} (hs : Reachable cfg kept s) {d : ℕ}
    {D : DomainEntry A T₁ T₂ S M} (hlookup : s.domains.lookup d = some D) :
    (1 ≤ D.next.size ∧ D.next.size = D.maxAggregationSize ∧ D.maxAggregationSize ≤ S) ∧
      D.next.statements.toList.length < D.next.size ∧
      (D.shouldPublish.length ≤ D.publishQueueSize ∧ D.publishQueueSize ≤ M) ∧
      (∀ k aggregation, D.shouldPublish.get k = some aggregation →
        aggregation.id = k ∧ 1 ≤ k ∧ aggregation.size = D.maxAggregationSize ∧
          aggregation.statements.toList.length = D.maxAggregationSize) ∧
      ((∀ k aggregation, D.shouldPublish.get k = some aggregation → k < D.next.id) ∨
        (D.next.id = 0 ∧ D.next.statements.toList = [] ∧ D.state ≠ .ready)) ∧
      (D.state = .ready → ∀ account statement,
        RefusedWith cfg s account d statement (.domainStorageFull d) ↔
          D.shouldPublish.length = D.publishQueueSize ∧
            D.next.statements.toList.length = D.maxAggregationSize - 1) ∧
      D.pendingStatements ≤
        D.publishQueueSize * D.maxAggregationSize + D.maxAggregationSize - 1 := by
  have hwf : D.WF := hs.represented.wf d D hlookup
  refine ⟨⟨?_, hwf.next_size, hwf.size_le⟩, ?_, ⟨hwf.queue_length, hwf.queue_le⟩, hwf.queued,
    hwf.ids.imp_left And.right, ?_, hwf.pendingStatements_le⟩
  · rw [hwf.next_size]
    exact hwf.size_pos
  · rw [hwf.next_size]
    exact hwf.next_length
  · intro hready account statement
    rw [refusedWith_full_iff hlookup hwf hready, hwf.canAddStatement_eq_false]

/-- One statement completes the only aggregation that the queue can hold. -/
def sampleFull : List (Step sampleConfig ∅) :=
  [.call (.registerDomain .root 1 (some 1) .untrusted .untrusted ⟨.none, 10, 4⟩ (some 7)),
    .call (.onProofVerified (some 1) (some 0) (Vector.replicate 32 0))]

theorem domain_capacity_sample :
    let s : State ℕ (Book ℕ HoldReason) ℕ ℕ 4 2 := run (.genesis sampleBook) sampleFull
    RefusedWith sampleConfig s 1 0 (Vector.replicate 32 1) (.domainStorageFull 0) := by
  intro s
  have hfull : ∃ D ∈ s.domains.lookup 0, D.state = .ready ∧
      D.shouldPublish.length = D.publishQueueSize ∧
      D.next.statements.toList.length = D.maxAggregationSize - 1 := by
    decide
  obtain ⟨D, hlookup, hready, hfull⟩ := hfull
  have hcapacity := domain_capacity (s := s) ⟨sampleBook, sampleFull, rfl⟩ hlookup
  exact (hcapacity.2.2.2.2.2.1 hready 1 _).mpr hfull

end ZkVerify.Aggregate
