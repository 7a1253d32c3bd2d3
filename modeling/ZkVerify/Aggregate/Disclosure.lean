import ZkVerify.Aggregate.Drain
import ZkVerify.Aggregate.Paths
import ZkVerify.Aggregate.Receipts

/-!
# No accepted statement can be withheld

A statement that was accepted is pending or published.  As long as it is pending, one call of the
manager publishes it, whatever the rules of the domain and the balances of the accounts are, and
from then on, for the rest of the block, everybody can ask for its path
(`Reachable.disclosed`).
-/

namespace ZkVerify.Aggregate

open Frame DomainEntry

variable {A X T₁ T₂ : Type} {S M : ℕ} [DecidableEq A] {cfg : Config A X T₁ T₂}
  {kept : Set HoldReason} {s : State A X T₁ T₂ S M} {origin : RawOrigin A} {d a : ℕ}

theorem mem_proofs {statement : H256} {events : List Event} :
    statement ∈ proofs d a events ↔ .newProof statement d a ∈ events := by
  unfold proofs
  rw [List.mem_filterMap]
  constructor
  · rintro ⟨e, he, hsome⟩
    cases e <;> simp_all
  · intro he
    exact ⟨_, he, by simp⟩

omit [DecidableEq A] in
/-- The statements that are pending under an id are those that a publication takes. -/
theorem SolePending.takeAggregation (hrep : Represented s) {statements : List H256}
    (h : SolePending s d a statements) (hne : statements ≠ []) :
    ∃ D aggregation D' popped, s.domains.lookup d = some D ∧
      D.takeAggregation a = .ok (some aggregation, D', popped) ∧ aggregation.id = a ∧
      aggregation.hashes = statements := by
  obtain ⟨D, place, aggregation, hlookup, hplace, hid, hhashes, hsole⟩ := h
  have hwf := hrep.wf d D hlookup
  have hpending : D.Pending a := by
    cases place with
    | next =>
        obtain rfl : D.next = aggregation := Option.some.inj hplace
        refine .inl ⟨hid.symm, fun hnil => hne ?_⟩
        rw [← hhashes, AggregationEntry.hashes, hnil, List.map_nil]
    | queued key =>
        have hget : D.shouldPublish.get key = some aggregation := hplace
        obtain rfl : key = a := (hwf.queued key aggregation hget).1.symm.trans hid
        exact .inr (by rw [hget]; rfl)
  obtain ⟨taken, D', popped, htake, -⟩ := takeAggregation_of_pending hwf hpending
  refine ⟨D, taken, D', popped, hlookup, htake, ?_⟩
  -- There is one place with the id, so that what is taken is what is pending.
  have htaken : ∃ place', D.pendingAt place' = some taken ∧ taken.id = a := by
    rcases takeAggregation_ok hwf htake with ⟨rfl, -, rfl, -⟩ | ⟨-, hget, -⟩
    · exact ⟨.next, rfl, rfl⟩
    · exact ⟨.queued a, hget, (hwf.queued a taken hget).1⟩
  obtain ⟨place', hplace', hid'⟩ := htaken
  rw [hsole place' taken hplace' hid', hplace] at hplace'
  cases hplace'
  exact ⟨hid, hhashes⟩

theorem Reachable.of_dispatch (hs : Reachable cfg kept s) {c : Call A} {s' : State A X T₁ T₂ S M}
    {info : PostDispatchInfo} (hok : dispatch cfg c s = .ok (s', info)) :
    Reachable cfg kept s' := by
  obtain ⟨x, steps, rfl⟩ := hs
  have hexec : exec (run (.genesis x) steps) (.call c : Step cfg kept) = s' := by
    simp only [exec, hok]
  refine ⟨x, steps ++ [.call c], ?_⟩
  rw [run_append]
  exact hexec.symm

/-- A statement that was announced for a pair of ids is covered by a receipt.  If the receipt is not
announced yet, the manager can publish it with one call, after which the path of the statement can
be requested and leads to the receipt. -/
theorem Reachable.disclosed (hs : Reachable cfg kept s) (hS : S ≤ u32Max) {tree : MerkleTree}
    (htree : tree.Lawful cfg.merkleRoot) (hmanager : cfg.managerOrigin origin = true)
    (hdispatch : ∀ d a root destination fee owner x,
      cfg.dispatchAggregation d a root destination fee owner x = .ok ()) {statement : H256}
    (hproof : statement ∈ proofs d a s.events) :
    .newAggregationReceipt d a (cfg.merkleRoot (proofs d a s.events)) ∈ s.events ∨
      ∃ s' info p, dispatch cfg (.aggregate origin d a) s = .ok (s', info) ∧
        .newAggregationReceipt d a (cfg.merkleRoot (proofs d a s.events)) ∈ s'.events ∧
        getStatementPath tree d a statement s' = .ok p ∧
        p.root = cfg.merkleRoot (proofs d a s.events) ∧ p.leaf = statement ∧
        tree.verifyProof p.root p.proof p.numberOfLeaves p.leafIndex p.leaf = true := by
  have hne : proofs d a s.events ≠ [] := List.ne_nil_of_mem hproof
  refine (hs.pending_or_receipt hne).symm.imp_right fun hpending => ?_
  obtain ⟨D, aggregation, D', popped, hlookup, htake, rfl, hhashes⟩ :=
    hpending.takeAggregation hs.represented hne
  obtain ⟨s', info, hok, -⟩ :=
    aggregate_manager hmanager (hdispatch d) hlookup htake
  have hreachable : Reachable cfg kept s' :=
    hs.of_dispatch (c := .aggregate origin d aggregation.id) hok
  -- What is published is what was taken.
  have heffect : Effect cfg s (.aggregate origin d aggregation.id) s' := effect_of_dispatch hok
  have hpublished : (d, aggregation) ∈ s'.published ∧
      .newAggregationReceipt d aggregation.id (cfg.merkleRoot aggregation.hashes) ∈
        s'.events := by
    cases heffect with
    | aggregated _ hlookup' htake' =>
        rw [hlookup] at hlookup'
        cases hlookup'
        rw [htake] at htake'
        cases htake'
        exact ⟨List.mem_append_right _ (List.mem_singleton_self _),
          List.mem_append_right _ (List.mem_append_right _ (List.mem_singleton_self _))⟩
  rw [← hhashes] at hproof ⊢
  obtain ⟨index, hleaf, hpath⟩ := getStatementPath_of_mem tree hS
    (hreachable.find?_published hpublished.1) hproof
  exact ⟨s', info, _, hok, hpublished.2, hpath, htree.root _ _ _ hleaf, htree.leaf _ _ _ hleaf,
    htree.verifies _ _ _ hleaf⟩

end ZkVerify.Aggregate
