import ZkVerify.Frame.Merkle
import ZkVerify.Aggregate.History
import ZkVerify.Aggregate.Funds

/-!
# Paths to published statements

`get_statement_path` looks up a published aggregation and the position of a statement in it,
the first match in both cases, and computes the Merkle path from there.  The receipt was
computed earlier, by `aggregate`.  The two belong together because an id is published at
most once (`published_unique`), and because `on_initialize` empties the list at the start
of each block.

The Merkle tree is a parameter: `MerkleTree.Lawful` says what is expected of its proofs.
-/

namespace ZkVerify.Aggregate

open Frame DomainEntry

variable {A X T₁ T₂ : Type} {S M : ℕ}

/-! ## The Merkle tree -/

/-- A proof that a leaf belongs to a tree. -/
structure MerkleProof where
  root : H256
  proof : List H256
  numberOfLeaves : ℕ
  leafIndex : ℕ
  leaf : H256
deriving DecidableEq

/-- The functions of `binary_merkle_tree` that concern proofs. -/
structure MerkleTree where
  merkleProof : List H256 → ℕ → MerkleProof
  verifyProof : H256 → List H256 → ℕ → ℕ → H256 → Bool

/-- The proof of a leaf is about this leaf and this tree, and it verifies. -/
structure MerkleTree.Lawful (tree : MerkleTree) (merkleRoot : List H256 → H256) : Prop where
  root : ∀ leaves index leaf, leaves[index]? = some leaf →
    (tree.merkleProof leaves index).root = merkleRoot leaves
  leaf : ∀ leaves index leaf, leaves[index]? = some leaf →
    (tree.merkleProof leaves index).leaf = leaf
  numberOfLeaves : ∀ leaves index leaf, leaves[index]? = some leaf →
    (tree.merkleProof leaves index).numberOfLeaves = leaves.length
  verifies : ∀ leaves index leaf, leaves[index]? = some leaf →
    let p := tree.merkleProof leaves index
    tree.verifyProof p.root p.proof p.numberOfLeaves p.leafIndex p.leaf = true

/-! ## Requesting a path -/

/-- Why a path cannot be given. -/
inductive PathRequestError
  | notFound (domainId aggregationId : ℕ) (statement : H256)
  | receiptNotPublished (domainId aggregationId : ℕ)
  | indexOutOfBounds
deriving DecidableEq

/-- `get_statement_path`. -/
def getStatementPath (tree : MerkleTree) (domainId aggregationId : ℕ) (statement : H256)
    (s : State A X T₁ T₂ S M) : Except PathRequestError MerkleProof := do
  let (_, aggregation) ← okOr
    (s.published.find? fun entry => entry.1 = domainId && entry.2.id = aggregationId)
    (.receiptNotPublished domainId aggregationId)
  let index ← okOr
    (aggregation.statements.toList.findIdx? fun entry => entry.statement = statement)
    (.notFound domainId aggregationId statement)
  let leaves := aggregation.hashes
  -- `try_into` a `u32`.
  ensure (decide (index ≤ u32Max)) .indexOutOfBounds
  return tree.merkleProof leaves index

section request

variable {tree : MerkleTree} {s : State A X T₁ T₂ S M} {d a : ℕ}
  {aggregation : AggregationEntry A S}

/-- The path of a statement of a published aggregation. -/
theorem getStatementPath_of_mem (tree : MerkleTree) (hS : S ≤ u32Max)
    (hfind : (s.published.find? fun entry => entry.1 = d && entry.2.id = a) =
      some (d, aggregation)) {statement : H256} (hmem : statement ∈ aggregation.hashes) :
    ∃ index, aggregation.hashes[index]? = some statement ∧
      getStatementPath tree d a statement s = .ok (tree.merkleProof aggregation.hashes index) := by
  obtain ⟨entry, hentry, rfl⟩ := List.mem_map.mp hmem
  cases hindex : aggregation.statements.toList.findIdx? fun e =>
      e.statement = entry.statement with
  | none =>
      have hnone := List.findIdx?_eq_none_iff.mp hindex entry hentry
      simp at hnone
  | some index =>
      obtain ⟨hlt, hfound, -⟩ := List.findIdx?_eq_some_iff_getElem.mp hindex
      have hbound : index ≤ u32Max :=
        hlt.le.trans (aggregation.statements.length_le.trans hS)
      refine ⟨index, ?_, ?_⟩
      · rw [AggregationEntry.hashes, List.getElem?_map, List.getElem?_eq_getElem hlt,
          Option.map_some, of_decide_eq_true hfound]
      · simp only [getStatementPath, hfind, hindex, okOr_some, ok_bind, hbound, decide_true,
          ensure_true]
        rfl

theorem getStatementPath_of_notMem
    (hfind : (s.published.find? fun entry => entry.1 = d && entry.2.id = a) =
      some (d, aggregation)) {statement : H256} (hmem : statement ∉ aggregation.hashes) :
    getStatementPath tree d a statement s = .error (.notFound d a statement) := by
  have hindex : (aggregation.statements.toList.findIdx? fun entry =>
      entry.statement = statement) = none := by
    rw [List.findIdx?_eq_none_iff]
    intro entry hentry
    have hne : entry.statement ≠ statement := by
      rintro rfl
      exact hmem (List.mem_map_of_mem hentry)
    simpa using hne
  simp only [getStatementPath, hfind, hindex, okOr_some, okOr_none, ok_bind, error_bind]

theorem getStatementPath_of_none
    (hfind : (s.published.find? fun entry => entry.1 = d && entry.2.id = a) = none)
    (statement : H256) :
    getStatementPath tree d a statement s = .error (.receiptNotPublished d a) := by
  simp only [getStatementPath, hfind, okOr_none, error_bind]

end request

variable [DecidableEq A] {cfg : Config A X T₁ T₂} {kept : Set HoldReason}
  {s s' : State A X T₁ T₂ S M} {c : Call A}

/-! ## An id is published once -/

/-- What a call does to the list of published aggregations: it is kept, emptied at the start of a
block, or extended by an aggregation whose receipt is announced. -/
theorem effect_published (hrep : Represented s) (heffect : Effect cfg s c s') :
    s'.published = s.published ∨ (c = .onInitialize ∧ s'.published = []) ∨
      ∃ origin d aggregation events, c = .aggregate origin d aggregation.id ∧
        s'.published = s.published ++ [(d, aggregation)] ∧ s'.events = s.events ++ events ∧
        ∀ receipt, .newAggregationReceipt d aggregation.id receipt ∈ events ↔
          receipt = aggregation.computeReceipt cfg.merkleRoot := by
  cases heffect with
  | initialized => exact .inr (.inl ⟨rfl, rfl⟩)
  | @aggregated origin d a _ D D' aggregation popped _ hlookup htake =>
      have hwf := hrep.wf d D hlookup
      obtain ⟨rfl, hpopped⟩ : aggregation.id = a ∧ ∀ e ∈ popped, e.quiet = true := by
        rcases takeAggregation_ok hwf htake with ⟨hid, -, rfl, -, rfl⟩ | ⟨-, hget, -, rfl⟩
        · exact ⟨hid, advanceEvents_quiet D⟩
        · exact ⟨(hwf.queued a aggregation hget).1, by simp⟩
      refine .inr (.inr ⟨origin, d, aggregation, _, rfl, rfl, rfl, ?_⟩)
      intro receipt
      constructor
      · intro hmem
        -- The other events of the call are not receipts.
        rcases List.mem_append.mp hmem with hmem | hmem
        · have hquiet : (Event.newAggregationReceipt d aggregation.id receipt).quiet = true := by
            rcases List.mem_append.mp hmem with hmem | hmem
            · exact hpopped _ hmem
            · exact handleHoldState_quiet D' _ _ hmem
          cases hquiet
        · cases List.mem_singleton.mp hmem
          rfl
      · rintro rfl
        exact List.mem_append_right _ (List.mem_singleton_self _)
  | skipped | accepted | registered | held | unregistered | feeSet | allowlisted
  | submittersRemoved => exact .inl rfl

/-- The published aggregations are closed batches, and no two of them are the same batch. -/
structure PublishedOnce (s : State A X T₁ T₂ S M) (b : ℕ × ℕ → BatchLog.Slot H256) : Prop where
  closed : ∀ entry ∈ s.published, (b (entry.1, entry.2.id)).delivered ≠ []
  unique : ∀ entry ∈ s.published, ∀ entry' ∈ s.published, entry.1 = entry'.1 →
    entry.2.id = entry'.2.id → entry = entry'

/-- A batch that is published is open before and closed after. -/
theorem PublishedOnce.effect {b b' : ℕ × ℕ → BatchLog.Slot H256} (hrep : Represented s)
    (h : PublishedOnce s b) (heffect : Effect cfg s c s')
    (hdelivered : ∀ d a, (b' (d, a)).delivered = (b (d, a)).delivered ++
      if c.publishes d a then [newlyPublished s s'] else []) : PublishedOnce s' b' := by
  have hkept : ∀ entry ∈ s.published, (b' (entry.1, entry.2.id)).delivered ≠ [] := by
    intro entry hmem
    rw [hdelivered]
    simp [h.closed entry hmem]
  rcases effect_published hrep heffect with
    hsame | ⟨-, hempty⟩ | ⟨origin, d, aggregation, events, rfl, hnew, -⟩
  · constructor
    · rw [hsame]
      exact hkept
    · rw [hsame]
      exact h.unique
  · constructor
    · simp [hempty]
    · simp [hempty]
  · have hclosed : (b' (d, aggregation.id)).delivered =
        (b (d, aggregation.id)).delivered ++ [newlyPublished s s'] := by
      rw [hdelivered, if_pos (by simp [Call.publishes])]
    -- The batch was open, since it is closed once at most.
    have hopen : (b (d, aggregation.id)).delivered = [] := by
      have hle := BatchLog.delivered_length_le (b' (d, aggregation.id))
      rw [hclosed, List.length_append, List.length_singleton] at hle
      exact List.eq_nil_of_length_eq_zero (by omega)
    have hfresh : ∀ entry ∈ s.published, entry.1 = d → entry.2.id ≠ aggregation.id := by
      rintro entry hmem rfl hid
      exact h.closed entry hmem (hid ▸ hopen)
    constructor
    · rw [hnew]
      intro entry hmem
      rcases List.mem_append.mp hmem with hmem | hmem
      · exact hkept entry hmem
      · obtain rfl := List.mem_singleton.mp hmem
        simp [hclosed]
    · rw [hnew]
      intro entry hmem entry' hmem' hd hid
      rcases List.mem_append.mp hmem with hmem | hmem
      · rcases List.mem_append.mp hmem' with hmem' | hmem'
        · exact h.unique entry hmem entry' hmem' hd hid
        · obtain rfl := List.mem_singleton.mp hmem'
          exact absurd hid (hfresh entry hmem hd)
      · obtain rfl := List.mem_singleton.mp hmem
        rcases List.mem_append.mp hmem' with hmem' | hmem'
        · exact absurd hid.symm (hfresh entry' hmem' hd.symm)
        · exact (List.mem_singleton.mp hmem').symm

/-- In every reachable state, no id occurs twice among the published aggregations. -/
theorem published_unique (hs : Reachable cfg kept s) :
    ∀ entry ∈ s.published, ∀ entry' ∈ s.published, entry.1 = entry'.1 →
      entry.2.id = entry'.2.id → entry = entry' := by
  obtain ⟨x, steps, rfl⟩ := hs
  suffices hinv : ∀ s : State A X T₁ T₂ S M, s = run (.genesis x) steps →
      HoldStates s ∧ ∃ b, s.Matches b ∧ PublishedOnce s b by
    obtain ⟨-, b, -, honce⟩ := hinv _ rfl
    exact honce.unique
  rintro s rfl
  refine effect_induction (P := fun s => HoldStates s ∧ ∃ b, s.Matches b ∧ PublishedOnce s b)
    (Represented.genesis x) ?_ ?_ ?_
  · refine ⟨HoldStates.genesis x, _, State.Matches.genesis x, ?_⟩
    constructor <;> simp [State.genesis]
  · rintro s c s' - hrep ⟨hstates, b, hmatches, honce⟩ heffect
    obtain ⟨b', hreplay⟩ := replay_effect hrep hstates hmatches heffect
    exact ⟨hstates.effect hrep heffect, b', hreplay.matched,
      honce.effect hrep heffect hreplay.delivered⟩
  · rintro s e ⟨hstates, b, hmatches, honce⟩
    exact ⟨⟨hstates.evaluated, hstates.rows⟩, b, hmatches.of_domains_eq rfl rfl,
      ⟨honce.closed, honce.unique⟩⟩

/-- The first published aggregation with an id is the only one. -/
theorem Reachable.find?_published (hs : Reachable cfg kept s) {d : ℕ}
    {aggregation : AggregationEntry A S} (hmem : (d, aggregation) ∈ s.published) :
    (s.published.find? fun entry => entry.1 = d && entry.2.id = aggregation.id) =
      some (d, aggregation) := by
  cases hfind : s.published.find? fun entry => entry.1 = d && entry.2.id = aggregation.id with
  | none =>
      have hnone := List.find?_eq_none.mp hfind _ hmem
      simp at hnone
  | some entry =>
      have hentry := List.find?_some hfind
      simp only [Bool.and_eq_true, decide_eq_true_eq] at hentry
      rw [published_unique hs entry (List.mem_of_find?_eq_some hfind) _ hmem hentry.1 hentry.2]

/-! ## Blocks -/

/-- The steps end where a block starts: nothing happened yet, or `on_initialize` was the last. -/
def StartsBlock (steps : List (Step cfg kept)) : Prop :=
  steps = [] ∨ ∃ earlier, steps = earlier ++ [.call .onInitialize]

/-- The step publishes the aggregation `a` of the domain `d` with this receipt. -/
def PublishedBy (d a : ℕ) (aggregation : AggregationEntry A S) (receipt : H256)
    (s : State A X T₁ T₂ S M) (step : Step cfg kept) : Prop :=
  ∃ origin s' info events, step = .call (.aggregate origin d a) ∧
    dispatch cfg (.aggregate origin d a) s = .ok (s', info) ∧
    s'.published = s.published ++ [(d, aggregation)] ∧
    s'.events = s.events ++ events ∧ .newAggregationReceipt d a receipt ∈ events

/-- One of the steps of a block publishes the aggregation with this receipt. -/
def PublishedIn (d a : ℕ) (aggregation : AggregationEntry A S) (receipt : H256) :
    State A X T₁ T₂ S M → List (Step cfg kept) → Prop
  | _, [] => False
  | s, step :: steps => PublishedBy d a aggregation receipt s step ∨
      PublishedIn d a aggregation receipt (exec s step) steps

theorem published_of_startsBlock {steps : List (Step cfg kept)} (h : StartsBlock steps) (x : X) :
    (run (.genesis x : State A X T₁ T₂ S M) steps).published = [] := by
  rcases h with rfl | ⟨earlier, rfl⟩
  · rfl
  · rw [run_append]
    rfl

section block

variable {step : Step cfg kept} {block : List (Step cfg kept)} {d a : ℕ}
  {aggregation : AggregationEntry A S} {receipt : H256}

/-- What is published with a receipt has the id of the call, and the receipt is its Merkle root. -/
theorem PublishedBy.spec (hrep : Represented s)
    (h : PublishedBy d a aggregation receipt s step) :
    aggregation.id = a ∧ receipt = aggregation.computeReceipt cfg.merkleRoot ∧
      (exec s step).published = s.published ++ [(d, aggregation)] := by
  obtain ⟨origin, s', info, events, rfl, hok, hpublished, hevents, hmem⟩ := h
  have hexec : exec s (.call (.aggregate origin d a) : Step cfg kept) = s' := by
    simp only [exec, hok]
  rw [hexec]
  rcases effect_published hrep (effect_of_dispatch hok) with
    hsame | ⟨hcall, -⟩ | ⟨origin', d', aggregation', events', hcall, hnew, hevents', hreceipt⟩
  · simp [hpublished] at hsame
  · cases hcall
  · cases hcall
    obtain rfl : aggregation' = aggregation := by
      simpa [hpublished, eq_comm] using hnew
    obtain rfl := List.append_cancel_left (hevents'.symm.trans hevents)
    exact ⟨rfl, (hreceipt receipt).mp hmem, hpublished⟩

/-- A step that does not start a block keeps what is published or publishes one aggregation. -/
theorem exec_published (hrep : Represented s) (hstep : step ≠ .call .onInitialize) :
    (exec s step).published = s.published ∨
      ∃ d aggregation receipt, PublishedBy d aggregation.id aggregation receipt s step := by
  cases step with
  | environment e => exact .inl rfl
  | call c =>
      cases hok : dispatch cfg c s with
      | error e =>
          left
          simp only [exec, hok]
      | ok result =>
          rcases effect_published hrep (effect_of_dispatch hok) with
            hsame | ⟨rfl, -⟩ | ⟨origin, d, aggregation, events, rfl, hnew, hevents, hreceipt⟩
          · left
            simp only [exec, hok]
            exact hsame
          · exact absurd rfl hstep
          · exact .inr ⟨d, aggregation, _, origin, result.1, result.2, events, rfl, hok, hnew,
              hevents, (hreceipt _).mpr rfl⟩

theorem mem_published_exec (hrep : Represented s) (hstep : step ≠ .call .onInitialize)
    (entry : ℕ × AggregationEntry A S) :
    entry ∈ (exec s step).published ↔ entry ∈ s.published ∨
      ∃ receipt, PublishedBy entry.1 entry.2.id entry.2 receipt s step := by
  constructor
  · intro hmem
    rcases exec_published hrep hstep with hsame | ⟨d, aggregation, receipt, hpublished⟩
    · exact .inl (hsame ▸ hmem)
    · rw [(hpublished.spec hrep).2.2] at hmem
      rcases List.mem_append.mp hmem with hmem | hmem
      · exact .inl hmem
      · obtain rfl := List.mem_singleton.mp hmem
        exact .inr ⟨receipt, hpublished⟩
  · rintro (hmem | ⟨receipt, hpublished⟩)
    · rcases exec_published hrep hstep with hsame | ⟨d, aggregation, receipt, hpublished⟩
      · exact hsame ▸ hmem
      · rw [(hpublished.spec hrep).2.2]
        exact List.mem_append_left _ hmem
    · rw [(hpublished.spec hrep).2.2]
      exact List.mem_append_right _ (List.mem_singleton_self _)

/-- During a block, what is published is what was published before and what its steps publish. -/
theorem mem_published_run (hrep : Represented s) (hblock : .call .onInitialize ∉ block)
    (entry : ℕ × AggregationEntry A S) :
    entry ∈ (run s block).published ↔ entry ∈ s.published ∨
      ∃ receipt, PublishedIn entry.1 entry.2.id entry.2 receipt s block := by
  induction block generalizing s with
  | nil => simp [PublishedIn]
  | cons step block ih =>
      rw [List.mem_cons, not_or] at hblock
      obtain ⟨hstep, hblock⟩ := hblock
      have hrep' : Represented (exec s step) := represented_run hrep [step]
      show entry ∈ (run (exec s step) block).published ↔ _
      rw [ih hrep' hblock, mem_published_exec hrep (Ne.symm hstep), or_assoc, ← exists_or]
      rfl

/-- What a block publishes with a receipt has the id of the call, and the receipt is its Merkle
root. -/
theorem PublishedIn.spec (hrep : Represented s)
    (h : PublishedIn d a aggregation receipt s block) :
    aggregation.id = a ∧ receipt = aggregation.computeReceipt cfg.merkleRoot := by
  induction block generalizing s with
  | nil => cases h
  | cons step block ih =>
      rcases h with hpublished | hlater
      · exact ⟨(hpublished.spec hrep).1, (hpublished.spec hrep).2.1⟩
      · exact ih (represented_run hrep [step]) hlater

end block

/-- At any point of a block, the paths belong to the receipts announced in it: a statement of a
published aggregation has a path to the receipt, which verifies, any other statement is not found,
and what was not published in the block is reported as such. -/
theorem statementPath_matches_receipt {tree : MerkleTree} (htree : tree.Lawful cfg.merkleRoot)
    (hS : S ≤ u32Max) (x : X) (before block : List (Step cfg kept)) (hstart : StartsBlock before)
    (hblock : .call .onInitialize ∉ block) :
    let s₀ : State A X T₁ T₂ S M := run (.genesis x) before
    let s := run s₀ block
    (∀ d a aggregation receipt, PublishedIn d a aggregation receipt s₀ block →
      (∀ statement ∈ aggregation.hashes, ∃ p,
        getStatementPath tree d a statement s = .ok p ∧ p.root = receipt ∧ p.leaf = statement ∧
          p.numberOfLeaves = aggregation.statements.toList.length ∧
          tree.verifyProof p.root p.proof p.numberOfLeaves p.leafIndex p.leaf = true) ∧
      (∀ statement ∉ aggregation.hashes,
        getStatementPath tree d a statement s = .error (.notFound d a statement))) ∧
    (∀ d a, (¬ ∃ aggregation receipt, PublishedIn d a aggregation receipt s₀ block) →
      ∀ statement, getStatementPath tree d a statement s = .error (.receiptNotPublished d a)) := by
  intro s₀ s
  have hrep₀ : Represented s₀ := represented_run (Represented.genesis x) before
  have hempty : s₀.published = [] := published_of_startsBlock hstart x
  have hmem : ∀ entry, entry ∈ s.published ↔
      ∃ receipt, PublishedIn entry.1 entry.2.id entry.2 receipt s₀ block := by
    intro entry
    rw [mem_published_run hrep₀ hblock, hempty]
    simp
  have hreachable : Reachable cfg kept s := ⟨x, before ++ block, (run_append _ before block).symm⟩
  refine ⟨?_, ?_⟩
  · intro d a aggregation receipt hpublished
    obtain ⟨rfl, rfl⟩ := hpublished.spec hrep₀
    have hstored : (d, aggregation) ∈ s.published := (hmem _).mpr ⟨_, hpublished⟩
    have hfind := hreachable.find?_published hstored
    constructor
    · intro statement hstatement
      obtain ⟨index, hleaf, hpath⟩ := getStatementPath_of_mem tree hS hfind hstatement
      have hlength : aggregation.hashes.length = aggregation.statements.toList.length :=
        List.length_map _
      exact ⟨_, hpath, htree.root _ _ _ hleaf, htree.leaf _ _ _ hleaf,
        (htree.numberOfLeaves _ _ _ hleaf).trans hlength, htree.verifies _ _ _ hleaf⟩
    · intro statement hstatement
      exact getStatementPath_of_notMem hfind hstatement
  · intro d a hnot statement
    apply getStatementPath_of_none
    rw [List.find?_eq_none]
    intro entry hentry
    simp only [Bool.and_eq_true, decide_eq_true_eq]
    rintro ⟨rfl, rfl⟩
    obtain ⟨receipt, hpublished⟩ := (hmem entry).mp hentry
    exact hnot ⟨entry.2, receipt, hpublished⟩

/-! ## A lawful tree -/

/-- The root of the binary Merkle tree over Keccak. -/
def binaryRoot (H : Hashing) (leaves : List H256) : H256 :=
  Merkle.root (fun a b => H .keccak256 (hashBytes a ++ hashBytes b)) zeroReceipt
    (leaves.map fun leaf => H .keccak256 (hashBytes leaf))

/-- The proofs of the binary Merkle tree over Keccak. -/
def binaryTree (H : Hashing) : MerkleTree where
  merkleProof leaves index :=
    { root := binaryRoot H leaves
      proof := Merkle.path (fun a b => H .keccak256 (hashBytes a ++ hashBytes b))
        (leaves.map fun leaf => H .keccak256 (hashBytes leaf)) index
      numberOfLeaves := leaves.length
      leafIndex := index
      leaf := leaves[index]?.getD zeroReceipt }
  verifyProof root proof numberOfLeaves leafIndex leaf :=
    decide (leafIndex < numberOfLeaves) &&
      decide (Merkle.climb (fun a b => H .keccak256 (hashBytes a ++ hashBytes b)) leafIndex
        numberOfLeaves (H .keccak256 (hashBytes leaf)) proof = root)

theorem binaryTree_lawful (H : Hashing) : (binaryTree H).Lawful (binaryRoot H) where
  root := fun _ _ _ _ => rfl
  leaf := by
    intro leaves index leaf hleaf
    simp [binaryTree, hleaf]
  numberOfLeaves := fun _ _ _ _ => rfl
  verifies := by
    intro leaves index leaf hleaf
    have hlt : index < leaves.length := (List.getElem?_eq_some_iff.mp hleaf).1
    have hnode : (leaves.map fun leaf => H .keccak256 (hashBytes leaf))[index]? =
        some (H .keccak256 (hashBytes leaf)) := by
      rw [List.getElem?_map, hleaf, Option.map_some]
    have hclimb := Merkle.climb_path (fun a b => H .keccak256 (hashBytes a ++ hashBytes b))
      zeroReceipt hnode
    rw [List.length_map] at hclimb
    simp only [binaryTree, binaryRoot, hleaf, Option.getD_some, hlt, hclimb, decide_true,
      Bool.and_self]

/-- A hash that is easy to compute. -/
def sampleDigest : Hashing := fun _ bytes =>
  Vector.replicate 32 (bytes.foldl (fun a b => 2 * a + b + 1) 0)

def sampleTreeConfig : Config ℕ (Book ℕ HoldReason) ℕ ℕ :=
  bookConfig 1 20 (fun _ => 5) (fun footprint => 2 * footprint.count) (binaryRoot sampleDigest)

/-- Two proofs with the same statement complete an aggregation, which is published. -/
def samplePublished : List (Step sampleTreeConfig ∅) :=
  [.call (.registerDomain .root 2 none .untrusted .untrusted ⟨.none, 10, 4⟩ (some 7)),
    .call (.onProofVerified (some 1) (some 0) (Vector.replicate 32 9)),
    .call (.onProofVerified (some 2) (some 0) (Vector.replicate 32 9)),
    .call (.aggregate (.signed 3) 0 1)]

theorem statementPath_matches_receipt_sample :
    let tree := binaryTree sampleDigest
    let s₀ : State ℕ (Book ℕ HoldReason) ℕ ℕ 4 2 := .genesis sampleBook
    ∃ aggregation receipt p, PublishedIn 0 1 aggregation receipt s₀ samplePublished ∧
      getStatementPath tree 0 1 (Vector.replicate 32 9) (run s₀ samplePublished) = .ok p ∧
      p.root = receipt ∧
      tree.verifyProof p.root p.proof p.numberOfLeaves p.leafIndex p.leaf = true := by
  intro tree s₀
  have hblock : .call .onInitialize ∉ samplePublished := by simp [samplePublished]
  have hentry : ∃ entry ∈ (run s₀ samplePublished).published, entry.1 = 0 ∧ entry.2.id = 1 ∧
      Vector.replicate 32 9 ∈ entry.2.hashes := by
    decide
  obtain ⟨⟨d, aggregation⟩, hmem, rfl, hid, hstatement⟩ := hentry
  obtain ⟨receipt, hpublished⟩ :=
    ((mem_published_run (Represented.genesis sampleBook) hblock _).mp hmem).resolve_left
      List.not_mem_nil
  rw [hid] at hpublished
  obtain ⟨p, hpath, hroot, -, -, hverify⟩ :=
    ((statementPath_matches_receipt (binaryTree_lawful sampleDigest) (by decide) sampleBook []
      samplePublished (.inl rfl) hblock).1 0 1 aggregation receipt hpublished).1 _ hstatement
  exact ⟨aggregation, receipt, p, hpublished, hpath, hroot, hverify⟩

end ZkVerify.Aggregate
