import ZkVerify.Aggregate.Disclosure
import ZkVerify.Aggregate.PathSoundness
import ZkVerify.Chain.Verified

/-!
# What a light client learns

A light client knows a receipt and does not follow the chain.  It is shown a path, computes a
statement by itself from the name of a verifier, the hash of a key, a version and public inputs, and
climbs from the statement to the receipt.

`path_sound` says what it then knows: an account submitted a proof to that verifier, for the
domain of the receipt, and the verifier accepted it against a key with that hash, for that version
and for those public inputs.  Position and number of leaves are as the client is told; they do not
matter.  The Merkle tree is a parameter, as far as it is sound.  A hash function has collisions, so
this is relative to the strings that are hashed by the client, for the receipt and for the
statements of the run.

`path_complete` is the converse, and here no collision can do harm: every statement that the chain
has announced for an aggregation has a path, and no publisher can keep it from the client.
-/

namespace ZkVerify.Chain

open Frame

variable {A X C T T₁ T₂ : Type} {H : Hashing}

/-! ## Statements -/

/-- The name of the verifier of a settlement pallet. -/
def Settlement.context : Settlement → Bytes
  | .groth16 => ascii ['g', 'r', 'o', 't', 'h', '1', '6']
  | .other kind => kind.context

theorem Settlement.context_injective : Function.Injective Settlement.context := by
  have hgroth16 : ∀ kind, Settlement.groth16.context ≠ (Settlement.other kind).context := by
    intro kind
    cases kind <;> decide
  intro j k h
  cases j with
  | groth16 =>
      cases k with
      | groth16 => rfl
      | other kind => exact absurd h (hgroth16 kind)
  | other kind =>
      cases k with
      | groth16 => exact absurd h.symm (hgroth16 kind)
      | other kind' => rw [Verifiers.Kind.context_injective h]

/-- What a statement commits to. -/
structure Commitment where
  settlement : Settlement
  vkHash : H256
  versionHash : H256
  pubs : Bytes

namespace Commitment

/-- The string whose hash is the statement. -/
def preimage (H : Hashing) (c : Commitment) : Bytes :=
  hashBytes (H .keccak256 c.settlement.context) ++ hashBytes c.vkHash ++
    hashBytes c.versionHash ++ hashBytes (H .keccak256 c.pubs)

/-- The statement. -/
def statement (H : Hashing) (c : Commitment) : H256 := H .keccak256 (c.preimage H)

/-- Everything that is hashed for the statement, except for the key. -/
def hashInputs (H : Hashing) (c : Commitment) : List (HashFunction × Bytes) :=
  [(.keccak256, c.preimage H), (.keccak256, c.settlement.context), (.keccak256, c.pubs)]

/-- The statement determines what it commits to. -/
theorem statement_inj {c c' : Commitment}
    (hno : H.NoCollisions (c.hashInputs H ++ c'.hashInputs H))
    (h : c.statement H = c'.statement H) : c = c' := by
  have hkeccak : ∀ u v, (.keccak256, u) ∈ c.hashInputs H → (.keccak256, v) ∈ c'.hashInputs H →
      H .keccak256 u = H .keccak256 v → u = v := fun u v hu hv h =>
    congrArg Prod.snd (hno _ (List.mem_append_left _ hu) _ (List.mem_append_right _ hv) h)
  have hpreimage := hkeccak (c.preimage H) (c'.preimage H) (by simp [hashInputs])
    (by simp [hashInputs]) h
  have hdelimited : Delimited hashBytes := delimited_toList 32
  unfold preimage at hpreimage
  simp only [List.append_assoc] at hpreimage
  obtain ⟨hcontext, hpreimage⟩ := hdelimited _ _ _ _ hpreimage
  obtain ⟨hvk, hpreimage⟩ := hdelimited _ _ _ _ hpreimage
  obtain ⟨hversion, hpubs⟩ := hdelimited _ _ _ _ hpreimage
  obtain ⟨k, vkHash, versionHash, pubs⟩ := c
  obtain ⟨k', vkHash', versionHash', pubs'⟩ := c'
  obtain rfl : k = k' := Settlement.context_injective
    (hkeccak _ _ (by simp [hashInputs]) (by simp [hashInputs]) hcontext)
  obtain rfl : pubs = pubs' :=
    hkeccak _ _ (by simp [hashInputs]) (by simp [hashInputs]) (hdelimited.injective hpubs)
  cases hvk
  cases hversion
  rfl

end Commitment

/-! ## The client -/

section client

variable [DecidableEq A] {cfg : Config A X C T T₁ T₂} {kept : Set RuntimeHoldReason}

omit [DecidableEq A] in
theorem hashContextData_eq (k : Settlement) :
    (cfg.verifier k).hashContextData = k.context := by
  cases k with
  | groth16 => rfl
  | other kind =>
      have hkind : (kind.verifier cfg.hashing cfg.crates).hashContextData = kind.context :=
        kind.hashContextData_eq
      exact hkind

/-- What the statement of a submission commits to. -/
def Config.commitment (cfg : Config A X C T T₁ T₂) (k : Settlement)
    (vkOrHash : Verifiers.VkOrHash k.Vk) (proof : k.Proof) (pubs : k.Pubs) : Commitment where
  settlement := k
  vkHash := vkOrHash.toHash (cfg.verifier k)
  versionHash := (cfg.verifier k).verifierVersionHash proof
  pubs := (cfg.verifier k).pubsBytes pubs

omit [DecidableEq A] in
theorem computeStatementHash_eq_commitment (k : Settlement) (vkOrHash : Verifiers.VkOrHash k.Vk)
    (proof : k.Proof) (pubs : k.Pubs) :
    Verifiers.computeStatementHash cfg.hashing (cfg.verifier k) vkOrHash proof pubs =
      (cfg.commitment k vkOrHash proof pubs).statement cfg.hashing := by
  rw [Verifiers.computeStatementHash_eq, Verifiers.statementPreimage, hashContextData_eq]
  rfl

/-- Everything that is hashed for the statement of the submission that a step makes. -/
def Step.hashInputs : Step cfg kept → List (HashFunction × Bytes)
  | .call (.settlement k (.submitProof _ vkOrHash proof pubs _)) =>
      (cfg.commitment k vkOrHash proof pubs).hashInputs cfg.hashing
  | _ => []

/-- A path from a statement to a receipt proves that the statement is true.  If a client computes a
statement from a verifier, the hash of a key, a version and public inputs, and is given a path from
it to a receipt of the chain, then some account has submitted a proof to this verifier for the
domain of the receipt, and the verifier accepted it against a key with this hash, for this version
and these public inputs. -/
theorem path_sound (x : X) (steps : List (Step cfg kept)) {d a : ℕ} {receipt : H256}
    (hreceipt : .newAggregationReceipt d a receipt ∈
      (run (.genesis x : State A X T T₁ T₂) steps).aggregate.events)
    {inputs : Aggregate.MerkleInputs}
    (htree : cfg.merkleTree.Sound cfg.merkleRoot cfg.hashing inputs) (c : Commitment)
    {path : List H256} {numberOfLeaves leafIndex : ℕ}
    (hpath : cfg.merkleTree.verifyProof receipt path numberOfLeaves leafIndex
      (c.statement cfg.hashing) = true)
    (hno : cfg.hashing.NoCollisions (c.hashInputs cfg.hashing ++
      inputs.path path numberOfLeaves leafIndex (c.statement cfg.hashing) ++
      inputs.root (Aggregate.proofs d a
        (run (.genesis x : State A X T T₁ T₂) steps).aggregate.events) ++
      steps.flatMap Step.hashInputs)) :
    ∃ before after who vkOrHash proof pubs vk weight,
      steps = before ++ .call (.settlement c.settlement
        (.submitProof (.signed who) vkOrHash proof pubs (some d))) :: after ∧
      Verifiers.resolveVk (cfg.verifiers c.settlement) vkOrHash
        ((run (.genesis x : State A X T T₁ T₂) before).view c.settlement) = .ok vk ∧
      (cfg.verifier c.settlement).verifyProof vk proof pubs
        (run (.genesis x : State A X T T₁ T₂) before).aggregate = .ok weight ∧
      (cfg.verifier c.settlement).vkHash vk = c.vkHash ∧
      (cfg.verifier c.settlement).verifierVersionHash proof = c.versionHash ∧
      (cfg.verifier c.settlement).pubsBytes pubs = c.pubs := by
  have hs : Reachable cfg kept (run (.genesis x : State A X T T₁ T₂) steps) := ⟨x, steps, rfl⟩
  obtain ⟨hne, rfl⟩ := hs.aggregate.receipt_eq hreceipt
  -- The path starts at a leaf, and the leaves are statements of submissions.
  have hleaf : c.statement cfg.hashing ∈ Aggregate.proofs d a
      (run (.genesis x : State A X T T₁ T₂) steps).aggregate.events := by
    refine htree _ _ _ _ _ hne (hno.mono ?_) hpath
    intro input hinput
    rcases List.mem_append.mp hinput with hinput | hinput <;> simp [hinput]
  obtain ⟨v, hv, hstatement⟩ :=
    List.mem_map.mp ((proofs_sublist_log x steps d a).subset hleaf)
  obtain ⟨hlog, hfor⟩ := List.mem_filter.mp hv
  obtain ⟨haccount, hdomain⟩ := Verified.isFor_eq_true.mp hfor
  obtain ⟨before, step, after, hsteps, hverified⟩ := mem_log.mp hlog
  obtain ⟨k, origin, vkOrHash, proof, pubs, domainId, vk, weight, rfl, rfl, hresolve, hverify⟩ :=
    mem_verified hverified
  -- A statement determines what it commits to.
  rw [computeStatementHash_eq_commitment] at hstatement
  obtain rfl : cfg.commitment k vkOrHash proof pubs = c := by
    refine Commitment.statement_inj (hno.mono ?_) hstatement
    intro input hinput
    rcases List.mem_append.mp hinput with hinput | hinput
    · have hstep : input ∈ Step.hashInputs (.call (.settlement k
          (.submitProof origin vkOrHash proof pubs domainId)) : Step cfg kept) := hinput
      refine List.mem_append_right _ (List.mem_flatMap.mpr ⟨_, ?_, hstep⟩)
      rw [hsteps]
      exact List.mem_append_right _ List.mem_cons_self
    · simp [hinput]
  have hreachable : Reachable cfg kept (run (.genesis x : State A X T T₁ T₂) before) :=
    ⟨x, before, rfl⟩
  obtain ⟨who, rfl⟩ : ∃ who, origin = .signed who := by
    cases origin with
    | signed who => exact ⟨who, rfl⟩
    | root | none => exact absurd rfl haccount
  obtain rfl : domainId = some d := hdomain
  exact ⟨before, after, who, vkOrHash, proof, pubs, vk, weight, hsteps, hresolve, hverify,
    (Verifiers.resolveVk_hash (hreachable.view k) hresolve).symm, rfl, rfl⟩

/-- The commitment of the first of the sample proofs. -/
def sampleCommitment : Commitment where
  settlement := .other .sp1
  vkHash := sampleKey
  versionHash := Verifiers.noVersionHash
  pubs := [7, 7]

/-- The path from the first statement to the receipt: the node of the second one. -/
def samplePath : List H256 :=
  (sampleStatements.drop 1).map fun statement => sampleHashing .keccak256 (hashBytes statement)

theorem samplePath_verifies :
    sampleConfig.merkleTree.verifyProof sampleReceipt samplePath 2 0
      (sampleCommitment.statement sampleHashing) = true := by
  decide +kernel

theorem path_sound_sample :
    ∃ before after who vkOrHash proof pubs vk weight,
      sampleSteps = before ++ .call (.settlement (.other .sp1)
        (.submitProof (.signed who) vkOrHash proof pubs (some 0))) :: after ∧
      Verifiers.resolveVk (sampleConfig.verifiers (.other .sp1)) vkOrHash
        ((run (.genesis sampleBook : State ℕ (Book ℕ RuntimeHoldReason) ℕ ℕ ℕ) before).view
          (.other .sp1)) = .ok vk ∧
      (sampleConfig.verifier (.other .sp1)).verifyProof vk proof pubs
        (run (.genesis sampleBook : State ℕ (Book ℕ RuntimeHoldReason) ℕ ℕ ℕ) before).aggregate =
          .ok weight ∧
      (sampleConfig.verifier (.other .sp1)).vkHash vk =
        sampleKey ∧
      (sampleConfig.verifier (.other .sp1)).verifierVersionHash proof =
        Verifiers.noVersionHash ∧
      (sampleConfig.verifier (.other .sp1)).pubsBytes pubs =
        [7, 7] :=
  path_sound sampleBook sampleSteps sampleSteps_receipt (Aggregate.binaryTree_sound sampleHashing)
    sampleCommitment samplePath_verifies (by decide +kernel)

/-- Every statement that was announced for an aggregation has a path to one receipt.  Either this
receipt is announced, or the root origin can publish it with one call, after which the path can be
requested, leads from the statement to the receipt and is accepted. -/
theorem path_complete (htree : cfg.merkleTree.Lawful cfg.merkleRoot) (x : X)
    (steps : List (Step cfg kept)) {statement : H256} {d a : ℕ}
    (hproof : .newProof statement d a ∈
      (run (.genesis x : State A X T T₁ T₂) steps).aggregate.events) :
    let s := run (.genesis x : State A X T T₁ T₂) steps
    let tree := cfg.merkleTree
    let receipt := cfg.merkleRoot (Aggregate.proofs d a s.aggregate.events)
    (∃ path numberOfLeaves leafIndex,
        tree.verifyProof receipt path numberOfLeaves leafIndex statement = true) ∧
      (.newAggregationReceipt d a receipt ∈ s.aggregate.events ∨
        ∃ p, let s' := exec s (.call (.aggregate (.aggregate .root d a) (by simp)) : Step cfg kept)
          .newAggregationReceipt d a receipt ∈ s'.aggregate.events ∧
          Aggregate.getStatementPath tree d a statement s'.aggregate = .ok p ∧
          p.root = receipt ∧ p.leaf = statement ∧
          tree.verifyProof p.root p.proof p.numberOfLeaves p.leafIndex p.leaf = true) := by
  intro s tree receipt
  have hs : Reachable cfg kept s := ⟨x, steps, rfl⟩
  have hleaf : statement ∈ Aggregate.proofs d a s.aggregate.events :=
    Aggregate.mem_proofs.mpr hproof
  constructor
  · obtain ⟨index, hindex⟩ := List.getElem?_of_mem hleaf
    have hverifies := htree.verifies _ _ _ hindex
    dsimp only at hverifies
    rw [htree.root _ _ _ hindex, htree.leaf _ _ _ hindex] at hverifies
    exact ⟨_, _, _, hverifies⟩
  · have hroot : cfg.aggregate.managerOrigin .root = true := rfl
    refine (hs.aggregate.disclosed (by decide) htree hroot (fun _ _ _ _ _ _ _ => rfl)
      hleaf).imp_right ?_
    rintro ⟨s', info, p, hok, hpublished, hpath⟩
    have hexec : (exec s (.call (.aggregate (.aggregate .root d a) (by simp)) :
        Step cfg kept)).aggregate = s' := by
      simp only [exec, hok]
    exact ⟨p, by rw [hexec]; exact hpublished, by rw [hexec]; exact hpath⟩

theorem path_complete_sample :
    let s := run (.genesis sampleBook : State ℕ (Book ℕ RuntimeHoldReason) ℕ ℕ ℕ)
      (sampleSteps.take 4)
    let tree := sampleConfig.merkleTree
    let receipt := sampleConfig.merkleRoot (Aggregate.proofs 0 1 s.aggregate.events)
    let statement := sampleCommitment.statement sampleHashing
    (∃ path numberOfLeaves leafIndex,
        tree.verifyProof receipt path numberOfLeaves leafIndex statement = true) ∧
      (.newAggregationReceipt 0 1 receipt ∈ s.aggregate.events ∨
        ∃ p, let s' := exec s (.call (.aggregate (.aggregate .root 0 1) (by simp)) :
            Step sampleConfig Set.univ)
          .newAggregationReceipt 0 1 receipt ∈ s'.aggregate.events ∧
          Aggregate.getStatementPath tree 0 1 statement s'.aggregate = .ok p ∧
          p.root = receipt ∧ p.leaf = statement ∧
          tree.verifyProof p.root p.proof p.numberOfLeaves p.leafIndex p.leaf = true) :=
  path_complete (Aggregate.binaryTree_lawful sampleHashing) sampleBook (sampleSteps.take 4)
    (by decide +kernel)

end client

end ZkVerify.Chain
