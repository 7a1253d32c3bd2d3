import ZkVerify.Verifiers.ByHash

/-!
# The degree bits of a plonky2 key

`verify_proof` looks up its weight in a table before it verifies the proof, and the lookup
panics when the table has no entry for the degree bits of the key.  The table starts at 1;
`validate_vk` only bounds the degree bits from above.  So a key with zero degree bits is
valid, and every proof for it that keeps to the size limits makes `verify_proof` panic.

`submit_panics_iff` says that this is the only way: a submission panics in the verifier
exactly if its key has zero degree bits and the table is reached.
-/

namespace ZkVerify.Verifiers.Plonky2

open Frame

variable {crate : Crate} {vk : Vk} {proof : Proof} {pubs : Pubs}

/-! ## One check -/

/-- The table of weights has an entry for the key, or it is not looked up because the proof or the
public inputs are too large. -/
def WeightFound (crate : Crate) (vk : Vk) (proof : Proof) (pubs : Pubs) : Prop :=
  crate.degreeBits vk.config vk.bytes.toList ≠ some 0 ∨
    crate.maxProofSize < proof.bytes.toList.length ∨ crate.maxPubsSize < pubs.length

/-- The table has an entry for all degree bits from 1 to the bound. -/
theorem exists_computeWeight (crate : Crate) {degreeBits : ℕ} (hpos : degreeBits ≠ 0)
    (hle : degreeBits ≤ maxDegreeBits) (config : Plonky2Config) :
    ∃ w, computeWeight crate degreeBits config = .ok w := by
  unfold maxDegreeBits at hle
  unfold computeWeight
  split_ifs with hone hrange
  · exact ⟨_, rfl⟩
  · exact ⟨_, rfl⟩
  · omega

theorem ensure_ne_panic {b : Bool} {e : VerifyError} :
    (ensure b (.error e) : Except Fault Unit) ≠ .error .panic := by
  cases b <;> simp

/-- What is known of a valid key. -/
theorem validateVk_eq_ok (h : validateVk crate vk = .ok ()) :
    vk.validateSize crate = .ok () ∧
      ∃ n, crate.degreeBits vk.config vk.bytes.toList = some n ∧ n ≤ maxDegreeBits := by
  obtain ⟨_, hsize, h⟩ := seq_eq_ok.mp h
  obtain ⟨n, hn, h⟩ := seq_eq_ok.mp h
  have hchecks := ensure_eq_ok.mp h
  simp only [Bool.and_eq_true, decide_eq_true_eq] at hchecks
  exact ⟨hsize, n, okOr_eq_ok.mp hn, hchecks.1⟩

theorem validateVk_ne_panic (crate : Crate) (vk : Vk) : validateVk crate vk ≠ .error .panic := by
  unfold validateVk Vk.validateSize
  cases decide (vk.bytes.toList.length ≤ crate.maxVkSize) with
  | false => simp
  | true =>
      cases crate.degreeBits vk.config vk.bytes.toList with
      | none => simp
      | some n => exact ensure_ne_panic

/-- The verification for a valid key panics exactly if the table has no entry for it. -/
theorem verifyProof_eq_panic (hvalid : validateVk crate vk = .ok ()) :
    verifyProof crate vk proof pubs = .error .panic ↔ ¬ WeightFound crate vk proof pubs := by
  obtain ⟨hsize, n, hn, hle⟩ := validateVk_eq_ok hvalid
  unfold verifyProof WeightFound
  rw [hsize, hn]
  by_cases hproof : proof.bytes.toList.length ≤ crate.maxProofSize
  · by_cases hpubs : pubs.length ≤ crate.maxPubsSize
    · by_cases hzero : n = 0
      · simp [hproof, hpubs, hzero, computeWeight]
      · obtain ⟨w, hweight⟩ := exists_computeWeight crate hzero hle vk.config
        cases crate.verify vk proof pubs <;>
          simp [hproof, hpubs, hzero, hweight, pure, Except.pure]
    · simp [hproof, hpubs, Nat.lt_of_not_le hpubs]
  · simp [hproof, Nat.lt_of_not_le hproof]

/-! ## Submissions -/

variable {A X T : Type} {H : Hashing} {cfg : Config A Vk Proof Pubs X T} {s : State A Vk X T}

/-- The check of a key never panics. -/
theorem resolveVk_ne_panic (hverifier : cfg.verifier = verifier H crate) (vkOrHash : VkOrHash Vk) :
    resolveVk cfg vkOrHash s ≠ .error (.panic .verifier) := by
  cases vkOrHash with
  | hash h =>
      cases hlookup : s.vks.lookup h <;> simp [resolveVk, hlookup, Abort.of]
  | vk vk =>
      intro hpanic
      have hcheck : check (cfg.verifier.validateVk vk s.chain) = .error (.panic .verifier) := by
        unfold resolveVk at hpanic
        cases hvalid : check (cfg.verifier.validateVk vk s.chain) with
        | error e => simpa [hvalid] using hpanic
        | ok u => simp [hvalid, pure, Except.pure] at hpanic
      rw [check_eq_panic, hverifier] at hcheck
      exact validateVk_ne_panic crate vk hcheck

variable [DecidableEq A]

theorem submit_panics_iff (hverifier : cfg.verifier = verifier H crate) (hs : Reachable cfg s)
    {origin : RawOrigin A} {vkOrHash : VkOrHash Vk} {domainId : Option ℕ} :
    submitProof cfg origin vkOrHash proof pubs domainId s = .error (.panic .verifier) ↔
      s.disabled.getD false = false ∧ origin ≠ .none ∧
        ∃ vk, resolveVk cfg vkOrHash s = .ok vk ∧ ¬ WeightFound crate vk proof pubs := by
  rw [submitProof_eq_panic, or_iff_right (resolveVk_ne_panic hverifier vkOrHash)]
  apply and_congr_right
  intro _
  apply and_congr_right
  intro _
  apply exists_congr
  intro vk
  apply and_congr_right
  intro hresolve
  obtain ⟨x, hvalid⟩ := hs.resolved_valid hresolve
  rw [hverifier] at hvalid ⊢
  exact verifyProof_eq_panic hvalid

/-- The verification for a valid key does not panic exactly if the table of weights has an entry for
the key or is not looked up.  A submission in a reachable state does not panic in the verifier
exactly if this holds of its key when the proof is verified at all.  In particular no submission
panics there if neither its own key nor a key that was to be registered has zero degree bits. -/
theorem verify_ne_panic_iff (hverifier : cfg.verifier = verifier H crate) :
    (∀ vk proof pubs, validateVk crate vk = .ok () →
      (verifyProof crate vk proof pubs ≠ .error .panic ↔ WeightFound crate vk proof pubs)) ∧
      (∀ s, Reachable cfg s → ∀ origin vkOrHash proof pubs domainId,
        (submitProof cfg origin vkOrHash proof pubs domainId s ≠ .error (.panic .verifier) ↔
          (s.disabled.getD false = false → origin ≠ .none → ∀ vk,
            resolveVk cfg vkOrHash s = .ok vk → WeightFound crate vk proof pubs))) ∧
      ∀ x steps, (∀ origin vk, .call (.registerVk origin vk) ∈ steps →
          crate.degreeBits vk.config vk.bytes.toList ≠ some 0) →
        ∀ origin vkOrHash proof pubs domainId,
          (∀ vk, vkOrHash = .vk vk → crate.degreeBits vk.config vk.bytes.toList ≠ some 0) →
          submitProof cfg origin vkOrHash proof pubs domainId (run cfg (.genesis x) steps) ≠
            .error (.panic .verifier) := by
  have hsubmit : ∀ s, Reachable cfg s → ∀ origin vkOrHash proof pubs domainId,
      (submitProof cfg origin vkOrHash proof pubs domainId s ≠ .error (.panic .verifier) ↔
        (s.disabled.getD false = false → origin ≠ .none → ∀ vk,
          resolveVk cfg vkOrHash s = .ok vk → WeightFound crate vk proof pubs)) := by
    intro s hs origin vkOrHash proof pubs domainId
    rw [ne_eq, submit_panics_iff hverifier hs]
    simp only [not_and, not_exists, not_not]
  refine ⟨?_, hsubmit, ?_⟩
  · intro vk proof pubs hvalid
    rw [ne_eq, verifyProof_eq_panic hvalid, not_not]
  · intro x steps hregistered origin vkOrHash proof pubs domainId hgiven
    apply (hsubmit _ ⟨x, steps, rfl⟩ origin vkOrHash proof pubs domainId).mpr
    intro _ _ vk hresolve
    left
    cases vkOrHash with
    | vk given =>
        obtain ⟨_, _, hvk⟩ := seq_eq_ok.mp hresolve
        cases hvk
        exact hgiven vk rfl
    | hash h =>
        obtain ⟨entry, hlookup, rfl⟩ := resolveVk_hash_eq_ok.mp hresolve
        obtain ⟨who, hmem⟩ := registered_of_stored x steps hlookup
        exact hregistered who entry.vk hmem

/-- The degree bits of a key are its first byte. -/
def sampleCrate : Crate where
  maxProofSize := 100
  maxPubsSize := 32
  maxVkSize := 50
  degreeBits _ bytes := bytes.head?.map UInt8.toNat
  isStandard _ _ := true
  verify _ _ _ := true
  verifyProofUncompressed _ n := ⟨n, 0⟩

/-- The pallet of the verifier over the book. -/
def sampleConfig : Config ℕ Vk Proof Pubs (Book ℕ Unit) ℕ where
  verifier := verifier sampleHashing sampleCrate
  hashing := sampleHashing
  onProofVerified _ _ _ x := some x
  onProofVerifiedWeight _ := ⟨0, 0⟩
  ticket := Book.consideration () Footprint.size
  weightInfo := ⟨fun _ _ => ⟨0, 0⟩, ⟨0, 0⟩, fun _ => ⟨0, 0⟩, fun _ _ => ⟨0, 0⟩⟩
  dbRead := ⟨0, 0⟩
  onVerifyDisabledVerifier := ⟨0, 0⟩

/-- A key with the given degree bits. -/
def sampleVk (degreeBits : UInt8) : Vk := ⟨.poseidon, ⟨[degreeBits], (by decide : 1 ≤ u32Max)⟩⟩

/-- A proof of one byte. -/
def sampleProof : Proof := ⟨⟨[7], by decide⟩⟩

theorem verify_ne_panic_sample :
    validateVk sampleCrate (sampleVk 19) = .ok () ∧
      verifyProof sampleCrate (sampleVk 19) sampleProof [] ≠ .error .panic := by
  have hvalid : validateVk sampleCrate (sampleVk 19) = .ok () := by decide
  have hfound : WeightFound sampleCrate (sampleVk 19) sampleProof [] := .inl (by decide)
  have hverifier : sampleConfig.verifier = verifier sampleHashing sampleCrate := rfl
  exact ⟨hvalid, ((verify_ne_panic_iff hverifier).1 _ _ _ hvalid).mpr hfound⟩

/-- A key with zero degree bits is valid.  A proof for it makes the verification panic, with the key
itself and with its hash once it is registered. -/
theorem zero_degree_bits_panic :
    validateVk sampleCrate (sampleVk 0) = .ok () ∧
      verifyProof sampleCrate (sampleVk 0) sampleProof [] = .error .panic ∧
      submitProof sampleConfig (.signed 1) (.vk (sampleVk 0)) sampleProof [] none
        (.genesis sampleAccounts) = .error (.panic .verifier) ∧
      submitProof sampleConfig (.signed 1) (.hash (h256 0)) sampleProof [] none
        (run sampleConfig (.genesis sampleAccounts)
          [.call (.registerVk (.signed 2) (sampleVk 0))]) = .error (.panic .verifier) := by
  refine ⟨by decide, by decide, ?_, ?_⟩
  · rw [submitProof_eq_panic]
    exact ⟨rfl, .inr ⟨by decide, sampleVk 0, by decide, by decide⟩⟩
  · rw [submitProof_eq_panic]
    exact ⟨by decide +kernel, .inr ⟨by decide, sampleVk 0, by decide +kernel, by decide⟩⟩

end ZkVerify.Verifiers.Plonky2
