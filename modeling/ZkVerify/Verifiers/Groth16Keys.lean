import ZkVerify.Verifiers.ByHash
import ZkVerify.Verifiers.Groth16Inputs

/-!
# The keys that reach the groth16 pairing

`hp_groth16::verify_proof` reads the points of a key without checking them; that they are
on the curve and in the subgroup was checked by `validate_key`, when the key was given or,
for a registered one, when it was stored.

`submitUntilPairing` is `submit_proof` up to the call of `hp_groth16::verify_proof`, with
the curve and the key of that call.  The key passed `validate_key` for the same curve, and
then it makes no difference that its points are read unchecked.
-/

namespace ZkVerify.Verifiers.Groth16

open Frame

/-! ## Checked and unchecked points -/

/-- A conversion that succeeds stays the same when the points are converted more often. -/
theorem VerificationKey.convert_mono {P Q : Type} {g1 g1' : G1 → Option P} {g2 g2' : G2 → Option Q}
    (hg1 : ∀ point p, g1 point = some p → g1' point = some p)
    (hg2 : ∀ point q, g2 point = some q → g2' point = some q) {vk : VerificationKey}
    {key : ArkVerifyingKey P Q} (h : vk.convert g1 g2 = some key) :
    vk.convert g1' g2' = some key := by
  simp only [convert, Option.bind_eq_bind, Option.bind_eq_some_iff] at h ⊢
  obtain ⟨alpha, halpha, beta, hbeta, gamma, hgamma, delta, hdelta, abc, habc, hkey⟩ := h
  exact ⟨alpha, hg1 _ _ halpha, beta, hg2 _ _ hbeta, gamma, hg2 _ _ hgamma, delta,
    hg2 _ _ hdelta, abc, mapM_mono hg1 habc, hkey⟩

theorem PointReader.unchecked_of_read {P : Type} {reader : PointReader P} {bytes : Bytes} {p : P}
    (h : reader.read bytes = some p) : reader.unchecked.read bytes = some p :=
  (Option.filter_eq_some_iff.mp h).1

/-- A key with valid points is the same when it is converted unchecked. -/
theorem VerificationKey.tryIntoArkUnchecked_of_tryInto {E : Pairing} {vk : VerificationKey}
    {key : ArkVerifyingKey E.G1Affine E.G2Affine} (h : vk.tryInto E = some key) :
    vk.tryIntoArkUnchecked E = some key := by
  apply VerificationKey.convert_mono _ _ h
  · intro point p hp
    exact PointReader.unchecked_of_read hp
  · intro point q hq
    exact PointReader.unchecked_of_read hq

theorem hpValidateKey_eq_ok {E : Pairing} {vk : VerificationKey} :
    hpValidateKey E vk = .ok () ↔ ∃ key, vk.tryInto E = some key := by
  unfold hpValidateKey
  cases vk.tryInto E <;> simp

/-! ## The call of the pairing -/

/-- The arguments of `hp_groth16::verify_proof`, and the curve it is instantiated with. -/
structure PairingCall where
  curve : Curve
  vk : VerificationKey
  proof : Proof
  inputs : List Scalar
deriving DecidableEq

/-- The call that `verify_proof` makes when its own checks pass. -/
def pairingCall (maxNumInputs : ℕ) (vk : VerificationKeyWithCurve) (proof : ProofWithCurve)
    (pubs : Pubs) : Except Fault PairingCall := do
  ensure (decide (pubs.length ≤ maxNumInputs)) (.error .invalidInput)
  ensure (decide (pubs.length + 1 = vk.gammaAbcG1.toList.length)) (.error .invalidInput)
  ensure (decide (proof.curve = vk.curve)) (.error .invalidProofData)
  return ⟨vk.curve, vk.vk, proof.proof, pubs⟩

/-- What `hp_groth16::verify_proof` answers to a call. -/
def PairingCall.answer (ark : Curve → Pairing) (call : PairingCall) : Except Fault Bool :=
  hpVerifyProof (ark call.curve) call.vk call.proof call.inputs

variable {A X T : Type}

/-- `submit_proof` until it calls `hp_groth16::verify_proof`. -/
def submitUntilPairing
    (cfg : Config A VerificationKeyWithCurve ProofWithCurve Pubs X T) (maxNumInputs : ℕ)
    (origin : RawOrigin A) (vkOrHash : VkOrHash VerificationKeyWithCurve) (proof : ProofWithCurve)
    (pubs : Pubs) (s : State A VerificationKeyWithCurve X T) :
    Except (Abort Error Panic) (Option A × PairingCall) := do
  ensure (!s.disabled.getD false) (onDisableError cfg)
  let vk ← resolveVk cfg vkOrHash s
  let account ← ensureSignedOrRoot origin
  let call ← check (pairingCall maxNumInputs vk proof pubs)
  return (account, call)

/-- `submit_proof` from the answer of `hp_groth16::verify_proof` on. -/
def submitAfterPairing
    (cfg : Config A VerificationKeyWithCurve ProofWithCurve Pubs X T)
    (vkOrHash : VkOrHash VerificationKeyWithCurve) (proof : ProofWithCurve) (pubs : Pubs)
    (domainId : Option ℕ) (s : State A VerificationKeyWithCurve X T) (account : Option A)
    (accepted : Bool) :
    Except (Abort Error Panic) (Outcome A VerificationKeyWithCurve X T) := do
  check (ensure accepted (.error .verifyError))
  let statement := computeStatementHash cfg.hashing cfg.verifier vkOrHash proof pubs
  let x ← okOr (cfg.onProofVerified account domainId statement s.chain) (.panic .onProofVerified)
  return ({ s with events := s.events ++ [.proofVerified statement], chain := x }, ⟨none, .yes⟩)

variable {H : Hashing} {ark : Curve → Pairing} {maxNumInputs : ℕ}
  {cfg : Config A VerificationKeyWithCurve ProofWithCurve Pubs X T}
  {s : State A VerificationKeyWithCurve X T}

theorem check_bind {α β : Type} (c : Except Fault α) (f : α → Except Fault β) :
    check (c >>= f) = (check c >>= fun a => check (f a)) := by
  cases c with
  | ok a => rfl
  | error fault => cases fault <;> rfl

theorem verifyProof_eq_pairingCall (vk : VerificationKeyWithCurve) (proof : ProofWithCurve)
    (pubs : Pubs) :
    verifyProof ark maxNumInputs vk proof pubs = (do
      let call ← pairingCall maxNumInputs vk proof pubs
      let accepted ← call.answer ark
      ensure accepted (.error .verifyError)
      return none) := by
  unfold verifyProof pairingCall
  simp only [bind_assoc, pure_bind]
  rfl

/-- `submit_proof` calls `hp_groth16::verify_proof` once, where `submitUntilPairing` ends. -/
theorem submitProof_eq_pairing (hverifier : cfg.verifier = verifier H ark maxNumInputs)
    (origin : RawOrigin A) (vkOrHash : VkOrHash VerificationKeyWithCurve) (proof : ProofWithCurve)
    (pubs : Pubs) (domainId : Option ℕ) :
    submitProof cfg origin vkOrHash proof pubs domainId s = (do
      let (account, call) ← submitUntilPairing cfg maxNumInputs origin vkOrHash proof pubs s
      let accepted ← check (call.answer ark)
      submitAfterPairing cfg vkOrHash proof pubs domainId s account accepted) := by
  have hverify : ∀ vk, cfg.verifier.verifyProof vk proof pubs s.chain =
      verifyProof ark maxNumInputs vk proof pubs := by
    intro vk
    rw [hverifier]
    rfl
  unfold submitProof submitUntilPairing submitAfterPairing
  simp only [hverify, verifyProof_eq_pairingCall, check_bind, bind_assoc, pure_bind]
  rfl

/-- The key of the call is the resolved one, and so is its curve. -/
theorem submitUntilPairing_ok {origin : RawOrigin A} {proof : ProofWithCurve} {pubs : Pubs}
    {vkOrHash : VkOrHash VerificationKeyWithCurve} {account : Option A} {call : PairingCall}
    (h : submitUntilPairing cfg maxNumInputs origin vkOrHash proof pubs s = .ok (account, call)) :
    ∃ vk, resolveVk cfg vkOrHash s = .ok vk ∧ call.curve = vk.curve ∧ call.vk = vk.vk := by
  obtain ⟨_, -, h⟩ := seq_eq_ok.mp h
  obtain ⟨vk, hresolve, h⟩ := seq_eq_ok.mp h
  obtain ⟨_, -, h⟩ := seq_eq_ok.mp h
  obtain ⟨made, hmade, h⟩ := seq_eq_ok.mp h
  cases h
  obtain ⟨_, -, hmade⟩ := seq_eq_ok.mp (check_eq_ok.mp hmade)
  obtain ⟨_, -, hmade⟩ := seq_eq_ok.mp hmade
  obtain ⟨_, -, hmade⟩ := seq_eq_ok.mp hmade
  cases hmade
  exact ⟨vk, hresolve, rfl, rfl⟩

variable [DecidableEq A]

/-- `submit_proof` calls `hp_groth16::verify_proof` at most once, as `submitUntilPairing` says.  In
every reachable state the key of this call passes `validate_key` for the curve of the call, and its
unchecked conversion is the checked one. -/
theorem pairing_key_checked (hverifier : cfg.verifier = verifier H ark maxNumInputs)
    (hs : Reachable cfg s) (origin : RawOrigin A)
    (vkOrHash : VkOrHash VerificationKeyWithCurve) (proof : ProofWithCurve) (pubs : Pubs)
    (domainId : Option ℕ) :
    (submitProof cfg origin vkOrHash proof pubs domainId s = do
      let (account, call) ← submitUntilPairing cfg maxNumInputs origin vkOrHash proof pubs s
      let accepted ← check (call.answer ark)
      submitAfterPairing cfg vkOrHash proof pubs domainId s account accepted) ∧
      ∀ account call,
        submitUntilPairing cfg maxNumInputs origin vkOrHash proof pubs s = .ok (account, call) →
          hpValidateKey (ark call.curve) call.vk = .ok () ∧
            ∃ key, call.vk.tryIntoArkUnchecked (ark call.curve) = some key ∧
              call.vk.tryInto (ark call.curve) = some key := by
  refine ⟨submitProof_eq_pairing hverifier origin vkOrHash proof pubs domainId, ?_⟩
  intro account call hcall
  obtain ⟨vk, hresolve, hcurve, hvk⟩ := submitUntilPairing_ok hcall
  obtain ⟨x, hvalid⟩ := hs.resolved_valid hresolve
  rw [hverifier] at hvalid
  have hkey : hpValidateKey (ark call.curve) call.vk = .ok () := by
    rw [hcurve, hvk]
    exact hvalid
  obtain ⟨key, hchecked⟩ := hpValidateKey_eq_ok.mp hkey
  exact ⟨hkey, key, VerificationKey.tryIntoArkUnchecked_of_tryInto hchecked, hchecked⟩

/-- The Keccak-256 hash of `sampleVk`. -/
def sampleVkHash : H256 :=
  h256 0x11d478fa469adbf2b475819a8964f66bcdeaf8a6bf79dc8a98c5343108b14350

/-- The hash functions on `sampleVk`. -/
def sampleHashing : Hashing := fun _ bytes =>
  if bytes = sampleVk.encode then sampleVkHash else h256 0

/-- The pallet of the verifier over the book. -/
def sampleConfig :
    Config ℕ VerificationKeyWithCurve ProofWithCurve Pubs (Book ℕ Unit) ℕ where
  verifier := verifier sampleHashing sampleArk 64
  hashing := sampleHashing
  onProofVerified _ _ _ x := some x
  onProofVerifiedWeight _ := ⟨0, 0⟩
  ticket := Book.consideration () Footprint.size
  weightInfo := ⟨fun _ _ => ⟨0, 0⟩, ⟨0, 0⟩, fun _ => ⟨0, 0⟩, fun _ _ => ⟨0, 0⟩⟩
  dbRead := ⟨0, 0⟩
  onVerifyDisabledVerifier := ⟨0, 0⟩

/-- Account `2` registers `sampleVk`. -/
def sampleRegistered : State ℕ VerificationKeyWithCurve (Book ℕ Unit) ℕ :=
  run sampleConfig (.genesis sampleAccounts) [.call (.registerVk (.signed 2) sampleVk)]

/-- Account `3` submits a proof for the registered key. -/
theorem pairing_key_checked_sample :
    ∃ call, submitUntilPairing sampleConfig 64 (.signed 3) (.hash sampleVkHash)
        (sampleProof sampleG1Times4) samplePubs sampleRegistered = .ok (some 3, call) ∧
      hpValidateKey (sampleArk call.curve) call.vk = .ok () := by
  have hcall : submitUntilPairing sampleConfig 64 (.signed 3) (.hash sampleVkHash)
      (sampleProof sampleG1Times4) samplePubs sampleRegistered =
        .ok (some 3, ⟨.bn254, sampleVk.vk, (sampleProof sampleG1Times4).proof, samplePubs⟩) := by
    decide +kernel
  have hverifier : sampleConfig.verifier = verifier sampleHashing sampleArk 64 := rfl
  have hchecked := pairing_key_checked (s := sampleRegistered) hverifier ⟨sampleAccounts, _, rfl⟩
    (.signed 3) (.hash sampleVkHash) (sampleProof sampleG1Times4) samplePubs none
  exact ⟨_, hcall, (hchecked.2 _ _ hcall).1⟩

end ZkVerify.Verifiers.Groth16
