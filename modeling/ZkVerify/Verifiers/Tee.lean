import ZkVerify.Frame.Codec
import ZkVerify.Verifiers.Pallet

/-!
# The tee verifier

A proof is an attestation of a trusted execution environment.  Whether it is accepted
depends on the time and on the certificates that are revoked, so the checks read the
state of the chain.
-/

namespace ZkVerify.Verifiers.Tee

open Frame

/-- `MAX_VK_LENGTH`. -/
def maxVkLength : ℕ := 65536

/-- `MAX_PROOF_LENGTH`. -/
def maxProofLength : ℕ := 65536

/-- `MAX_PUBS_LENGTH`. -/
def maxPubsLength : ℕ := 0

inductive Vk
  | intel (tcbResponse certificates : ByteVec)
  | nitro
deriving DecidableEq

abbrev Proof := Bytes

abbrev Pubs := Bytes

/-- The configuration and the parts of `tee_verifier` that are used, on a chain with states `X` and
with revocation lists `C`. -/
structure Crate (X C : Type) where
  /-- `UnixTime::now`, in seconds. -/
  now : X → ℕ
  /-- `get_crl`. -/
  getCrl : Bytes → X → Option C
  caNameFor : Vk → Bytes
  /-- `intel_parse_quote` succeeds. -/
  quoteIsReadable : Proof → Bool
  /-- `intel_parse_tcb_response` succeeds. -/
  tcbIsReadable : Bytes → Bool
  tcbInfoVerify : Bytes → ℕ → Bool
  quoteVerify : Proof → Bytes → C → ℕ → Bool
  /-- `nitro_parse_attestation` succeeds. -/
  attestationIsReadable : Proof → Bool
  attestationVerify : Proof → C → ℕ → Bool
  /-- `serde_json_core::from_slice` succeeds. -/
  tcbIsDecodable : Bytes → Bool
  tcbResponseVerify : (tcbResponse certificates : Bytes) → C → ℕ → Bool
  intelVerifyProof : Weight
  nitroVerifyProof : Weight

variable {X C : Type}

/-- The lengths of the parts of an Intel key are in bounds. -/
def lengthsInBounds (tcbResponse certificates : ByteVec) : Bool :=
  decide (tcbResponse.toList.length ≤ maxVkLength) &&
    decide (certificates.toList.length ≤ maxVkLength) &&
    decide (tcbResponse.toList ≠ []) && decide (certificates.toList ≠ [])

/-- `verify_proof`. -/
def verifyProof (crate : Crate X C) (vk : Vk) (proof : Proof) (pubs : Pubs) (x : X) :
    Except Fault (Option Weight) := do
  ensure (decide (proof.length ≤ maxProofLength)) (.error .invalidProofData)
  ensure (decide (pubs.length ≤ maxPubsLength)) (.error .invalidInput)
  let now := crate.now x
  let crl ← okOr (crate.getCrl (crate.caNameFor vk) x) (.error .verifyError)
  match vk with
  | .intel tcbResponse certificates =>
      ensure (lengthsInBounds tcbResponse certificates) (.error .invalidVerificationKey)
      ensure (crate.quoteIsReadable proof) (.error .invalidProofData)
      ensure (crate.tcbIsReadable tcbResponse.toList) (.error .invalidInput)
      ensure (crate.tcbInfoVerify tcbResponse.toList now) (.error .verifyError)
      ensure (crate.quoteVerify proof tcbResponse.toList crl now) (.error .verifyError)
      return some crate.intelVerifyProof
  | .nitro =>
      ensure (crate.attestationIsReadable proof) (.error .invalidProofData)
      ensure (crate.attestationVerify proof crl now) (.error .verifyError)
      return some crate.nitroVerifyProof

/-- `validate_vk`. -/
def validateVk (crate : Crate X C) (vk : Vk) (x : X) : Except Fault Unit :=
  match vk with
  | .intel tcbResponse certificates => do
      ensure (lengthsInBounds tcbResponse certificates) (.error .invalidVerificationKey)
      ensure (crate.tcbIsDecodable tcbResponse.toList) (.error .invalidVerificationKey)
      let now := crate.now x
      let crl ← okOr (crate.getCrl (crate.caNameFor vk) x) (.error .verifyError)
      ensure (crate.tcbResponseVerify tcbResponse.toList certificates.toList crl now)
        (.error .verifyError)
  | .nitro => .error (.error .invalidVerificationKey)

/-- An Intel key is valid when its lengths are in bounds and the crate accepts its parts. -/
theorem validateVk_intel_eq_ok {crate : Crate X C} {tcbResponse certificates : ByteVec} {x : X} :
    validateVk crate (.intel tcbResponse certificates) x = .ok () ↔
      lengthsInBounds tcbResponse certificates = true ∧
      crate.tcbIsDecodable tcbResponse.toList = true ∧
      ∃ entries,
        crate.getCrl (crate.caNameFor (.intel tcbResponse certificates)) x = some entries ∧
        crate.tcbResponseVerify tcbResponse.toList certificates.toList entries (crate.now x) =
          true := by
  simp only [validateVk, seq_eq_ok, ensure_eq_ok, okOr_eq_ok]
  constructor
  · rintro ⟨_, hlengths, _, hdecodable, entries, hentries, hverify⟩
    exact ⟨hlengths, hdecodable, entries, hentries, hverify⟩
  · rintro ⟨hlengths, hdecodable, entries, hentries, hverify⟩
    exact ⟨(), hlengths, (), hdecodable, entries, hentries, hverify⟩

/-- `encode` of a key. -/
def Vk.encode : Vk → Bytes
  | .intel tcbResponse certificates => 0 :: (encodeVec tcbResponse ++ encodeVec certificates)
  | .nitro => [1]

/-- The verifier `Tee`. -/
def verifier (H : Hashing) (crate : Crate X C) : Verifier Vk Proof Pubs X where
  hashContextData := ascii ['t', 'e', 'e']
  verifyProof := verifyProof crate
  validateVk := validateVk crate
  encodeVk := Vk.encode
  vkHash vk := H .keccak256 vk.encode
  pubsBytes pubs := pubs
  verifierVersionHash _ := noVersionHash

theorem Vk.encode_injective : Function.Injective Vk.encode := by
  intro vk vk' h
  cases vk with
  | nitro =>
      cases vk' with
      | nitro => rfl
      | intel => exact absurd (List.cons.inj h).1 (by decide)
  | intel tcbResponse certificates =>
      cases vk' with
      | nitro => exact absurd (List.cons.inj h).1 (by decide)
      | intel tcbResponse' certificates' =>
          have hparts : (tcbResponse, certificates) = (tcbResponse', certificates') :=
            (delimited_encodeVec.append delimited_encodeVec).injective (List.cons.inj h).2
          obtain ⟨rfl, rfl⟩ := Prod.mk.inj hparts
          rfl

end ZkVerify.Verifiers.Tee
