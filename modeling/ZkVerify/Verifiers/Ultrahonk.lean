import ZkVerify.Verifiers.Plonk

/-!
# The ultrahonk verifier

Keys and proofs carry the version of the protocol.  A legacy key is hashed as it was
before there were versions: its raw bytes, with SHA-256.  The keys of the other versions
are encoded with a prefix that says which version it is and hashed with Keccak-256.  So
two keys with the same hash have the same version, unless the two hash functions
collide with each other.
-/

namespace ZkVerify.Verifiers.Ultrahonk

open Frame

variable {X : Type}

/-! ## Formats -/

/-- `VK_SIZE` of version 0.84. -/
def vkSizeV0_84 : ℕ := 1760

/-- `VK_SIZE` of version 3.0. -/
def vkSizeV3_0 : ℕ := 1888

/-- The lengths of the two kinds of proofs of version 0.84. -/
def zkProofSizeV0_84 : ℕ := 15712

/-- See `zkProofSizeV0_84`. -/
def plainProofSizeV0_84 : ℕ := 14080

/-- `MIN_BENCHMARKED_LOG_CIRCUIT_SIZE`. -/
def minBenchmarkedLogCircuitSize : ℕ := 7

/-- `MAX_BENCHMARKED_LOG_CIRCUIT_SIZE`. -/
def maxBenchmarkedLogCircuitSize : ℕ := 25

inductive ProofType
  | zk
  | plain
deriving DecidableEq, Repr

inductive Proof
  | zk (bytes : Bytes)
  | plain (bytes : Bytes)
deriving DecidableEq

/-- `ProofType::from`. -/
def Proof.proofType : Proof → ProofType
  | .zk _ => .zk
  | .plain _ => .plain

inductive ProtocolVersion
  | v0_84
  | v3_0
  | legacy
deriving DecidableEq, Repr

inductive VersionedProof
  | v0_84 (proof : Proof)
  | v3_0 (proof : Proof)
  | legacy (proof : Proof)
deriving DecidableEq

/-- `ProtocolVersion::from`. -/
def VersionedProof.version : VersionedProof → ProtocolVersion
  | .v0_84 _ => .v0_84
  | .v3_0 _ => .v3_0
  | .legacy _ => .legacy

inductive VersionedVk
  | v0_84 (bytes : Vector UInt8 vkSizeV0_84)
  | v3_0 (bytes : Vector UInt8 vkSizeV3_0)
  | legacy (bytes : Vector UInt8 vkSizeV0_84)
deriving DecidableEq

abbrev Pubs := PubsList

/-- The configuration and the parts of the two `ultrahonk_no_std` crates that are used. -/
structure Crate where
  maxPubs : ℕ
  keyIsValidV0_84 : Vector UInt8 vkSizeV0_84 → Bool
  keyIsValidV3_0 : Vector UInt8 vkSizeV3_0 → Bool
  verifyV0_84 : Vector UInt8 vkSizeV0_84 → Proof → Pubs → Except CrateError Unit
  verifyV3_0 : Vector UInt8 vkSizeV3_0 → Proof → Pubs → Except CrateError Unit
  extractLogCircuitSize : Vector UInt8 vkSizeV3_0 → Option ℕ
  verifyZkProofV3_0 : ℕ → Weight
  verifyPlainProofV3_0 : ℕ → Weight

/-! ## Checks -/

/-- The conversion of a proof to the format of version 0.84, which has fixed lengths. -/
def Proof.fitsV0_84 : Proof → Bool
  | .zk bytes => decide (bytes.length = zkProofSizeV0_84)
  | .plain bytes => decide (bytes.length = plainProofSizeV0_84)

/-- `valid_log_circuit_size`. -/
def validLogCircuitSize (crate : Crate) (vk : Vector UInt8 vkSizeV3_0) : Except Fault ℕ := do
  let logCircuitSize ← okOr (crate.extractLogCircuitSize vk) (.error .invalidVerificationKey)
  ensure (decide (logCircuitSize ≤ maxBenchmarkedLogCircuitSize)) (.error .invalidVerificationKey)
  return logCircuitSize

/-- `compute_weight`. -/
def computeWeight (crate : Crate) (version : ProtocolVersion) (proofType : ProofType)
    (logCircuitSize : ℕ) : Except Fault Weight :=
  match version, proofType, max logCircuitSize minBenchmarkedLogCircuitSize with
  | .v3_0, .zk, logN => .ok (crate.verifyZkProofV3_0 logN)
  | .v3_0, .plain, logN => .ok (crate.verifyPlainProofV3_0 logN)
  | _, _, _ => .error .panic

/-- The first branch of `verify_proof`: version 0.84, also for legacy keys. -/
def verifyV0_84 (crate : Crate) (vk : Vector UInt8 vkSizeV0_84) (proof : Proof) (pubs : Pubs) :
    Except Fault (Option Weight) := do
  ensure proof.fitsV0_84 (.error .invalidProofData)
  CrateError.mapErr (crate.verifyV0_84 vk proof pubs)
  return none

/-- `verify_proof`. -/
def verifyProof (crate : Crate) (vk : VersionedVk) (proof : VersionedProof) (pubs : Pubs) :
    Except Fault (Option Weight) := do
  ensure (decide (pubs.length ≤ crate.maxPubs)) (.error .invalidInput)
  match proof, vk with
  | .v0_84 inner, .v0_84 bytes => verifyV0_84 crate bytes inner pubs
  | .legacy inner, .legacy bytes => verifyV0_84 crate bytes inner pubs
  | .v3_0 inner, .v3_0 bytes =>
      -- The weight depends on the size of the circuit, so it is bounded first.
      let logCircuitSize ← validLogCircuitSize crate bytes
      CrateError.mapErr (crate.verifyV3_0 bytes inner pubs)
      let weight ← computeWeight crate proof.version inner.proofType logCircuitSize
      return some weight
  | _, _ => .error (.error .verifyError)

/-- `validate_vk`. -/
def validateVk (crate : Crate) : VersionedVk → Except Fault Unit
  | .v0_84 bytes => ensure (crate.keyIsValidV0_84 bytes) (.error .invalidVerificationKey)
  | .legacy bytes => ensure (crate.keyIsValidV0_84 bytes) (.error .invalidVerificationKey)
  | .v3_0 bytes => ensure (crate.keyIsValidV3_0 bytes) (.error .invalidVerificationKey)

/-! ## Hashes -/

/-- `encode` of a key. -/
def VersionedVk.encode : VersionedVk → Bytes
  | .v0_84 bytes => 0 :: bytes.toList
  | .v3_0 bytes => 1 :: bytes.toList
  | .legacy bytes => 2 :: bytes.toList

/-- `vk_bytes`. -/
def VersionedVk.vkBytes : VersionedVk → Bytes
  | .legacy bytes => bytes.toList
  | vk => vk.encode

/-- The hash function of `vk_hash`. -/
def VersionedVk.hashFunction : VersionedVk → HashFunction
  | .legacy _ => .sha2_256
  | _ => .keccak256

/-- `verifier_version_hash`. -/
def verifierVersionHash : VersionedProof → H256
  | .v0_84 _ => h256 0x4966cd7801ae9ef9d7afb52ec3de92f0693e720f58c5c8ecfb23d85b0934f018
  | .v3_0 _ => h256 0x55b52ad2b4153c872e27d688f567c1406f0d93b5528dd2b0bf2a9a40df97f1f9
  | .legacy _ => noVersionHash

/-- The verifier `Ultrahonk`. -/
def verifier (H : Hashing) (crate : Crate) : Verifier VersionedVk VersionedProof Pubs X where
  hashContextData := ascii ['u', 'l', 't', 'r', 'a', 'h', 'o', 'n', 'k']
  verifyProof vk proof pubs _ := verifyProof crate vk proof pubs
  validateVk vk _ := validateVk crate vk
  encodeVk := VersionedVk.encode
  vkHash vk := H vk.hashFunction vk.vkBytes
  pubsBytes := flattenPubs
  verifierVersionHash := verifierVersionHash

/-- A key is determined by its hash function and its bytes. -/
theorem VersionedVk.hashed_injective :
    Function.Injective fun vk : VersionedVk => (vk.hashFunction, vk.vkBytes) := by
  intro vk vk' h
  obtain ⟨hfunction, hbytes⟩ := Prod.mk.inj h
  cases vk with
  | legacy bytes =>
      cases vk' with
      | legacy bytes' => exact congrArg legacy (Vector.toList_inj.mp hbytes)
      | v0_84 | v3_0 => cases hfunction
  | v0_84 bytes =>
      cases vk' with
      | v0_84 bytes' => exact congrArg v0_84 (Vector.toList_inj.mp (List.cons.inj hbytes).2)
      | v3_0 bytes' => exact absurd (List.cons.inj hbytes).1 (by decide)
      | legacy => cases hfunction
  | v3_0 bytes =>
      cases vk' with
      | v3_0 bytes' => exact congrArg v3_0 (Vector.toList_inj.mp (List.cons.inj hbytes).2)
      | v0_84 bytes' => exact absurd (List.cons.inj hbytes).1 (by decide)
      | legacy => cases hfunction

end ZkVerify.Verifiers.Ultrahonk
