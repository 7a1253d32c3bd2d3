import ZkVerify.Frame.Codec
import ZkVerify.Verifiers.Pallet

/-!
# The verifiers risc0, sp1 and plonky2

The keys of `risc0` and `sp1` are hashes already, so they are used as they are.  A key of
`plonky2` is a byte vector with the configuration it is for, and its encoding is hashed.
The public inputs of all three are byte vectors.
-/

namespace ZkVerify.Verifiers

open Frame

variable {X : Type}

/-! ## Risc0 -/

namespace Risc0

/-- A proof with its version. -/
inductive Proof
  | v1_0 (bytes : Bytes)
  | v1_1 (bytes : Bytes)
  | v1_2 (bytes : Bytes)
  | v2_0 (bytes : Bytes)
  | v2_1 (bytes : Bytes)
  | v2_2 (bytes : Bytes)
  | v2_3 (bytes : Bytes)
  | v3_0 (bytes : Bytes)
deriving DecidableEq

/-- `Proof::bytes`. -/
def Proof.bytes : Proof → Bytes
  | .v1_0 bytes | .v1_1 bytes | .v1_2 bytes | .v2_0 bytes => bytes
  | .v2_1 bytes | .v2_2 bytes | .v2_3 bytes | .v3_0 bytes => bytes

/-- The version has no `unsupported` attribute. -/
def Proof.isSupported : Proof → Bool
  | .v1_0 _ | .v1_1 _ | .v1_2 _ | .v2_0 _ => false
  | .v2_1 _ | .v2_2 _ | .v2_3 _ | .v3_0 _ => true

abbrev Pubs := Bytes

abbrev Vk := H256

/-- The hash function of a segment. -/
inductive SegmentHash
  | poseidon2
  | other
deriving DecidableEq, Repr

/-- What is known about a segment. -/
structure SegmentInfo where
  hash : SegmentHash
  po2 : ℕ
deriving DecidableEq, Repr

inductive ProofStructure
  | succinct
  | composite (segments : List SegmentInfo)

/-- The configuration and the parts of `risc0_verifier` that are used. -/
structure Crate where
  maxNSegment : ℕ
  segment20MaxSize : ℕ
  maxPubsSize : ℕ
  /-- `ciborium::from_reader` succeeds. -/
  proofIsReadable : Bytes → Bool
  /-- `proof_structure`; the extraction of the segments can fail. -/
  proofStructure : Proof → Option ProofStructure
  verify : Vk → Proof → Pubs → Bool
  verifyProofSuccinct : Weight
  /-- The weight of a segment of the given power, from 16 to 21. -/
  verifyProofSegmentPoseidon2 : ℕ → Weight

/-- `max_proof_size`. -/
def maxProofSize (crate : Crate) : ℕ := crate.maxNSegment * crate.segment20MaxSize % (u32Max + 1)

/-- The time of `max_verify_proof_weight`. -/
def maxVerifyProofTime (crate : Crate) : ℕ :=
  (crate.verifyProofSegmentPoseidon2 20).refTime * crate.maxNSegment % (u64Max + 1)

/-- `segment_weight`. -/
def segmentWeight (crate : Crate) (info : SegmentInfo) : Option Weight :=
  match info.hash with
  | .poseidon2 =>
      if info.po2 ≤ 16 then some (crate.verifyProofSegmentPoseidon2 16)
      else if info.po2 ≤ 21 then some (crate.verifyProofSegmentPoseidon2 info.po2)
      else none
  | .other => none

/-- `verify_weight`. -/
def verifyWeight (crate : Crate) : ProofStructure → Option Weight
  | .succinct => some crate.verifyProofSuccinct
  | .composite segments => do
      let weights ← segments.mapM (segmentWeight crate)
      return weights.foldl
        (fun acc w => ⟨wrappingAdd u64Max acc.refTime w.refTime, acc.proofSize⟩) ⟨0, 0⟩

/-- `verify_proof`. -/
def verifyProof (crate : Crate) (vk : Vk) (proof : Proof) (pubs : Pubs) :
    Except Fault (Option Weight) := do
  ensure (decide (proof.bytes.length ≤ maxProofSize crate)) (.error .invalidProofData)
  ensure (decide (pubs.length ≤ crate.maxPubsSize)) (.error .invalidInput)
  ensure (crate.proofIsReadable proof.bytes) (.error .invalidProofData)
  ensure proof.isSupported (.error .unsupportedVersion)
  let w ← okOr ((crate.proofStructure proof).bind (verifyWeight crate)) (.error .invalidProofData)
  ensure (decide (w.refTime ≤ maxVerifyProofTime crate)) (.error .invalidProofData)
  ensure (crate.verify vk proof pubs) (.error .verifyError)
  return some w

/-- `verifier_version_hash`. -/
def verifierVersionHash : Proof → H256
  | .v1_0 _ => h256 0xdf801e3397d2a8fbb77c2fa30c7f7806ee8a60de44cb536108e7ef272618e2da
  | .v1_1 _ => h256 0x2a06d398245e645477a795d1b707344669459840d154e17fde4df2b40eea5558
  | .v1_2 _ => h256 0x5f39e7751602fc8dbc1055078b61e2704565e3271312744119505ab26605a942
  | .v2_0 _ => h256 0x4b591002da5e767a89a636535a1758bd5f5e2677c42811f11b0a6429d2429a1b
  | .v2_1 _ => h256 0x545aa3fbe4f28bf5be6831341c3d5ba87b16f10089f8efbcc140060e06fb508b
  | .v2_2 _ => h256 0xb3321f8b04ee9a754860a415c691f00756990e2054e5023f1a68c260a7042efe
  | .v2_3 _ => h256 0x09c82225a1a8d085090e5169383d874fcca7a340517654659c4eb6fd105e79ec
  | .v3_0 _ => h256 0xaa24368f9ce9025f58596d966209fc3f322c8cac37dae753bb9b0367d273700d

/-- The verifier `Risc0`. -/
def verifier (crate : Crate) : Verifier Vk Proof Pubs X where
  hashContextData := ascii ['r', 'i', 's', 'c', '0']
  verifyProof vk proof pubs _ := verifyProof crate vk proof pubs
  validateVk _ _ := .ok ()
  encodeVk vk := vk.toList
  vkHash vk := vk
  pubsBytes pubs := pubs
  verifierVersionHash := verifierVersionHash

end Risc0

/-! ## Sp1 -/

namespace Sp1

abbrev Proof := Bytes

abbrev Pubs := Bytes

abbrev Vk := H256

/-- `MAX_PROOF_SIZE`. -/
def maxProofSize : ℕ := 786432

/-- The configuration and the parts of `sp1_zkv_verifier` that are used. -/
structure Crate where
  maxPubsSize : ℕ
  /-- `bincode::serde::decode_from_slice` succeeds. -/
  proofIsReadable : Proof → Bool
  verify : Vk → Proof → Pubs → Bool

/-- The verifier `Sp1`. -/
def verifier (crate : Crate) : Verifier Vk Proof Pubs X where
  hashContextData := ascii ['s', 'p', '1']
  verifyProof vk proof pubs _ := do
    ensure (decide (proof.length ≤ maxProofSize)) (.error .invalidProofData)
    ensure (decide (pubs.length ≤ crate.maxPubsSize)) (.error .invalidInput)
    ensure (crate.proofIsReadable proof) (.error .invalidProofData)
    ensure (crate.verify vk proof pubs) (.error .verifyError)
    return none
  validateVk _ _ := .ok ()
  encodeVk vk := vk.toList
  vkHash vk := vk
  pubsBytes pubs := pubs
  verifierVersionHash _ := noVersionHash

end Sp1

/-! ## Plonky2 -/

namespace Plonky2

inductive Plonky2Config
  | keccak
  | poseidon
deriving DecidableEq, Repr

/-- `VkWithConfig`. -/
structure Vk where
  config : Plonky2Config
  bytes : ByteVec
deriving DecidableEq

structure Proof where
  bytes : ByteVec
deriving DecidableEq

abbrev Pubs := Bytes

/-- `MAX_DEGREE_BITS`. -/
def maxDegreeBits : ℕ := 19

/-- The configuration and the parts of `plonky2_verifier` that are used. -/
structure Crate where
  maxProofSize : ℕ
  maxPubsSize : ℕ
  maxVkSize : ℕ
  /-- `deserialize_vk`, and the degree bits of the key. -/
  degreeBits : Plonky2Config → Bytes → Option ℕ
  /-- The key has the standard configuration for recursion. -/
  isStandard : Plonky2Config → Bytes → Bool
  verify : Vk → Proof → Pubs → Bool
  /-- The weight for the given degree bits, from 2 to 19. -/
  verifyProofUncompressed : Plonky2Config → ℕ → Weight

/-- `encode` of a configuration. -/
def Plonky2Config.encode : Plonky2Config → UInt8
  | .keccak => 0
  | .poseidon => 1

/-- `encode` of a key. -/
def Vk.encode (vk : Vk) : Bytes := vk.config.encode :: encodeVec vk.bytes

/-- `compute_weight`. -/
def computeWeight (crate : Crate) (degreeBits : ℕ) (config : Plonky2Config) :
    Except Fault Weight :=
  if degreeBits = 1 then .ok (crate.verifyProofUncompressed config 2)
  else if 2 ≤ degreeBits ∧ degreeBits ≤ 19 then
    .ok (crate.verifyProofUncompressed config degreeBits)
  else .error .panic

/-- `Vk::validate_size`. -/
def Vk.validateSize (crate : Crate) (vk : Vk) : Except Fault Unit :=
  ensure (decide (vk.bytes.toList.length ≤ crate.maxVkSize)) (.error .invalidVerificationKey)

/-- `verify_proof`. -/
def verifyProof (crate : Crate) (vk : Vk) (proof : Proof) (pubs : Pubs) :
    Except Fault (Option Weight) := do
  vk.validateSize crate
  ensure (decide (proof.bytes.toList.length ≤ crate.maxProofSize)) (.error .invalidProofData)
  ensure (decide (pubs.length ≤ crate.maxPubsSize)) (.error .invalidInput)
  let degreeBits ← okOr (crate.degreeBits vk.config vk.bytes.toList)
    (.error .invalidVerificationKey)
  let w ← computeWeight crate degreeBits vk.config
  ensure (crate.verify vk proof pubs) (.error .verifyError)
  return some w

/-- `validate_vk`. -/
def validateVk (crate : Crate) (vk : Vk) : Except Fault Unit := do
  vk.validateSize crate
  let degreeBits ← okOr (crate.degreeBits vk.config vk.bytes.toList)
    (.error .invalidVerificationKey)
  ensure (decide (degreeBits ≤ maxDegreeBits) && crate.isStandard vk.config vk.bytes.toList)
    (.error .invalidVerificationKey)

/-- The verifier `Plonky2`. -/
def verifier (H : Hashing) (crate : Crate) : Verifier Vk Proof Pubs X where
  hashContextData := ascii ['p', 'l', 'o', 'n', 'k', 'y', '2']
  verifyProof vk proof pubs _ := verifyProof crate vk proof pubs
  validateVk vk _ := validateVk crate vk
  encodeVk := Vk.encode
  vkHash vk := H .keccak256 vk.encode
  pubsBytes pubs := pubs
  verifierVersionHash _ := noVersionHash

theorem Vk.encode_injective : Function.Injective Vk.encode := by
  rintro ⟨config, bytes⟩ ⟨config', bytes'⟩ h
  have hencode : config.encode = config'.encode := (List.cons.inj h).1
  have hconfig : config = config' := by
    revert hencode
    cases config <;> cases config' <;> decide
  have hbytes : bytes = bytes' := delimited_encodeVec.injective (List.cons.inj h).2
  rw [hconfig, hbytes]

end Plonky2

end ZkVerify.Verifiers
