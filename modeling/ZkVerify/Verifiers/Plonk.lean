import ZkVerify.Frame.Codec
import ZkVerify.Verifiers.Pallet

/-!
# The plonk verifiers: fflonk, ultraplonk, ezkl

What the chain adds to the verification crates: the formats of keys, proofs and public
inputs, the checks on their sizes, the translation of errors, and the bytes that are
hashed.  The crates themselves are parameters.

For each verifier there are two facts about the hashed bytes: the hash of a key
determines the key, as long as the hash function has no collision on the two keys, and
the bytes of the public inputs determine them.
-/

namespace ZkVerify.Verifiers

open Frame

variable {X : Type}

/-- What the verification crates answer when they refuse. -/
inductive CrateError
  | verificationError
  | publicInputError
  | keyError
  | invalidProofError
  | otherError
deriving DecidableEq, Repr

/-- The translation of `verify_proof`; it is the same for all of these crates. -/
def CrateError.intoVerifyError : CrateError → VerifyError
  | .verificationError => .verifyError
  | .publicInputError => .invalidInput
  | .keyError => .invalidVerificationKey
  | .invalidProofError => .invalidProofData
  | .otherError => .verifyError

/-- The answer of a crate, as the answer of a check. -/
def CrateError.mapErr {α : Type} : Except CrateError α → Except Fault α
  | .ok a => .ok a
  | .error e => .error (.error e.intoVerifyError)

/-- Public inputs of 32 bytes each; `PUBS_SIZE` is 32 in all of these crates. -/
abbrev PubsList := List (Vector UInt8 32)

/-- `pubs_bytes`: the inputs one after the other. -/
def flattenPubs (pubs : PubsList) : Bytes := pubs.flatMap Vector.toList

theorem flattenPubs_injective : Function.Injective flattenPubs := by
  apply (delimited_toList 32).flatMap_injective
  intro input hnil
  have hlength := input.length_toList
  simp [hnil] at hlength

/-! ## Fflonk -/

namespace Fflonk

/-- `U256`. -/
abbrev U256 := BitVec 256

/-- An element of the quadratic extension. -/
structure Fq2 where
  real : U256
  imaginary : U256
deriving DecidableEq

/-- A point of the first group. -/
structure G1 where
  x : U256
  y : U256
  z : U256
deriving DecidableEq

/-- A point of the second group. -/
structure G2 where
  x : Fq2
  y : Fq2
  z : Fq2
deriving DecidableEq

/-- The verification key. -/
structure Vk where
  power : UInt8
  k1 : U256
  k2 : U256
  w : U256
  w3 : U256
  w4 : U256
  w8 : U256
  wr : U256
  x2 : G2
  c0 : G1
deriving DecidableEq

/-- A proof: 24 words. -/
abbrev Proof := Vector UInt8 (24 * 32)

/-- The public inputs: one word. -/
abbrev Pubs := Vector UInt8 32

/-- The words of a key, in the order of its fields. -/
def Vk.words (vk : Vk) : List U256 :=
  [vk.k1, vk.k2, vk.w, vk.w3, vk.w4, vk.w8, vk.wr,
    vk.x2.x.real, vk.x2.x.imaginary, vk.x2.y.real, vk.x2.y.imaginary, vk.x2.z.real,
    vk.x2.z.imaginary, vk.c0.x, vk.c0.y, vk.c0.z]

/-- `encode` of a word. -/
def encodeU256 (n : U256) : Bytes := littleEndian 32 n.toNat

/-- `encode` of a key: its fields in order. -/
def Vk.encode (vk : Vk) : Bytes := vk.power :: vk.words.flatMap encodeU256

/-- The parts of `fflonk_verifier` and of the conversions to it that are used. -/
structure Crate where
  /-- `try_into` succeeds: the points are on the curve. -/
  keyIsValid : Vk → Bool
  /-- `try_into_fflonk_vk_unchecked` succeeds. -/
  keyIsReadable : Vk → Bool
  proofIsReadable : Proof → Bool
  verify : Vk → Proof → Pubs → Bool

/-- The verifier `Fflonk`. -/
def verifier (H : Hashing) (crate : Crate) : Verifier Vk Proof Pubs X where
  hashContextData := ascii ['f', 'f', 'l', 'o', 'n', 'k']
  verifyProof vk proof pubs _ := do
    ensure (crate.keyIsReadable vk) (.error .invalidVerificationKey)
    ensure (crate.proofIsReadable proof) (.error .invalidProofData)
    ensure (crate.verify vk proof pubs) (.error .verifyError)
    return none
  validateVk vk _ := ensure (crate.keyIsValid vk) (.error .invalidVerificationKey)
  encodeVk := Vk.encode
  vkHash vk := H .keccak256 vk.encode
  pubsBytes pubs := pubs.toList
  verifierVersionHash _ := noVersionHash

theorem delimited_encodeU256 : Delimited encodeU256 := by
  apply Delimited.of_length
  · intro m n h
    have hpow : 2 ^ 256 = 256 ^ 32 := pow_mul 2 8 32
    apply BitVec.eq_of_toNat_eq
    exact littleEndian_inj (m.isLt.trans_eq hpow) (n.isLt.trans_eq hpow) h
  · intro n
    exact length_littleEndian 32 _

theorem Vk.encode_injective : Function.Injective Vk.encode := by
  intro vk vk' h
  obtain ⟨hpower, hwords⟩ := List.cons.inj h
  have hne : ∀ n, encodeU256 n ≠ [] := fun n hnil => by
    simpa [encodeU256] using congrArg List.length hnil
  have hwords := delimited_encodeU256.flatMap_injective hne hwords
  rcases vk with ⟨power, k1, k2, w, w3, w4, w8, wr, ⟨⟨_, _⟩, ⟨_, _⟩, ⟨_, _⟩⟩, ⟨_, _, _⟩⟩
  rcases vk' with ⟨power', k1', k2', w', w3', w4', w8', wr', ⟨⟨_, _⟩, ⟨_, _⟩, ⟨_, _⟩⟩, ⟨_, _, _⟩⟩
  simp_all [Vk.words]

end Fflonk

/-! ## Ultraplonk -/

namespace Ultraplonk

/-- `VK_SIZE`. -/
def vkSize : ℕ := 1632

/-- `PROOF_SIZE`. -/
def proofSize : ℕ := 2144

abbrev Vk := Vector UInt8 vkSize

abbrev Proof := Bytes

abbrev Pubs := PubsList

/-- The configuration and the parts of `ultraplonk_no_std` that are used. -/
structure Crate where
  maxPubs : ℕ
  /-- `try_from_solidity_bytes` succeeds. -/
  keyIsValid : Vk → Bool
  verify : Vk → Proof → Pubs → Except CrateError Unit

/-- `encode_vk`: the key, padded with 15 words of zeros. -/
def encodeVk (vk : Vk) : Bytes := vk.toList ++ List.replicate (15 * 32) 0

/-- The verifier `Ultraplonk`. -/
def verifier (H : Hashing) (crate : Crate) : Verifier Vk Proof Pubs X where
  hashContextData := ascii ['u', 'l', 't', 'r', 'a', 'p', 'l', 'o', 'n', 'k']
  verifyProof vk proof pubs _ := do
    ensure (decide (proof.length = proofSize)) (.error .invalidInput)
    ensure (decide (pubs.length ≤ crate.maxPubs)) (.error .invalidInput)
    CrateError.mapErr (crate.verify vk proof pubs)
    return none
  validateVk vk _ := ensure (crate.keyIsValid vk) (.error .invalidVerificationKey)
  encodeVk vk := vk.toList
  vkHash vk := H .sha2_256 (encodeVk vk)
  pubsBytes := flattenPubs
  verifierVersionHash _ := noVersionHash

theorem encodeVk_injective : Function.Injective encodeVk := by
  intro vk vk' h
  exact ((delimited_toList vkSize) vk vk' _ _ h).1

end Ultraplonk

/-! ## Ezkl -/

namespace Ezkl

/-- `MAX_VK_LENGTH`. -/
def maxVkLength : ℕ := 9216

/-- `MAX_PROOF_LENGTH`. -/
def maxProofLength : ℕ := 6304

/-- `EzklVk`. -/
structure Vk where
  vkBytes : ByteVec
deriving DecidableEq

abbrev Proof := Bytes

abbrev Pubs := PubsList

/-- The configuration and the parts of `ezkl_no_std` that are used. -/
structure Crate where
  maxPubs : ℕ
  verify : Bytes → Proof → Pubs → Except CrateError Unit

/-- `encode_vk`. -/
def encodeVk (vk : Vk) : Bytes := vk.vkBytes.toList

/-- The verifier `Ezkl`. -/
def verifier (H : Hashing) (crate : Crate) : Verifier Vk Proof Pubs X where
  hashContextData := ascii ['e', 'z', 'k', 'l']
  verifyProof vk proof pubs _ := do
    ensure (decide (pubs.length ≤ crate.maxPubs)) (.error .invalidInput)
    ensure (decide (proof.length ≤ maxProofLength)) (.error .invalidProofData)
    CrateError.mapErr (crate.verify vk.vkBytes.toList proof pubs)
    return none
  validateVk vk _ :=
    let length := vk.vkBytes.toList.length
    if length = 0 ∨ length &&& 31 ≠ 0 ∨ maxVkLength < length then
      .error (.error .invalidVerificationKey)
    else .ok ()
  encodeVk vk := encodeVec vk.vkBytes
  vkHash vk := H .keccak256 (encodeVk vk)
  pubsBytes := flattenPubs
  verifierVersionHash _ := noVersionHash

theorem encodeVk_injective : Function.Injective encodeVk := by
  rintro ⟨bytes⟩ ⟨bytes'⟩ h
  exact congrArg Vk.mk (BoundedVec.ext h)

end Ezkl

end ZkVerify.Verifiers
