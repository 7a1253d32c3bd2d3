import ZkVerify.Frame.Reader
import ZkVerify.Verifiers.Pallet

/-!
# The groth16 verifier

Keys, proofs and public inputs arrive as byte vectors of any length, and arkworks reads
a field element or a point from the front of each.  The readers of arkworks and its
pairing check are parameters, one `Pairing` for each curve.

A statement commits to the bytes of the public inputs one after the other.  Because an
input can have surplus bytes, those bytes do not say where an input starts, and the
same statement can stand for several lists of field elements.
`verified_inputs_eq_iff` says exactly when it does not.
-/

namespace ZkVerify.Verifiers.Groth16

open Frame

variable {X : Type}

/-! ## Data -/

inductive Curve
  | bn254
  | bls12_381
deriving DecidableEq, Repr

/-- The bytes of a point of the first group. -/
structure G1 where
  bytes : ByteVec
deriving DecidableEq

/-- The bytes of a point of the second group. -/
structure G2 where
  bytes : ByteVec
deriving DecidableEq

/-- The bytes of a scalar field element. -/
@[ext] structure Scalar where
  bytes : Bytes
deriving DecidableEq

structure Proof where
  a : G1
  b : G2
  c : G1
deriving DecidableEq

structure VerificationKey where
  alphaG1 : G1
  betaG2 : G2
  gammaG2 : G2
  deltaG2 : G2
  gammaAbcG1 : BoundedVec G1 u32Max
deriving DecidableEq

structure VerificationKeyWithCurve where
  curve : Curve
  alphaG1 : G1
  betaG2 : G2
  gammaG2 : G2
  deltaG2 : G2
  gammaAbcG1 : BoundedVec G1 u32Max
deriving DecidableEq

/-- The key without its curve. -/
def VerificationKeyWithCurve.vk (vk : VerificationKeyWithCurve) : VerificationKey :=
  { alphaG1 := vk.alphaG1, betaG2 := vk.betaG2, gammaG2 := vk.gammaG2, deltaG2 := vk.deltaG2,
    gammaAbcG1 := vk.gammaAbcG1 }

structure ProofWithCurve where
  curve : Curve
  proof : Proof
deriving DecidableEq

/-- `Pubs`. -/
abbrev Pubs := List Scalar

/-- `encode` of a curve: its index. -/
def Curve.encode : Curve → Bytes
  | .bn254 => [0]
  | .bls12_381 => [1]

/-- `encode` of a key: its fields in order. -/
def VerificationKeyWithCurve.encode (vk : VerificationKeyWithCurve) : Bytes :=
  vk.curve.encode ++ encodeVec vk.alphaG1.bytes ++ encodeVec vk.betaG2.bytes ++
    encodeVec vk.gammaG2.bytes ++ encodeVec vk.deltaG2.bytes ++
    compact vk.gammaAbcG1.toList.length ++
    vk.gammaAbcG1.toList.flatMap fun point => encodeVec point.bytes

/-! ## Arkworks -/

/-- `ark_groth16::VerifyingKey`, with points in `P` and `Q`. -/
structure ArkVerifyingKey (P Q : Type) where
  alphaG1 : P
  betaG2 : Q
  gammaG2 : Q
  deltaG2 : Q
  gammaAbcG1 : List P

/-- `ark_groth16::Proof`. -/
structure ArkProof (P Q : Type) where
  a : P
  b : Q
  c : P

/-- How arkworks reads points. -/
structure PointReader (P : Type) where
  /-- `deserialize_uncompressed_unchecked`. -/
  unchecked : Reader P
  /-- The point is on the curve and in the subgroup. -/
  isValid : P → Bool

/-- `deserialize_uncompressed`. -/
def PointReader.read {P : Type} (reader : PointReader P) (bytes : Bytes) : Option P :=
  (reader.unchecked.read bytes).filter reader.isValid

/-- What is used of arkworks over one curve. -/
structure Pairing where
  ScalarField : Type
  G1Affine : Type
  G2Affine : Type
  PreparedVerifyingKey : Type
  /-- `deserialize_uncompressed` of scalar field elements. -/
  scalar : Reader ScalarField
  scalar_canonical : scalar.Canonical
  g1 : PointReader G1Affine
  g2 : PointReader G2Affine
  /-- Panics when the pairing of `alpha_g1` and `beta_g2` does. -/
  prepareVerifyingKey : ArkVerifyingKey G1Affine G2Affine → Option PreparedVerifyingKey
  /-- `ark_groth16::Groth16::verify_proof`. -/
  verifyProof : PreparedVerifyingKey → ArkProof G1Affine G2Affine → List ScalarField → Option Bool

/-! ## The conversions to arkworks -/

section Conversions

variable (E : Pairing)

/-- `try_into_affine`. -/
def G1.tryIntoAffine (point : G1) : Option E.G1Affine := E.g1.read point.bytes.toList

/-- `try_into_affine_unchecked`. -/
def G1.tryIntoAffineUnchecked (point : G1) : Option E.G1Affine :=
  E.g1.unchecked.read point.bytes.toList

/-- `try_into_affine`. -/
def G2.tryIntoAffine (point : G2) : Option E.G2Affine := E.g2.read point.bytes.toList

/-- `try_into_affine_unchecked`. -/
def G2.tryIntoAffineUnchecked (point : G2) : Option E.G2Affine :=
  E.g2.unchecked.read point.bytes.toList

/-- `try_into_scalar`. -/
def Scalar.tryIntoScalar (s : Scalar) : Option E.ScalarField := E.scalar.read s.bytes

/-- `try_into`. -/
def Proof.tryInto (proof : Proof) : Option (ArkProof E.G1Affine E.G2Affine) := do
  let a ← proof.a.tryIntoAffine E
  let b ← proof.b.tryIntoAffine E
  let c ← proof.c.tryIntoAffine E
  return { a := a, b := b, c := c }

/-- A key with its points converted by the given functions. -/
def VerificationKey.convert {P Q : Type} (g1 : G1 → Option P) (g2 : G2 → Option Q)
    (vk : VerificationKey) : Option (ArkVerifyingKey P Q) := do
  let alphaG1 ← g1 vk.alphaG1
  let betaG2 ← g2 vk.betaG2
  let gammaG2 ← g2 vk.gammaG2
  let deltaG2 ← g2 vk.deltaG2
  let gammaAbcG1 ← vk.gammaAbcG1.toList.mapM g1
  return { alphaG1 := alphaG1, betaG2 := betaG2, gammaG2 := gammaG2, deltaG2 := deltaG2,
           gammaAbcG1 := gammaAbcG1 }

/-- `VerifyingKey::try_from`. -/
def VerificationKey.tryInto (vk : VerificationKey) :
    Option (ArkVerifyingKey E.G1Affine E.G2Affine) :=
  vk.convert (G1.tryIntoAffine E) (G2.tryIntoAffine E)

/-- `try_into_ark_unchecked`. -/
def VerificationKey.tryIntoArkUnchecked (vk : VerificationKey) :
    Option (ArkVerifyingKey E.G1Affine E.G2Affine) :=
  vk.convert (G1.tryIntoAffineUnchecked E) (G2.tryIntoAffineUnchecked E)

/-- The field elements of the public inputs. -/
def decodeInputs (inputs : List Scalar) : Option (List E.ScalarField) :=
  inputs.mapM (Scalar.tryIntoScalar E)

end Conversions

/-! ## Verification -/

inductive Groth16Error
  | invalidProof
  | invalidVerificationKey
  | invalidInput
  | verifyError
deriving DecidableEq, Repr

/-- The error of the crate, as the pallet gets it. -/
def Groth16Error.into : Groth16Error → Fault
  | .invalidProof => .error .invalidProofData
  | .invalidVerificationKey => .error .invalidVerificationKey
  | .invalidInput => .error .invalidInput
  | .verifyError => .error .verifyError

/-- `hp_groth16::verify_proof`. -/
def hpVerifyProof (E : Pairing) (vk : VerificationKey) (proof : Proof) (inputs : List Scalar) :
    Except Fault Bool := do
  let proof ← okOr (proof.tryInto E) (Groth16Error.into .invalidProof)
  let vk ← okOr (vk.tryIntoArkUnchecked E) (Groth16Error.into .invalidVerificationKey)
  -- The points of the key are not checked here; on bad ones the pairing can panic.
  let pvk ← okOr (E.prepareVerifyingKey vk) .panic
  let inputs ← okOr (decodeInputs E inputs) (Groth16Error.into .invalidInput)
  okOr (E.verifyProof pvk proof inputs) (Groth16Error.into .verifyError)

/-- `hp_groth16::validate_key`. -/
def hpValidateKey (E : Pairing) (vk : VerificationKey) : Except Fault Unit := do
  let _ ← okOr (vk.tryInto E) (Groth16Error.into .invalidVerificationKey)

/-- `verify_proof`, with the arkworks of each curve. -/
def verifyProof (ark : Curve → Pairing) (maxNumInputs : ℕ) (vk : VerificationKeyWithCurve)
    (proof : ProofWithCurve) (pubs : Pubs) : Except Fault (Option Weight) := do
  ensure (decide (pubs.length ≤ maxNumInputs)) (.error .invalidInput)
  ensure (decide (pubs.length + 1 = vk.gammaAbcG1.toList.length)) (.error .invalidInput)
  ensure (decide (proof.curve = vk.curve)) (.error .invalidProofData)
  let accepted ← hpVerifyProof (ark vk.curve) vk.vk proof.proof pubs
  ensure accepted (.error .verifyError)
  return none

/-- `validate_vk`. -/
def validateVk (ark : Curve → Pairing) (vk : VerificationKeyWithCurve) : Except Fault Unit :=
  hpValidateKey (ark vk.curve) vk.vk

/-- `pubs_bytes`: the inputs one after the other. -/
def pubsBytes (pubs : Pubs) : Bytes := pubs.flatMap Scalar.bytes

/-- The verifier `Groth16`. -/
def verifier (H : Hashing) (ark : Curve → Pairing) (maxNumInputs : ℕ) :
    Verifier VerificationKeyWithCurve ProofWithCurve Pubs X where
  hashContextData := ascii ['g', 'r', 'o', 't', 'h', '1', '6']
  verifyProof vk proof pubs _ := verifyProof ark maxNumInputs vk proof pubs
  validateVk vk _ := validateVk ark vk
  encodeVk := VerificationKeyWithCurve.encode
  vkHash vk := H .keccak256 vk.encode
  pubsBytes := pubsBytes
  verifierVersionHash _ := noVersionHash

end ZkVerify.Verifiers.Groth16
