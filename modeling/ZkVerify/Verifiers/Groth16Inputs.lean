import ZkVerify.Verifiers.Groth16

/-!
# The inputs behind a groth16 statement

A statement fixes the concatenated bytes of the public inputs.  Which field elements
were verified also depends on where the inputs start, and `verify_proof` accepts
surplus bytes after a field element, so the starts can differ.

The field elements of two accepted lists with the same bytes are equal if and only if
the bytes agree wherever the starts differ, `verified_inputs_eq_iff`.  A list without
surplus bytes shares its bytes with no other accepted list, `exact_inputs_unique`.
-/

namespace ZkVerify.Verifiers.Groth16

open Frame

variable {ark : Curve → Pairing} {maxNumInputs : ℕ} {vk : VerificationKeyWithCurve}

/-! ## What was verified -/

/-- The pairing check was made against `values` and passed. -/
def PairingHolds (E : Pairing) (vk : VerificationKey) (proof : Proof)
    (values : List E.ScalarField) : Prop :=
  ∃ arkProof arkVk pvk, proof.tryInto E = some arkProof ∧ vk.tryIntoArkUnchecked E = some arkVk ∧
    E.prepareVerifyingKey arkVk = some pvk ∧ E.verifyProof pvk arkProof values = some true

theorem hpVerifyProof_eq_true {E : Pairing} {vk : VerificationKey} {proof : Proof}
    {inputs : List Scalar} (h : hpVerifyProof E vk proof inputs = .ok true) :
    ∃ values, decodeInputs E inputs = some values ∧ PairingHolds E vk proof values := by
  simp only [hpVerifyProof, seq_eq_ok, okOr_eq_ok] at h
  obtain ⟨arkProof, hproof, arkVk, hvk, pvk, hpvk, values, hvalues, haccepted⟩ := h
  exact ⟨values, hvalues, arkProof, arkVk, pvk, hproof, hvk, hpvk, haccepted⟩

/-- A proof is accepted against the field elements of as many inputs as the key has. -/
theorem verifyProof_ok {proof : ProofWithCurve} {pubs : Pubs} {weight : Option Weight}
    (h : verifyProof ark maxNumInputs vk proof pubs = .ok weight) :
    pubs.length + 1 = vk.gammaAbcG1.toList.length ∧
      ∃ values, decodeInputs (ark vk.curve) pubs = some values ∧
        PairingHolds (ark vk.curve) vk.vk proof.proof values := by
  simp only [verifyProof, seq_eq_ok, ensure_eq_ok, decide_eq_true_eq] at h
  obtain ⟨-, -, -, hlength, -, -, accepted, hverify, -, haccepted, -⟩ := h
  rw [haccepted] at hverify
  exact ⟨hlength, hpVerifyProof_eq_true hverify⟩

/-! ## Where the inputs start -/

/-- The place of input `i` in the bytes of the statement. -/
def start (pubs : Pubs) (i : ℕ) : ℕ := offset (pubs.map Scalar.bytes) i

/-- Where an input starts at another place in the second list, the bytes of a field element at the
two places are the same. -/
def AgreeAtStarts (size : ℕ) (pubs pubs' : Pubs) : Prop :=
  ∀ i < pubs.length, start pubs i ≠ start pubs' i →
    window size (pubsBytes pubs) (start pubs i) = window size (pubsBytes pubs) (start pubs' i)

instance (size : ℕ) (pubs pubs' : Pubs) : Decidable (AgreeAtStarts size pubs pubs') :=
  inferInstanceAs (Decidable (∀ i < pubs.length, _))

theorem pubsBytes_eq (pubs : Pubs) : pubsBytes pubs = (pubs.map Scalar.bytes).flatten :=
  List.flatMap_def

theorem decodeInputs_eq (E : Pairing) (pubs : Pubs) :
    decodeInputs E pubs = E.scalar.readAll (pubs.map Scalar.bytes) := by
  rw [Reader.readAll, List.mapM_map]
  rfl

theorem decoded_eq_iff {E : Pairing} {pubs pubs' : Pubs} {values values' : List E.ScalarField}
    (hvalues : decodeInputs E pubs = some values) (hvalues' : decodeInputs E pubs' = some values')
    (hlength : pubs.length = pubs'.length) (hbytes : pubsBytes pubs = pubsBytes pubs') :
    values = values' ↔ AgreeAtStarts E.scalar.size pubs pubs' := by
  rw [decodeInputs_eq] at hvalues hvalues'
  rw [pubsBytes_eq, pubsBytes_eq] at hbytes
  rw [E.scalar_canonical.readAll_eq_iff hvalues hvalues',
    map_take_eq_iff (by simpa using hlength) hbytes (Reader.size_le_of_readAll hvalues)
      (Reader.size_le_of_readAll hvalues'),
    AgreeAtStarts, pubsBytes_eq, List.length_map]
  rfl

/-- Two proofs that are accepted with the same key and the same bytes of public inputs were verified
against the same field elements if and only if the bytes agree wherever the starts of the inputs
differ. -/
theorem verified_inputs_eq_iff {proof proof' : ProofWithCurve} {pubs pubs' : Pubs}
    {weight weight' : Option Weight}
    (h : verifyProof ark maxNumInputs vk proof pubs = .ok weight)
    (h' : verifyProof ark maxNumInputs vk proof' pubs' = .ok weight')
    (hbytes : pubsBytes pubs = pubsBytes pubs') :
    ∃ values values', decodeInputs (ark vk.curve) pubs = some values ∧
      PairingHolds (ark vk.curve) vk.vk proof.proof values ∧
      decodeInputs (ark vk.curve) pubs' = some values' ∧
      PairingHolds (ark vk.curve) vk.vk proof'.proof values' ∧
      (values = values' ↔ AgreeAtStarts (ark vk.curve).scalar.size pubs pubs') := by
  obtain ⟨hlength, values, hvalues, hpairing⟩ := verifyProof_ok h
  obtain ⟨hlength', values', hvalues', hpairing'⟩ := verifyProof_ok h'
  have heq : pubs.length = pubs'.length := by omega
  exact ⟨values, values', hvalues, hpairing, hvalues', hpairing',
    decoded_eq_iff hvalues hvalues' heq hbytes⟩

/-- A list whose inputs have no surplus bytes shares its bytes with no other accepted list. -/
theorem exact_inputs_unique {proof proof' : ProofWithCurve} {pubs pubs' : Pubs}
    {weight weight' : Option Weight}
    (h : verifyProof ark maxNumInputs vk proof pubs = .ok weight)
    (h' : verifyProof ark maxNumInputs vk proof' pubs' = .ok weight')
    (hbytes : pubsBytes pubs = pubsBytes pubs')
    (hexact : ∀ s ∈ pubs, s.bytes.length = (ark vk.curve).scalar.size) : pubs = pubs' := by
  obtain ⟨hlength, -⟩ := verifyProof_ok h
  obtain ⟨hlength', values', hvalues', -⟩ := verifyProof_ok h'
  rw [decodeInputs_eq] at hvalues'
  rw [pubsBytes_eq, pubsBytes_eq] at hbytes
  have heq : (pubs.map Scalar.bytes).length = (pubs'.map Scalar.bytes).length := by
    rw [List.length_map, List.length_map]
    omega
  have hslices : pubs.map Scalar.bytes = pubs'.map Scalar.bytes :=
    eq_of_exact heq hbytes (by simpa using hexact) (Reader.size_le_of_readAll hvalues')
  exact List.map_injective_iff.mpr (fun s t hst => Scalar.ext hst) hslices

/-! ## A key and two cuts

All points are small multiples of the generators, so the pairing equation can be
evaluated on the multiples. -/

/-- The uncompressed form of a point. -/
def pointBytes (coordinates : List ℕ) : Bytes := coordinates.flatMap (littleEndian 32)

/-- The generator of the first group of bn254. -/
def sampleG1 : G1 := ⟨pointBytes [1, 2], by decide +kernel⟩

/-- Four times the generator. -/
def sampleG1Times4 : G1 :=
  ⟨pointBytes [
    3010198690406615200373504922352659861758983907867017329644089018310584441462,
    4027184618003122424972590350825261965929648733675738730716654005365300998076],
    by decide +kernel⟩

/-- Five times the generator. -/
def sampleG1Times5 : G1 :=
  ⟨pointBytes [
    10744596414106452074759370245733544594153395043370666422502510773307029471145,
    848677436511517736191562425154572367705380862894644942948681172815252343932],
    by decide +kernel⟩

/-- The generator of the second group of bn254. -/
def sampleG2 : G2 :=
  ⟨pointBytes [
    10857046999023057135944570762232829481370756359578518086990519993285655852781,
    11559732032986387107991004021392285783925812861821192530917403151452391805634,
    8495653923123431417604973247489272438418190587263600148770280649306958101930,
    4082367875863433681332203403145435568316851327593401208105741076214120093531],
    by decide +kernel⟩

/-- The equation of groth16 on multiples of the generators. -/
def equationHolds (modulus : ℕ) (vk : ArkVerifyingKey ℕ ℕ) (proof : ArkProof ℕ ℕ)
    (inputs : List ℕ) : Bool :=
  let prepared := (List.zipWith (· * ·) (1 :: inputs) vk.gammaAbcG1).sum
  decide (proof.a * proof.b % modulus =
    (vk.alphaG1 * vk.betaG2 + prepared * vk.gammaG2 + proof.c * vk.deltaG2) % modulus)

/-- Arkworks on the given points. -/
@[reducible] def samplePairing (modulus size : ℕ) (g1 g2 : List (Bytes × ℕ)) : Pairing where
  ScalarField := ℕ
  G1Affine := ℕ
  G2Affine := ℕ
  PreparedVerifyingKey := ArkVerifyingKey ℕ ℕ
  scalar := .residues 32 modulus
  scalar_canonical := Reader.canonical_residues 32 modulus
  g1 := { unchecked := ⟨size, fun bytes => g1.lookup bytes⟩, isValid := fun _ => true }
  g2 := { unchecked := ⟨2 * size, fun bytes => g2.lookup bytes⟩, isValid := fun _ => true }
  prepareVerifyingKey vk := some vk
  verifyProof vk proof inputs :=
    if inputs.length + 1 = vk.gammaAbcG1.length then some (equationHolds modulus vk proof inputs)
    else none

def sampleArk : Curve → Pairing
  | .bn254 => samplePairing
      21888242871839275222246405745257275088548364400416034343698204186575808495617 64
      [(sampleG1.bytes.toList, 1), (sampleG1Times4.bytes.toList, 4),
        (sampleG1Times5.bytes.toList, 5)]
      [(sampleG2.bytes.toList, 1)]
  | .bls12_381 => samplePairing
      52435875175126190479447740508185965837690552500527637822603658699938581184513 96 [] []

/-- A key for two public inputs. -/
def sampleVk : VerificationKeyWithCurve where
  curve := .bn254
  alphaG1 := sampleG1
  betaG2 := sampleG2
  gammaG2 := sampleG2
  deltaG2 := sampleG2
  gammaAbcG1 := ⟨[sampleG1, sampleG1, sampleG1], by decide⟩

/-- The proof with the given point `a`. -/
def sampleProof (a : G1) : ProofWithCurve where
  curve := .bn254
  proof := { a := a, b := sampleG2, c := sampleG1 }

/-- The inputs 1 and 1; the second has a surplus byte. -/
def samplePubs : Pubs := [⟨littleEndian 32 1⟩, ⟨littleEndian 32 1 ++ [0]⟩]

/-- The inputs 1 and 0; the first has a surplus byte. -/
def sampleRecutPubs : Pubs := [⟨littleEndian 32 1 ++ [1]⟩, ⟨littleEndian 32 0⟩]

/-- The inputs 1 and 0, with a zero after the second. -/
def samplePaddedLast : Pubs := [⟨littleEndian 32 1⟩, ⟨littleEndian 32 0 ++ [0]⟩]

/-- The inputs 1 and 0, with a zero after the first. -/
def samplePaddedFirst : Pubs := [⟨littleEndian 32 1 ++ [0]⟩, ⟨littleEndian 32 0⟩]

/-- A surplus zero before a zero moves the start and not the value. -/
theorem verified_inputs_eq_iff_sample :
    start samplePaddedLast 1 ≠ start samplePaddedFirst 1 ∧
      ∃ values, decodeInputs (sampleArk sampleVk.curve) samplePaddedLast = some values ∧
        decodeInputs (sampleArk sampleVk.curve) samplePaddedFirst = some values ∧
        PairingHolds (sampleArk sampleVk.curve) sampleVk.vk (sampleProof sampleG1Times4).proof
          values := by
  have hlast : verifyProof sampleArk 64 sampleVk (sampleProof sampleG1Times4) samplePaddedLast =
      .ok none := by decide +kernel
  have hfirst : verifyProof sampleArk 64 sampleVk (sampleProof sampleG1Times4) samplePaddedFirst =
      .ok none := by decide +kernel
  obtain ⟨values, values', hvalues, hpairing, hvalues', -, hiff⟩ :=
    verified_inputs_eq_iff hlast hfirst (by decide +kernel)
  have hagree : AgreeAtStarts 32 samplePaddedLast samplePaddedFirst := by decide +kernel
  obtain rfl : values = values' := hiff.mpr hagree
  exact ⟨by decide +kernel, values, hvalues, hvalues', hpairing⟩

/-- The two lists have the same bytes, so with each key the same statement, and both are accepted,
but they stand for different field elements. -/
theorem recut_inputs_differ :
    validateVk sampleArk sampleVk = .ok () ∧
      verifyProof sampleArk 64 sampleVk (sampleProof sampleG1Times5) samplePubs = .ok none ∧
      verifyProof sampleArk 64 sampleVk (sampleProof sampleG1Times4) sampleRecutPubs = .ok none ∧
      pubsBytes samplePubs = pubsBytes sampleRecutPubs ∧
      decodeInputs (sampleArk sampleVk.curve) samplePubs = some ([1, 1] : List ℕ) ∧
      decodeInputs (sampleArk sampleVk.curve) sampleRecutPubs = some ([1, 0] : List ℕ) := by
  refine ⟨?_, ?_, ?_, ?_, ?_, ?_⟩
  · decide +kernel
  · decide +kernel
  · decide +kernel
  · decide +kernel
  · rfl
  · rfl

end ZkVerify.Verifiers.Groth16
