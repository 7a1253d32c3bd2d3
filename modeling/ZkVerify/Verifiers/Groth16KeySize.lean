import ZkVerify.Verifiers.Groth16Keys

/-!
# The size of a groth16 key

`VerificationKeyWithCurve` declares a `max_encoded_len`, for at most `MAX_NUM_INPUTS + 1`
points in `gamma_abc_g1` and no point longer than its longest uncompressed form.
`validate_vk` checks neither: it reads every point from the front of its bytes, however
many there are, and ignores the rest.

So an accepted key can be longer than declared.  `key_size_le_iff` says which keys are not:
those whose points and surplus bytes leave the declared room.
-/

namespace ZkVerify.Verifiers.Groth16

open Frame

/-! ## The declared size -/

/-- `MAX_NUM_INPUTS` of the crate. -/
def crateMaxNumInputs : ℕ := 64

/-- `vec_max_encoded_len`. -/
def vecMaxEncodedLen (elementSize len : ℕ) : ℕ := compactLen len + elementSize * len

/-- `G1_MAX_SIZE`. -/
def g1MaxSize : ℕ := 96

/-- `G2_MAX_SIZE`. -/
def g2MaxSize : ℕ := g1MaxSize * 2

/-- `VerificationKeyWithCurve::max_encoded_len`. -/
def VerificationKeyWithCurve.maxEncodedLen : ℕ :=
  1 + vecMaxEncodedLen 1 g1MaxSize + 3 * vecMaxEncodedLen 1 g2MaxSize +
    vecMaxEncodedLen (vecMaxEncodedLen 1 g1MaxSize) (crateMaxNumInputs + 1)

/-! ## The points of a key -/

/-- The uncompressed size of a point of the first group. -/
def Curve.g1Size : Curve → ℕ
  | .bn254 => 64
  | .bls12_381 => 96

/-- The uncompressed size of a point of the second group. -/
def Curve.g2Size (curve : Curve) : ℕ := 2 * curve.g1Size

/-- What the points `alpha_g1`, `beta_g2`, `gamma_g2` and `delta_g2` leave of the declared size. -/
def Curve.room : Curve → ℕ
  | .bn254 => 6596
  | .bls12_381 => 6372

/-- Arkworks reads the uncompressed form of a point. -/
structure PointSizes (ark : Curve → Pairing) : Prop where
  g1 : ∀ curve, (ark curve).g1.unchecked.size = curve.g1Size
  g2 : ∀ curve, (ark curve).g2.unchecked.size = curve.g2Size

namespace VerificationKeyWithCurve

variable (vk : VerificationKeyWithCurve)

/-- The bytes that are read of every point, and the bytes it has. -/
def points : List (ℕ × ℕ) :=
  (vk.curve.g1Size, vk.alphaG1.bytes.toList.length) ::
    (vk.curve.g2Size, vk.betaG2.bytes.toList.length) ::
    (vk.curve.g2Size, vk.gammaG2.bytes.toList.length) ::
    (vk.curve.g2Size, vk.deltaG2.bytes.toList.length) ::
    vk.gammaAbcG1.toList.map fun point => (vk.curve.g1Size, point.bytes.toList.length)

/-- The bytes after the points, which are not read. -/
def surplus : ℕ := (vk.points.map fun point => point.2 - point.1).sum

/-- The points of `gamma_abc_g1`, each with its length, and the surplus bytes fit what the other
points leave. -/
def WithinBound : Prop :=
  (vk.curve.g1Size + 2) * vk.gammaAbcG1.toList.length + compactLen vk.gammaAbcG1.toList.length +
    vk.surplus ≤ vk.curve.room

instance : Decidable vk.WithinBound := inferInstanceAs (Decidable (_ ≤ vk.curve.room))

end VerificationKeyWithCurve

/-! ## The encoded size -/

/-- Below `2 ^ 14` bytes, the length of a point takes two bytes. -/
theorem sum_points_le_iff {points : List (ℕ × ℕ)} {n : ℕ} (hn : n < 2 ^ 14)
    (hpoints : ∀ point ∈ points, 64 ≤ point.1 ∧ point.1 ≤ point.2) :
    (points.map fun point => compactLen point.2 + point.2).sum ≤ n ↔
      (points.map fun point => point.1 + 2).sum +
        (points.map fun point => point.2 - point.1).sum ≤ n := by
  induction points generalizing n with
  | nil => simp
  | cons point points ih =>
      obtain ⟨hsize, hle⟩ := hpoints point List.mem_cons_self
      have hrest := fun point hpoint => hpoints point (List.mem_cons_of_mem _ hpoint)
      have htwo : 2 ≤ compactLen point.2 := compactLen_mono (hsize.trans hle)
      simp only [List.map_cons, List.sum_cons]
      by_cases hfits : point.2 + 2 ≤ n
      · -- The point fits, so its length is a compact integer of two bytes.
        have heq := compactLen_eq_two (hsize.trans hle) (by omega)
        have hiff := ih (n := n - (point.2 + 2)) (by omega) hrest
        omega
      · omega

namespace VerificationKeyWithCurve

variable {vk : VerificationKeyWithCurve}

theorem length_encode (vk : VerificationKeyWithCurve) :
    vk.encode.length = 1 + compactLen vk.gammaAbcG1.toList.length +
      (vk.points.map fun point => compactLen point.2 + point.2).sum := by
  have hcurve : vk.curve.encode.length = 1 := by cases vk.curve <;> rfl
  have habc : (vk.gammaAbcG1.toList.flatMap fun point => encodeVec point.bytes).length =
      (vk.gammaAbcG1.toList.map fun point =>
        compactLen point.bytes.toList.length + point.bytes.toList.length).sum := by
    simp only [List.length_flatMap, length_encodeVec]
  simp only [encode, points, List.length_append, hcurve, length_encodeVec, length_compact, habc,
    List.map_cons, List.map_map, List.sum_cons, Function.comp_def]
  omega

theorem sum_points (vk : VerificationKeyWithCurve) :
    (vk.points.map fun point => point.1 + 2).sum =
      (vk.curve.g1Size + 2) * vk.gammaAbcG1.toList.length + (vk.curve.g1Size + 2) +
        3 * (vk.curve.g2Size + 2) := by
  have habc : (vk.gammaAbcG1.toList.map fun _ => vk.curve.g1Size + 2).sum =
      (vk.curve.g1Size + 2) * vk.gammaAbcG1.toList.length := by
    rw [List.map_const', List.sum_replicate]
    exact Nat.mul_comm _ _
  simp only [points, List.map_cons, List.map_map, List.sum_cons, Function.comp_def, habc]
  omega

end VerificationKeyWithCurve

/-! ## Accepted keys -/

variable {ark : Curve → Pairing} {vk : VerificationKeyWithCurve}

theorem PointReader.size_le_of_read {P : Type} {reader : PointReader P} {bytes : Bytes} {p : P}
    (h : reader.read bytes = some p) : reader.unchecked.size ≤ bytes.length :=
  (Reader.read_eq_some.mp (PointReader.unchecked_of_read h)).1

/-- Every point of an accepted key has the bytes that are read of it. -/
theorem size_le_of_validateVk (hsizes : PointSizes ark) (hvalid : validateVk ark vk = .ok ()) :
    ∀ point ∈ vk.points, 64 ≤ point.1 ∧ point.1 ≤ point.2 := by
  obtain ⟨key, hkey⟩ := hpValidateKey_eq_ok.mp hvalid
  simp only [VerificationKey.tryInto, VerificationKey.convert, Option.bind_eq_bind,
    Option.bind_eq_some_iff] at hkey
  obtain ⟨_, halpha, _, hbeta, _, hgamma, _, hdelta, _, habc, -⟩ := hkey
  have hg1 : 64 ≤ vk.curve.g1Size := by cases vk.curve <;> decide
  have hg2 : 64 ≤ vk.curve.g2Size := by cases vk.curve <;> decide
  have hlength1 : ∀ {point : G1} {p}, point.tryIntoAffine (ark vk.curve) = some p →
      vk.curve.g1Size ≤ point.bytes.toList.length := by
    intro point p hread
    rw [← hsizes.g1 vk.curve]
    exact PointReader.size_le_of_read hread
  have hlength2 : ∀ {point : G2} {q}, point.tryIntoAffine (ark vk.curve) = some q →
      vk.curve.g2Size ≤ point.bytes.toList.length := by
    intro point q hread
    rw [← hsizes.g2 vk.curve]
    exact PointReader.size_le_of_read hread
  intro point hpoint
  simp only [VerificationKeyWithCurve.points, List.mem_cons, List.mem_map] at hpoint
  rcases hpoint with rfl | rfl | rfl | rfl | ⟨abc, hmem, rfl⟩
  · exact ⟨hg1, hlength1 halpha⟩
  · exact ⟨hg2, hlength2 hbeta⟩
  · exact ⟨hg2, hlength2 hgamma⟩
  · exact ⟨hg2, hlength2 hdelta⟩
  · obtain ⟨p, hread⟩ := exists_of_mapM habc abc hmem
    exact ⟨hg1, hlength1 hread⟩

/-- An accepted key keeps to the declared size exactly if it is within the bound. -/
theorem length_encode_le_iff (hsizes : PointSizes ark) (hvalid : validateVk ark vk = .ok ()) :
    vk.encode.length ≤ VerificationKeyWithCurve.maxEncodedLen ↔ vk.WithinBound := by
  have hmax : VerificationKeyWithCurve.maxEncodedLen = 7053 := by decide
  have hroom : vk.curve.room + (vk.curve.g1Size + 2) + 3 * (vk.curve.g2Size + 2) = 7052 := by
    cases vk.curve <;> decide
  have hlen : compactLen vk.gammaAbcG1.toList.length ≤ 5 := by
    unfold compactLen
    split_ifs <;> omega
  have hiff := sum_points_le_iff (n := 7052 - compactLen vk.gammaAbcG1.toList.length) (by omega)
    (size_le_of_validateVk hsizes hvalid)
  rw [vk.sum_points] at hiff
  rw [hmax, vk.length_encode, VerificationKeyWithCurve.WithinBound,
    VerificationKeyWithCurve.surplus]
  omega

variable {A X T : Type} [DecidableEq A] {H : Hashing} {maxNumInputs : ℕ}
  {cfg : Config A VerificationKeyWithCurve ProofWithCurve Pubs X T}

/-- An accepted key keeps to the declared size exactly if it is within the bound, and so does every
key that is stored after a run.  In particular all stored keys do when all keys that were to be
registered are within the bound. -/
theorem key_size_le_iff (hsizes : PointSizes ark)
    (hverifier : cfg.verifier = verifier H ark maxNumInputs) :
    (∀ vk, validateVk ark vk = .ok () →
      (vk.encode.length ≤ VerificationKeyWithCurve.maxEncodedLen ↔ vk.WithinBound)) ∧
      ∀ x steps h entry, (run cfg (.genesis x) steps).vks.lookup h = some entry →
        (entry.vk.encode.length ≤ VerificationKeyWithCurve.maxEncodedLen ↔
          entry.vk.WithinBound) ∧
        ((∀ origin vk, .call (.registerVk origin vk) ∈ steps → vk.WithinBound) →
          entry.vk.encode.length ≤ VerificationKeyWithCurve.maxEncodedLen) := by
  have hiff : ∀ vk (x : X), cfg.verifier.validateVk vk x = .ok () →
      (vk.encode.length ≤ VerificationKeyWithCurve.maxEncodedLen ↔ vk.WithinBound) := by
    intro vk x hvalid
    rw [hverifier] at hvalid
    exact length_encode_le_iff hsizes hvalid
  exact ⟨fun vk hvalid => length_encode_le_iff hsizes hvalid,
    fun x steps h entry hlookup => stored_iff x steps hlookup hiff⟩

theorem sampleArk_pointSizes : PointSizes sampleArk where
  g1 curve := by cases curve <;> rfl
  g2 curve := by cases curve <;> rfl

theorem key_size_le_sample :
    validateVk sampleArk sampleVk = .ok () ∧ sampleVk.WithinBound ∧
      sampleVk.encode.length ≤ VerificationKeyWithCurve.maxEncodedLen := by
  have hvalid : validateVk sampleArk sampleVk = .ok () := by decide +kernel
  have hwithin : sampleVk.WithinBound := by decide +kernel
  have hverifier : sampleConfig.verifier = verifier sampleHashing sampleArk 64 := rfl
  exact ⟨hvalid, hwithin,
    ((key_size_le_iff sampleArk_pointSizes hverifier).1 sampleVk hvalid).mpr hwithin⟩

/-- A key for 99 public inputs: all its points are the generators. -/
def sampleLongVk : VerificationKeyWithCurve :=
  { sampleVk with gammaAbcG1 := ⟨List.replicate 100 sampleG1, by decide⟩ }

/-- Every account owns `10000`. -/
def sampleSavings : Book ℕ Unit := ⟨fun _ => 10000, fun _ _ => 0, fun _ => 0, fun _ => 0, 1000000⟩

/-- The key is accepted and stored, and it is longer than declared. -/
theorem long_key_stored :
    validateVk sampleArk sampleLongVk = .ok () ∧
      (∃ h entry, (run sampleConfig (.genesis sampleSavings)
          [.call (.registerVk (.signed 2) sampleLongVk)]).vks.lookup h = some entry ∧
        entry.vk = sampleLongVk) ∧
      ¬ sampleLongVk.encode.length ≤ VerificationKeyWithCurve.maxEncodedLen := by
  have hvalid : validateVk sampleArk sampleLongVk = .ok () := by decide +kernel
  have hlength : sampleLongVk.encode.length = 7059 := by decide +kernel
  have hticket : sampleConfig.ticket.new 2 ⟨1, sampleLongVk.encode.length⟩ sampleSavings =
      .ok (7059, sampleSavings.hold () 2 7059) := by
    rw [hlength]
    rfl
  refine ⟨hvalid, stored_of_registerVk hvalid hticket, ?_⟩
  rw [hlength]
  decide

end ZkVerify.Verifiers.Groth16
