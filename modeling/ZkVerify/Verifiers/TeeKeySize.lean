import ZkVerify.Verifiers.Nitro

/-!
# The size of a tee key

`Vk::max_encoded_len` is that of one byte vector of `2 * MAX_VK_LENGTH` bytes: four bytes for
the length and the content.  The encoding of an Intel key has a byte for the variant and the
lengths of two vectors, and `validate_vk` admits `MAX_VK_LENGTH` bytes for each of them.
When both are long, every length takes four bytes, so the encoding has nine bytes besides
the content and the declared size has room for four.

So the longest keys do not keep to the declared size.  `key_size_iff` says which keys do:
those with five bytes less than twice `MAX_VK_LENGTH`.
-/

namespace ZkVerify.Verifiers.Tee

open Frame

/-- `Vk::max_encoded_len`. -/
def Vk.maxEncodedLen : ℕ := compactLen (2 * maxVkLength) + 2 * maxVkLength

/-- The parts of an Intel key leave room for the variant and for one more length. -/
def Vk.WithinBound : Vk → Prop
  | .intel tcbResponse certificates =>
      tcbResponse.toList.length + certificates.toList.length + 5 ≤ 2 * maxVkLength
  | .nitro => True

theorem length_encode_intel (tcbResponse certificates : ByteVec) :
    (Vk.intel tcbResponse certificates).encode.length =
      1 + (compactLen tcbResponse.toList.length + tcbResponse.toList.length) +
        (compactLen certificates.toList.length + certificates.toList.length) := by
  simp only [Vk.encode, List.length_cons, List.length_append, length_encodeVec]
  omega

/-- With lengths in bounds, an Intel key keeps to the declared size exactly if it is within the
bound. -/
theorem length_encode_intel_le_iff {tcbResponse certificates : ByteVec}
    (hlengths : lengthsInBounds tcbResponse certificates = true) :
    (Vk.intel tcbResponse certificates).encode.length ≤ Vk.maxEncodedLen ↔
      (Vk.intel tcbResponse certificates).WithinBound := by
  simp only [lengthsInBounds, Bool.and_eq_true, decide_eq_true_eq] at hlengths
  obtain ⟨⟨⟨htcb, hcert⟩, -⟩, -⟩ := hlengths
  have htcbLen : compactLen tcbResponse.toList.length ≤ 4 := compactLen_mono htcb
  have hcertLen : compactLen certificates.toList.length ≤ 4 := compactLen_mono hcert
  have hmax : Vk.maxEncodedLen = 4 + 2 * maxVkLength := rfl
  have hlength : maxVkLength = 2 ^ 16 := rfl
  rw [length_encode_intel, hmax, Vk.WithinBound]
  -- Unless both parts have at least `2 ^ 14` bytes, the key is far below the bound.
  by_cases hlong : 2 ^ 14 ≤ tcbResponse.toList.length ∧ 2 ^ 14 ≤ certificates.toList.length
  · have htcbFour := compactLen_eq_four hlong.1 (by omega)
    have hcertFour := compactLen_eq_four hlong.2 (by omega)
    omega
  · omega

variable {A X C T : Type} {crate : Crate X C} {H : Hashing}

/-- A valid key keeps to the declared size exactly if it is within the bound. -/
theorem length_encode_le_iff_of_valid {vk : Vk} {x : X} (hvalid : validateVk crate vk x = .ok ()) :
    vk.encode.length ≤ Vk.maxEncodedLen ↔ vk.WithinBound := by
  cases vk with
  | intel => exact length_encode_intel_le_iff (validateVk_intel_eq_ok.mp hvalid).1
  | nitro => cases hvalid

variable [DecidableEq A] {cfg : Config A Vk Proof Pubs X T}

/-- An Intel key with lengths in bounds keeps to the declared size exactly if it is within the
bound, in particular every key that `validate_vk` accepts, and so does every key that is stored
after a run.  All stored keys do when all keys that were to be registered are within the bound. -/
theorem key_size_iff (htee : cfg.verifier = verifier H crate) :
    (∀ tcbResponse certificates, lengthsInBounds tcbResponse certificates = true →
      ((Vk.intel tcbResponse certificates).encode.length ≤ Vk.maxEncodedLen ↔
        (Vk.intel tcbResponse certificates).WithinBound)) ∧
      (∀ vk x, validateVk crate vk x = .ok () →
        (vk.encode.length ≤ Vk.maxEncodedLen ↔ vk.WithinBound)) ∧
      ∀ x steps h entry, (run cfg (.genesis x) steps).vks.lookup h = some entry →
        (entry.vk.encode.length ≤ Vk.maxEncodedLen ↔ entry.vk.WithinBound) ∧
        ((∀ origin vk, .call (.registerVk origin vk) ∈ steps → vk.WithinBound) →
          entry.vk.encode.length ≤ Vk.maxEncodedLen) := by
  have hiff : ∀ vk x, cfg.verifier.validateVk vk x = .ok () →
      (vk.encode.length ≤ Vk.maxEncodedLen ↔ vk.WithinBound) := by
    intro vk x hvalid
    rw [htee] at hvalid
    exact length_encode_le_iff_of_valid hvalid
  exact ⟨fun _ _ hlengths => length_encode_intel_le_iff hlengths,
    fun vk x hvalid => length_encode_le_iff_of_valid hvalid,
    fun x steps h entry hlookup => stored_iff x steps hlookup hiff⟩

/-- A crate that accepts every Intel key, on a chain whose state is the time. -/
def sampleIntelCrate : Crate ℕ Unit :=
  { sampleCrate with
    tcbIsDecodable := fun _ => true
    tcbResponseVerify := fun _ _ _ _ => true }

/-- The pallet on the chain of `sampleIntelCrate`, without deposits. -/
def sampleIntelConfig : Config ℕ Vk Proof Pubs ℕ Unit :=
  { sampleConfig with verifier := verifier sampleHashing sampleIntelCrate }

theorem key_size_iff_sample :
    let vk := Vk.intel ⟨[0x7b, 0x7d], by decide⟩ ⟨[0x99], by decide⟩
    validateVk sampleIntelCrate vk 0 = .ok () ∧ vk.encode.length ≤ Vk.maxEncodedLen := by
  intro vk
  have htee : sampleIntelConfig.verifier = verifier sampleHashing sampleIntelCrate := rfl
  have hvalid : validateVk sampleIntelCrate vk 0 = .ok () := by decide
  have hwithin : vk.WithinBound := by
    unfold vk Vk.WithinBound
    decide
  exact ⟨hvalid, ((key_size_iff htee).2.1 vk 0 hvalid).mpr hwithin⟩

/-- The longest part that `validate_vk` admits. -/
def sampleLongPart : ByteVec :=
  ⟨List.replicate maxVkLength 0x20, by rw [List.length_replicate]; decide⟩

/-- A key of two parts of the greatest length. -/
def sampleLongVk : Vk := .intel sampleLongPart sampleLongPart

theorem lengthsInBounds_sampleLongPart : lengthsInBounds sampleLongPart sampleLongPart = true := by
  have hlength : sampleLongPart.toList.length = maxVkLength := List.length_replicate
  have hne : sampleLongPart.toList ≠ [] := by
    intro hnil
    rw [hnil] at hlength
    exact absurd hlength (by decide)
  simp [lengthsInBounds, hlength, hne]

/-- The key is accepted and stored, and it is longer than declared. -/
theorem longest_key_stored :
    validateVk sampleIntelCrate sampleLongVk 0 = .ok () ∧
      (∃ h entry, (run sampleIntelConfig (.genesis 0)
          [.call (.registerVk (.signed 1) sampleLongVk)]).vks.lookup h = some entry ∧
        entry.vk = sampleLongVk) ∧
      ¬ sampleLongVk.encode.length ≤ Vk.maxEncodedLen := by
  have hvalid : validateVk sampleIntelCrate sampleLongVk 0 = .ok () :=
    validateVk_intel_eq_ok.mpr ⟨lengthsInBounds_sampleLongPart, rfl, (), rfl, rfl⟩
  refine ⟨hvalid, stored_of_registerVk hvalid rfl, ?_⟩
  have hlength : sampleLongPart.toList.length = maxVkLength := List.length_replicate
  rw [length_encode_le_iff_of_valid hvalid, sampleLongVk, Vk.WithinBound, hlength]
  omega

end ZkVerify.Verifiers.Tee
