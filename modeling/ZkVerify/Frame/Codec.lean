import Mathlib.Data.Finset.Sort
import ZkVerify.Frame.Bytes
import ZkVerify.Frame.Collections
import ZkVerify.Frame.Prelude

/-!
# Encodings

An encoding is `Delimited` when it says where it ends: a string that starts with the
code of a value starts with no other code.  Delimited encodings can be put one after
the other, and a list of them can be read back from its concatenation.

The second part is the SCALE encoding of words, lengths, byte vectors and collections.
A vector is preceded by its length as a compact integer, whose two lowest bits say how
many bytes it has.
-/

namespace Frame

/-! ## Delimited encodings -/

section Delimited

variable {α β γ : Type}

/-- The code of a value can be told from what follows it. -/
def Delimited (code : α → List γ) : Prop :=
  ∀ a b u v, code a ++ u = code b ++ v → a = b ∧ u = v

namespace Delimited

variable {code : α → List γ} {code' : β → List γ}

theorem injective (h : Delimited code) : Function.Injective code := by
  intro a b hab
  exact (h a b [] [] (by rw [hab])).1

/-- An injective encoding with codes of one length is delimited. -/
theorem of_length {n : ℕ} (hinj : Function.Injective code) (hlength : ∀ a, (code a).length = n) :
    Delimited code := by
  intro a b u v h
  obtain ⟨hcode, hrest⟩ := List.append_inj h (by rw [hlength, hlength])
  exact ⟨hinj hcode, hrest⟩

/-- An injective encoding is delimited by a separator that occurs in no code. -/
theorem of_separator {separator : γ} (hinj : Function.Injective code)
    (hfree : ∀ a, separator ∉ code a) : Delimited fun a => code a ++ [separator] := by
  -- The first separator is at the same place on both sides.
  have hsplit : ∀ l m u v : List γ, separator ∉ l → separator ∉ m →
      l ++ separator :: u = m ++ separator :: v → l = m ∧ u = v := by
    intro l
    induction l with
    | nil =>
        intro m u v _ hm h
        cases m with
        | nil => exact ⟨rfl, (List.cons.inj h).2⟩
        | cons y m =>
            obtain ⟨rfl, -⟩ := List.cons.inj h
            exact absurd List.mem_cons_self hm
    | cons x l ih =>
        intro m u v hl hm h
        cases m with
        | nil =>
            obtain ⟨rfl, -⟩ := List.cons.inj h
            exact absurd List.mem_cons_self hl
        | cons y m =>
            obtain ⟨rfl, hrest⟩ := List.cons.inj h
            obtain ⟨rfl, huv⟩ := ih m u v (fun hmem => hl (List.mem_cons_of_mem x hmem))
              (fun hmem => hm (List.mem_cons_of_mem x hmem)) hrest
            exact ⟨rfl, huv⟩
  intro a b u v h
  simp only [List.append_assoc, List.singleton_append] at h
  obtain ⟨hcode, huv⟩ := hsplit _ _ u v (hfree a) (hfree b) h
  exact ⟨hinj hcode, huv⟩

/-- One code after the other. -/
theorem append (h : Delimited code) (h' : Delimited code') :
    Delimited fun p : α × β => code p.1 ++ code' p.2 := by
  rintro ⟨a, b⟩ ⟨a', b'⟩ u v heq
  simp only [List.append_assoc] at heq
  obtain ⟨ha, hrest⟩ := h a a' _ _ heq
  obtain ⟨hb, huv⟩ := h' b b' _ _ hrest
  exact ⟨Prod.ext ha hb, huv⟩

/-- A list is determined by the concatenation of the codes of its elements. -/
theorem flatMap_injective (h : Delimited code) (hne : ∀ a, code a ≠ []) :
    Function.Injective fun l : List α => l.flatMap code := by
  intro l
  induction l with
  | nil =>
      intro m hm
      cases m with
      | nil => rfl
      | cons b m =>
          simp only [List.flatMap_nil, List.flatMap_cons] at hm
          exact absurd (List.append_eq_nil_iff.mp hm.symm).1 (hne b)
  | cons a l ih =>
      intro m hm
      cases m with
      | nil =>
          simp only [List.flatMap_nil, List.flatMap_cons] at hm
          exact absurd (List.append_eq_nil_iff.mp hm).1 (hne a)
      | cons b m =>
          simp only [List.flatMap_cons] at hm
          obtain ⟨rfl, hrest⟩ := h a b _ _ hm
          rw [ih hrest]

end Delimited

/-- Arrays of one length are delimited by it. -/
theorem delimited_toList (n : ℕ) : Delimited (Vector.toList : Vector γ n → List γ) :=
  .of_length (fun _ _ h => Vector.toList_inj.mp h) fun v => v.length_toList

end Delimited

/-! ## Words -/

/-- `to_le_bytes`: the `k` lowest bytes of `n`, the least significant one first. -/
def littleEndian : ℕ → ℕ → Bytes
  | 0, _ => []
  | k + 1, n => UInt8.ofNat n :: littleEndian k (n / 256)

@[simp] theorem length_littleEndian (k n : ℕ) : (littleEndian k n).length = k := by
  induction k generalizing n with
  | zero => rfl
  | succ k ih => simp [littleEndian, ih]

/-- A word is determined by its bytes. -/
theorem littleEndian_inj {k m n : ℕ} (hm : m < 256 ^ k) (hn : n < 256 ^ k)
    (h : littleEndian k m = littleEndian k n) : m = n := by
  induction k generalizing m n with
  | zero =>
      rw [pow_zero] at hm hn
      omega
  | succ k ih =>
      obtain ⟨hbyte, hrest⟩ := List.cons.inj h
      have hmod : m % 256 = n % 256 := by
        have hnat := congrArg UInt8.toNat hbyte
        simpa using hnat
      have hdiv : m / 256 = n / 256 :=
        ih (Nat.div_lt_of_lt_mul (by rwa [pow_succ'] at hm))
          (Nat.div_lt_of_lt_mul (by rwa [pow_succ'] at hn)) hrest
      omega

/-- `from_le_bytes`. -/
def ofLittleEndian : Bytes → ℕ
  | [] => 0
  | byte :: bytes => byte.toNat + 256 * ofLittleEndian bytes

theorem littleEndian_ofLittleEndian (bytes : Bytes) :
    littleEndian bytes.length (ofLittleEndian bytes) = bytes := by
  induction bytes with
  | nil => rfl
  | cons byte bytes ih =>
      have hbyte : UInt8.ofNat (byte.toNat + 256 * ofLittleEndian bytes) = byte := by
        apply UInt8.toNat_inj.mp
        have hlt := byte.toNat_lt
        simp only [UInt8.toNat_ofNat']
        omega
      have hdiv : (byte.toNat + 256 * ofLittleEndian bytes) / 256 = ofLittleEndian bytes := by
        have hlt := byte.toNat_lt
        omega
      simp only [List.length_cons, littleEndian, ofLittleEndian, hbyte, hdiv, ih]

theorem ofLittleEndian_littleEndian {k n : ℕ} (h : n < 256 ^ k) :
    ofLittleEndian (littleEndian k n) = n := by
  induction k generalizing n with
  | zero =>
      rw [pow_zero] at h
      rw [littleEndian, ofLittleEndian]
      omega
  | succ k ih =>
      have hdiv : n / 256 < 256 ^ k := Nat.div_lt_of_lt_mul (by rwa [pow_succ'] at h)
      rw [littleEndian, ofLittleEndian, ih hdiv, UInt8.toNat_ofNat']
      omega

/-! ## Reading -/

/-- `decode` of an array of `n` bytes, and what follows it. -/
def readArray (n : ℕ) (bytes : Bytes) : Option (Vector UInt8 n × Bytes) :=
  if h : n ≤ bytes.length then some (⟨(bytes.take n).toArray, by simp [h]⟩, bytes.drop n)
  else none

theorem readArray_append {n : ℕ} (v : Vector UInt8 n) (rest : Bytes) :
    readArray n (v.toList ++ rest) = some (v, rest) := by
  have hlength : n ≤ (v.toList ++ rest).length := by simp
  rw [readArray, dif_pos hlength]
  refine congrArg some (Prod.ext (Vector.toList_inj.mp ?_) ?_)
  · simp [Vector.toList]
  · simp

/-- `decode` of a `u64`, and what follows it. -/
def readU64 (bytes : Bytes) : Option (UInt64 × Bytes) :=
  (readArray 8 bytes).map fun (word, rest) => (UInt64.ofNat (ofLittleEndian word.toList), rest)

theorem readU64_append (n : UInt64) (rest : Bytes) :
    readU64 (littleEndian 8 n.toNat ++ rest) = some (n, rest) := by
  let word : Vector UInt8 8 := ⟨(littleEndian 8 n.toNat).toArray, by simp⟩
  have hword : word.toList = littleEndian 8 n.toNat := by simp [word, Vector.toList]
  have hlt : n.toNat < 256 ^ 8 := n.toNat_lt
  rw [readU64, ← hword, readArray_append]
  simp only [Option.map_some, hword, ofLittleEndian_littleEndian hlt, UInt64.ofNat_toNat]

/-! ## Lengths -/

/-- `Compact<u32>`. -/
def compact (n : ℕ) : Bytes :=
  if n < 2 ^ 6 then littleEndian 1 (4 * n)
  else if n < 2 ^ 14 then littleEndian 2 (4 * n + 1)
  else if n < 2 ^ 30 then littleEndian 4 (4 * n + 2)
  else 3 :: littleEndian 4 n

/-- The word whose bytes a compact integer has. -/
private def compactWord (n : ℕ) : ℕ :=
  if n < 2 ^ 6 then 4 * n
  else if n < 2 ^ 14 then 4 * n + 1
  else if n < 2 ^ 30 then 4 * n + 2
  else 256 * n + 3

private theorem compact_eq (n : ℕ) : compact n = littleEndian (compactLen n) (compactWord n) := by
  unfold compact compactLen compactWord
  split_ifs with h₁ h₂ h₃
  · rfl
  · rfl
  · rfl
  · have hdiv : (256 * n + 3) / 256 = n := by omega
    have hbyte : UInt8.ofNat (256 * n + 3) = 3 := by
      apply UInt8.toNat_inj.mp
      simp
    show _ = UInt8.ofNat (256 * n + 3) :: littleEndian 4 ((256 * n + 3) / 256)
    rw [hdiv, hbyte]

@[simp] theorem length_compact (n : ℕ) : (compact n).length = compactLen n := by
  rw [compact_eq, length_littleEndian]

theorem compactLen_mono {m n : ℕ} (h : m ≤ n) : compactLen m ≤ compactLen n := by
  unfold compactLen
  split_ifs <;> omega

theorem compactLen_eq_two {n : ℕ} (h : 2 ^ 6 ≤ n) (hlt : n < 2 ^ 14) : compactLen n = 2 := by
  rw [compactLen, if_neg (by omega), if_pos hlt]

theorem compactLen_eq_four {n : ℕ} (h : 2 ^ 14 ≤ n) (hlt : n < 2 ^ 30) : compactLen n = 4 := by
  rw [compactLen, if_neg (by omega), if_neg (by omega), if_pos hlt]

/-- The lowest byte of a compact integer determines its length. -/
private theorem compactLen_of_mod {m n : ℕ} (h : compactWord m % 256 = compactWord n % 256) :
    compactLen m = compactLen n := by
  unfold compactWord at h
  unfold compactLen
  split_ifs at h ⊢ <;> first | rfl | omega

private theorem compactWord_lt {n : ℕ} (hn : n ≤ u32Max) : compactWord n < 256 ^ compactLen n := by
  unfold u32Max at hn
  unfold compactWord compactLen
  split_ifs <;> omega

private theorem compactWord_inj {m n : ℕ} (h : compactWord m = compactWord n) : m = n := by
  unfold compactWord at h
  split_ifs at h <;> omega

private theorem compactLen_pos (n : ℕ) : 0 < compactLen n := by
  unfold compactLen
  split_ifs <;> omega

/-- A compact integer says where it ends. -/
theorem compact_append_inj {m n : ℕ} (hm : m ≤ u32Max) (hn : n ≤ u32Max) {u v : Bytes}
    (h : compact m ++ u = compact n ++ v) : m = n ∧ u = v := by
  rw [compact_eq, compact_eq] at h
  have hlen : compactLen m = compactLen n := by
    obtain ⟨j, hj⟩ := Nat.exists_eq_succ_of_ne_zero (compactLen_pos m).ne'
    obtain ⟨k, hk⟩ := Nat.exists_eq_succ_of_ne_zero (compactLen_pos n).ne'
    rw [hj, hk, littleEndian, littleEndian] at h
    have hbyte := congrArg UInt8.toNat (List.cons.inj h).1
    exact compactLen_of_mod (by simpa using hbyte)
  obtain ⟨hword, hrest⟩ := List.append_inj h (by simp [hlen])
  rw [hlen] at hword
  refine ⟨compactWord_inj (littleEndian_inj ?_ (compactWord_lt hn) hword), hrest⟩
  exact hlen ▸ compactWord_lt hm

/-! ## Byte vectors -/

/-- A vector of bytes; its length is a `u32`. -/
abbrev ByteVec := BoundedVec UInt8 u32Max

/-- `encode` of a `Vec<u8>`. -/
def encodeVec (v : ByteVec) : Bytes := compact v.toList.length ++ v.toList

theorem length_encodeVec (v : ByteVec) :
    (encodeVec v).length = compactLen v.toList.length + v.toList.length := by
  rw [encodeVec, List.length_append, length_compact]

theorem delimited_encodeVec : Delimited encodeVec := by
  intro v w u u' h
  simp only [encodeVec, List.append_assoc] at h
  obtain ⟨hlength, hrest⟩ := compact_append_inj v.length_le w.length_le h
  obtain ⟨hlist, hrest⟩ := List.append_inj hrest hlength
  exact ⟨BoundedVec.ext hlist, hrest⟩

/-! ## Options and collections -/

section Collections

variable {α : Type} {code : α → Bytes}

/-- `encode` of an `Option`. -/
def encodeOption (code : α → Bytes) : Option α → Bytes
  | none => [0]
  | some a => 1 :: code a

theorem length_encodeOption_le {n : ℕ} (hcode : ∀ a, (code a).length ≤ n) (o : Option α) :
    (encodeOption code o).length ≤ 1 + n := by
  cases o with
  | none => exact Nat.le_add_right 1 n
  | some a =>
      have hle := hcode a
      simp only [encodeOption, List.length_cons]
      omega

/-- `encode` of a sequence: the number of its items and the items. -/
def encodeSeq (code : α → Bytes) (items : List α) : Bytes :=
  compact items.length ++ items.flatMap code

theorem length_flatMap_le {items : List α} {n : ℕ} (hcode : ∀ a ∈ items, (code a).length ≤ n) :
    (items.flatMap code).length ≤ items.length * n := by
  induction items with
  | nil => simp
  | cons a items ih =>
      have hfirst := hcode a List.mem_cons_self
      have hrest := ih fun b hb => hcode b (List.mem_cons_of_mem a hb)
      rw [List.flatMap_cons, List.length_append, List.length_cons, Nat.succ_mul]
      omega

/-- A sequence of at most `k` items has the bytes of `k` items at most, and of the longest
length. -/
theorem length_encodeSeq_le {items : List α} {k bound n : ℕ} (hlength : items.length ≤ k)
    (hbound : k ≤ bound) (hcode : ∀ a ∈ items, (code a).length ≤ n) :
    (encodeSeq code items).length ≤ compactLen bound + k * n := by
  rw [encodeSeq, List.length_append, length_compact]
  exact Nat.add_le_add (compactLen_mono (hlength.trans hbound))
    ((length_flatMap_le hcode).trans (Nat.mul_le_mul_right n hlength))

variable {V : Type} {n : ℕ}

/-- The entries of a map in the order of their keys. -/
def BoundedMap.entries (m : BoundedMap ℕ V n) : List (ℕ × V) :=
  m.toFinmap.keys.sort.filterMap fun k => (m.get k).map fun v => (k, v)

theorem BoundedMap.mem_entries {m : BoundedMap ℕ V n} {k : ℕ} {v : V} :
    (k, v) ∈ m.entries ↔ m.get k = some v := by
  simp only [entries, List.mem_filterMap, Finset.mem_sort, Finmap.mem_keys, Option.map_eq_some_iff,
    Prod.mk.injEq]
  constructor
  · rintro ⟨j, -, w, hget, rfl, rfl⟩
    exact hget
  · intro hget
    exact ⟨k, Finmap.mem_iff.mpr ⟨v, hget⟩, v, hget, rfl, rfl⟩

theorem BoundedMap.length_entries_le (m : BoundedMap ℕ V n) : m.entries.length ≤ m.length := by
  unfold entries
  exact (List.length_filterMap_le _ _).trans_eq (Finset.length_sort _)

end Collections

end Frame
