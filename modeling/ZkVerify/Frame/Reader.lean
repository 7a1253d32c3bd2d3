import Mathlib.Algebra.Order.BigOperators.Group.List
import Mathlib.Algebra.Order.Ring.Nat
import ZkVerify.Frame.Codec

/-!
# Readers of a fixed size

A `Reader` takes a value from the front of a slice and ignores what follows it, so a
slice can be longer than the value in it.  A list of slices is more than its
concatenation then: the same bytes can be cut at other places, and another cut puts
other values at the front.

The main result says what can go wrong.  Two cuts of the same bytes into equally many
slices give the same values if and only if, wherever a slice starts at another place,
the bytes at the two places agree.  A cut into slices without surplus bytes is the only
one.
-/

namespace Frame

/-- A reader of values that take `size` bytes each. -/
structure Reader (α : Type) where
  size : ℕ
  /-- The value of exactly `size` bytes, if they have one. -/
  parse : Bytes → Option α

/-- The place where slice `i` starts in the concatenation. -/
def offset (slices : List Bytes) (i : ℕ) : ℕ := (slices.take i).flatten.length

/-- The `n` bytes at a place. -/
def window (n : ℕ) (bytes : Bytes) (start : ℕ) : Bytes := (bytes.drop start).take n

/-! ## One slice -/

namespace Reader

variable {α : Type} {r : Reader α}

/-- The value at the front of a slice; a slice that is too short is refused. -/
def read (r : Reader α) (bytes : Bytes) : Option α :=
  if bytes.length < r.size then none else r.parse (bytes.take r.size)

/-- Every value has at most one code. -/
def Canonical (r : Reader α) : Prop :=
  ∀ u v a, u.length = r.size → v.length = r.size →
    r.parse u = some a → r.parse v = some a → u = v

theorem read_eq_some {bytes : Bytes} {a : α} :
    r.read bytes = some a ↔ r.size ≤ bytes.length ∧ r.parse (bytes.take r.size) = some a := by
  unfold read
  split_ifs with h
  · simp [Nat.not_le_of_lt h]
  · simp [Nat.le_of_not_lt h]

theorem Canonical.read_inj (hr : r.Canonical) {u v : Bytes} {a : α} (hu : r.read u = some a)
    (hv : r.read v = some a) : u.take r.size = v.take r.size := by
  obtain ⟨hu, hua⟩ := read_eq_some.mp hu
  obtain ⟨hv, hva⟩ := read_eq_some.mp hv
  exact hr _ _ a (List.length_take_of_le hu) (List.length_take_of_le hv) hua hva

theorem read_congr {u v : Bytes} {a b : α} (hu : r.read u = some a) (hv : r.read v = some b)
    (h : u.take r.size = v.take r.size) : a = b := by
  have hua := (read_eq_some.mp hu).2
  have hvb := (read_eq_some.mp hv).2
  rw [h, hvb] at hua
  exact (Option.some.inj hua).symm

/-- The reader of the numbers below a modulus, the least significant byte first. -/
def residues (size modulus : ℕ) : Reader ℕ where
  size := size
  parse bytes := if ofLittleEndian bytes < modulus then some (ofLittleEndian bytes) else none

theorem canonical_residues (size modulus : ℕ) : (residues size modulus).Canonical := by
  intro u v n hu hv hun hvn
  have hparse : ∀ w, (residues size modulus).parse w = some n → ofLittleEndian w = n := by
    intro w hw
    simp only [residues, Option.ite_none_right_eq_some, Option.some.injEq] at hw
    exact hw.2
  calc u = littleEndian u.length (ofLittleEndian u) := (littleEndian_ofLittleEndian u).symm
    _ = littleEndian v.length (ofLittleEndian v) := by rw [hu, hv, hparse u hun, hparse v hvn]
    _ = v := littleEndian_ofLittleEndian v

/-! ## A list of slices -/

/-- The values at the front of the slices. -/
def readAll (r : Reader α) (slices : List Bytes) : Option (List α) := slices.mapM r.read

theorem readAll_cons {u : Bytes} {slices : List Bytes} {values : List α} :
    r.readAll (u :: slices) = some values ↔
      ∃ a rest, r.read u = some a ∧ r.readAll slices = some rest ∧ values = a :: rest := by
  simp only [readAll, List.mapM_cons, Option.pure_def, Option.bind_eq_bind,
    Option.bind_eq_some_iff, Option.some.injEq]
  grind

theorem size_le_of_readAll {slices : List Bytes} {values : List α}
    (h : r.readAll slices = some values) : ∀ u ∈ slices, r.size ≤ u.length := by
  induction slices generalizing values with
  | nil => simp
  | cons u slices ih =>
      obtain ⟨a, rest, hu, hrest, -⟩ := readAll_cons.mp h
      intro v hv
      rcases List.mem_cons.mp hv with rfl | hv
      · exact (read_eq_some.mp hu).1
      · exact ih hrest v hv

/-- The values are equal when the slices have the same front. -/
theorem Canonical.readAll_eq_iff (hr : r.Canonical) {l m : List Bytes} {values values' : List α}
    (hl : r.readAll l = some values) (hm : r.readAll m = some values') :
    values = values' ↔ l.map (List.take r.size) = m.map (List.take r.size) := by
  induction l generalizing m values values' with
  | nil =>
      obtain rfl : [] = values := Option.some.inj hl
      cases m with
      | nil =>
          obtain rfl : [] = values' := Option.some.inj hm
          simp
      | cons v m =>
          obtain ⟨b, rest', -, -, rfl⟩ := readAll_cons.mp hm
          simp
  | cons u l ih =>
      obtain ⟨a, rest, hu, hrest, rfl⟩ := readAll_cons.mp hl
      cases m with
      | nil =>
          obtain rfl : [] = values' := Option.some.inj hm
          simp
      | cons v m =>
          obtain ⟨b, rest', hv, hrest', rfl⟩ := readAll_cons.mp hm
          have hfront : a = b ↔ u.take r.size = v.take r.size := by
            constructor
            · rintro rfl
              exact hr.read_inj hu hv
            · exact read_congr hu hv
          simp only [List.cons.injEq, List.map_cons, hfront, ih hrest hrest']

end Reader

/-! ## Cuts of the same bytes -/

section Cuts

variable {l m : List Bytes} {n : ℕ}

theorem drop_offset (l : List Bytes) (i : ℕ) :
    l.flatten.drop (offset l i) = (l.drop i).flatten := by
  unfold offset
  conv_lhs => rw [← List.take_append_drop i l]
  rw [List.flatten_append, List.take_append_drop, List.drop_left]

/-- The bytes at the start of a slice are its front. -/
theorem window_offset {i : ℕ} (hi : i < l.length) (hn : n ≤ l[i].length) :
    window n l.flatten (offset l i) = l[i].take n := by
  rw [window, drop_offset, List.drop_eq_getElem_cons hi, List.flatten_cons,
    List.take_append_of_le_length hn]

/-- Two cuts have the same fronts if and only if the bytes agree at all starts that differ. -/
theorem map_take_eq_iff (hlength : l.length = m.length) (hbytes : l.flatten = m.flatten)
    (hl : ∀ u ∈ l, n ≤ u.length) (hm : ∀ u ∈ m, n ≤ u.length) :
    l.map (List.take n) = m.map (List.take n) ↔
      ∀ i < l.length, offset l i ≠ offset m i →
        window n l.flatten (offset l i) = window n l.flatten (offset m i) := by
  have hfront : ∀ i (hi : i < l.length) (hi' : i < m.length), l[i].take n = m[i].take n ↔
      window n l.flatten (offset l i) = window n l.flatten (offset m i) := by
    intro i hi hi'
    rw [window_offset hi (hl _ (List.getElem_mem hi)), hbytes,
      window_offset hi' (hm _ (List.getElem_mem hi'))]
  constructor
  · intro h i hi _
    apply (hfront i hi (hlength ▸ hi)).mp
    have hget := List.getElem_of_eq h (i := i) (by simpa using hi)
    simpa using hget
  · intro h
    apply List.ext_getElem (by simpa using hlength)
    intro i hi hi'
    rw [List.length_map] at hi hi'
    rw [List.getElem_map, List.getElem_map]
    apply (hfront i hi hi').mpr
    -- Where the starts agree, the bytes do.
    by_cases hoffset : offset l i = offset m i
    · rw [hoffset]
    · exact h i hi hoffset

/-- A cut without surplus bytes is the only one. -/
theorem eq_of_exact (hlength : l.length = m.length) (hbytes : l.flatten = m.flatten)
    (hl : ∀ u ∈ l, u.length = n) (hm : ∀ u ∈ m, n ≤ u.length) : l = m := by
  induction l generalizing m with
  | nil => exact (List.length_eq_zero_iff.mp hlength.symm).symm
  | cons u l ih =>
      cases m with
      | nil => simp at hlength
      | cons v m =>
          have hu := hl u List.mem_cons_self
          have hl' : ∀ w ∈ l, w.length = n := fun w hw => hl w (List.mem_cons_of_mem u hw)
          have hm' : ∀ w ∈ m, n ≤ w.length := fun w hw => hm w (List.mem_cons_of_mem v hw)
          have hlen : l.length = m.length := Nat.succ.inj hlength
          rw [List.flatten_cons, List.flatten_cons] at hbytes
          have hsum := congrArg List.length hbytes
          rw [List.length_append, List.length_append] at hsum
          -- The other slices leave at most `n` bytes for this one.
          have hsuml : l.flatten.length ≤ l.length * n := by
            rw [List.length_flatten]
            simpa using List.sum_le_card_nsmul (l.map List.length) n (by grind)
          have hsumm : m.length * n ≤ m.flatten.length := by
            rw [List.length_flatten]
            simpa using List.card_nsmul_le_sum (m.map List.length) n (by simpa)
          have hv : u.length = v.length := by
            have hge := hm v List.mem_cons_self
            rw [hlen] at hsuml
            omega
          obtain ⟨rfl, hrest⟩ := List.append_inj hbytes hv
          rw [ih hlen hrest hl' hm']

end Cuts

end Frame
