import Mathlib.Data.Nat.Basic
import Mathlib.Order.Lattice
import Mathlib.Tactic.Common

/-!
# Ordered maps as values

A `BTreeMap` that is passed around is the list of its entries, sorted by key, each key
once.  This is the order in which it is iterated.  The order is a field, so a map with a
repeated key cannot be built; collecting a list of entries keeps the last one of each key.
-/

namespace Frame

/-- A `BTreeMap`. -/
structure BTreeMap (K V : Type) [LinearOrder K] where
  entries : List (K × V)
  sorted : entries.Pairwise fun e f => e.1 < f.1

namespace BTreeMap

variable {K V : Type} [LinearOrder K]

/-- The map without entries. -/
def empty : BTreeMap K V := ⟨[], List.Pairwise.nil⟩

/-- The number of entries. -/
def len (m : BTreeMap K V) : ℕ := m.entries.length

/-- Put an entry in its place, over the one with the same key if there is one. -/
def insertEntry (k : K) (v : V) : List (K × V) → List (K × V)
  | [] => [(k, v)]
  | e :: rest =>
      if k < e.1 then (k, v) :: e :: rest
      else if k = e.1 then (k, v) :: rest
      else e :: insertEntry k v rest

variable {k : K} {v : V} {l : List (K × V)}

theorem mem_of_mem_insertEntry {e : K × V} (h : e ∈ insertEntry k v l) : e = (k, v) ∨ e ∈ l := by
  induction l with
  | nil => exact .inl (List.mem_singleton.mp h)
  | cons f rest ih =>
      unfold insertEntry at h
      split at h
      · exact List.mem_cons.mp h
      · split at h
        · exact (List.mem_cons.mp h).imp_right (List.mem_cons_of_mem f)
        · rcases List.mem_cons.mp h with rfl | h
          · exact .inr List.mem_cons_self
          · exact (ih h).imp_right (List.mem_cons_of_mem f)

theorem length_insertEntry_le (k : K) (v : V) (l : List (K × V)) :
    (insertEntry k v l).length ≤ l.length + 1 := by
  induction l with
  | nil => exact le_rfl
  | cons f rest ih =>
      unfold insertEntry
      split
      · exact le_rfl
      · split
        · exact Nat.le_succ _
        · exact Nat.succ_le_succ ih

theorem sorted_insertEntry (h : l.Pairwise fun e f => e.1 < f.1) :
    (insertEntry k v l).Pairwise fun e f => e.1 < f.1 := by
  induction l with
  | nil => exact List.pairwise_singleton _ _
  | cons f rest ih =>
      obtain ⟨hfirst, hrest⟩ := List.pairwise_cons.mp h
      unfold insertEntry
      split
      · rename_i hlt
        refine List.pairwise_cons.mpr ⟨fun e he => ?_, h⟩
        rcases List.mem_cons.mp he with rfl | he
        · exact hlt
        · exact lt_trans hlt (hfirst e he)
      · split
        · rename_i heq
          exact List.pairwise_cons.mpr ⟨fun e he => heq ▸ hfirst e he, hrest⟩
        · rename_i hnlt hne
          refine List.pairwise_cons.mpr ⟨fun e he => ?_, ih hrest⟩
          rcases mem_of_mem_insertEntry he with rfl | he
          · exact lt_of_le_of_ne (not_lt.mp hnlt) (Ne.symm hne)
          · exact hfirst e he

/-- `insert`. -/
def insert (m : BTreeMap K V) (k : K) (v : V) : BTreeMap K V :=
  ⟨insertEntry k v m.entries, sorted_insertEntry m.sorted⟩

/-- `collect` from an iterator over entries. -/
def collect (l : List (K × V)) : BTreeMap K V := l.foldl (fun m e => m.insert e.1 e.2) empty

theorem len_collect_le (l : List (K × V)) : (collect l).len ≤ l.length := by
  have hfold : ∀ m : BTreeMap K V,
      (l.foldl (fun m e => m.insert e.1 e.2) m).len ≤ m.len + l.length := by
    induction l with
    | nil => exact fun m => le_rfl
    | cons e l ih =>
        intro m
        have hinsert : (m.insert e.1 e.2).len ≤ m.len + 1 := length_insertEntry_le _ _ _
        have hrest := ih (m.insert e.1 e.2)
        rw [List.foldl_cons, List.length_cons]
        omega
  have hempty : (empty : BTreeMap K V).len = 0 := rfl
  have h := hfold empty
  rw [hempty, Nat.zero_add] at h
  exact h

end BTreeMap

end Frame
