import Mathlib.Algebra.BigOperators.Group.Finset.Basic
import Mathlib.Data.Finmap
import Mathlib.Tactic.Abel

/-!
# Storage maps and bounded collections

A storage map is a `Finmap`: a finite map with extensional equality.  What this
file adds to it is the sum of a function over its entries, `Finmap.total`, and how
one insertion or one removal changes that sum.  The laws are written as balances,
with the old value of the key on one side and the new value on the other, so that
they need no subtraction and no case split on whether the key was there.

`BoundedVec` and `BoundedMap` are the collections whose length is bounded by their
type.  The bound is a field, so a collection beyond it cannot be built: pushing to
a full one returns `none`.
-/

namespace Finmap

variable {K V M : Type} [DecidableEq K] [AddCommMonoid M]

theorem keys_insert (m : Finmap fun _ : K => V) (k : K) (v : V) :
    (m.insert k v).keys = Insert.insert k m.keys := by
  ext j
  simp [mem_keys]

theorem card_keys_insert {m : Finmap fun _ : K => V} {k : K} (v : V) (h : k ∉ m) :
    (m.insert k v).keys.card = m.keys.card + 1 := by
  rw [keys_insert, Finset.card_insert_of_notMem (mt mem_keys.mp h)]

theorem eq_empty_of_card {m : Finmap fun _ : K => V} (h : m.keys.card = 0) : m = ∅ := by
  refine ext_lookup fun k => ?_
  rw [lookup_empty, lookup_eq_none, ← mem_keys, Finset.card_eq_zero.mp h]
  exact Finset.notMem_empty k

theorem lookup_insert_eq_update (m : Finmap fun _ : K => V) (k : K) (v : V) :
    (fun j => (m.insert k v).lookup j) = Function.update (fun j => m.lookup j) k (some v) := by
  funext j
  by_cases hj : j = k
  · subst hj
    rw [lookup_insert, Function.update_self]
  · rw [lookup_insert_of_ne _ hj, Function.update_of_ne hj]

theorem lookup_erase_eq_update (m : Finmap fun _ : K => V) (k : K) :
    (fun j => (m.erase k).lookup j) = Function.update (fun j => m.lookup j) k none := by
  funext j
  by_cases hj : j = k
  · subst hj
    rw [lookup_erase, Function.update_self]
  · rw [lookup_erase_ne hj, Function.update_of_ne hj]

/-- What holds of a new entry and of the old ones holds of all entries. -/
theorem forall_lookup_insert {P : K → V → Prop} {m : Finmap fun _ : K => V} {k : K} {v : V}
    (hnew : P k v) (hold : ∀ j w, j ≠ k → m.lookup j = some w → P j w) :
    ∀ j w, (m.insert k v).lookup j = some w → P j w := by
  intro j w hlookup
  by_cases hj : j = k
  · subst hj
    rw [lookup_insert] at hlookup
    cases hlookup
    exact hnew
  · rw [lookup_insert_of_ne _ hj] at hlookup
    exact hold j w hj hlookup

/-- What holds of all entries still does when one is removed. -/
theorem forall_lookup_erase {P : K → V → Prop} {m : Finmap fun _ : K => V} {k : K}
    (hold : ∀ j w, j ≠ k → m.lookup j = some w → P j w) :
    ∀ j w, (m.erase k).lookup j = some w → P j w := by
  intro j w hlookup
  by_cases hj : j = k
  · subst hj
    simp at hlookup
  · rw [lookup_erase_ne hj] at hlookup
    exact hold j w hj hlookup

/-- An entry is still there after a related value was written over one of the entries, and it is
related to what it was. -/
theorem exists_lookup_insert {R : V → V → Prop} (hrefl : ∀ v, R v v)
    {m : Finmap fun _ : K => V} {j k : K} {v v' w : V} (hold : m.lookup k = some v) (hR : R v v')
    (hlookup : m.lookup j = some w) : ∃ w', (m.insert k v').lookup j = some w' ∧ R w w' := by
  by_cases hj : j = k
  · subst hj
    rw [hold] at hlookup
    cases hlookup
    exact ⟨v', lookup_insert _, hR⟩
  · exact ⟨w, by rw [lookup_insert_of_ne _ hj, hlookup], hrefl w⟩

/-- A function can be applied to all values of a map. -/
theorem exists_lookup_map {W : Type} (f : V → W) (m : Finmap fun _ : K => V) :
    ∃ m' : Finmap fun _ : K => W, ∀ k, m'.lookup k = (m.lookup k).map f := by
  have hdomain : ∀ k, ((m.lookup k).map f).isSome ↔ k ∈ m.keys := by
    intro k
    rw [Option.isSome_map, lookup_isSome, mem_keys]
  exact ⟨keysLookupEquiv.symm ⟨(m.keys, fun k => (m.lookup k).map f), hdomain⟩,
    keysLookupEquiv_symm_apply_lookup _⟩

/-- The sum of `f` over the entries of a map. -/
def total (f : K → V → M) (m : Finmap fun _ : K => V) : M :=
  ∑ k ∈ m.keys, (m.lookup k).elim 0 (f k)

variable (f : K → V → M) (m : Finmap fun _ : K => V) (k : K)

@[simp] theorem total_empty : total f ∅ = 0 := by simp [total]

/-- The sum is the value at one key and the sum over the others. -/
theorem total_eq_elim_add :
    total f m = (m.lookup k).elim 0 (f k) + ∑ j ∈ m.keys.erase k, (m.lookup j).elim 0 (f j) := by
  unfold total
  by_cases hk : k ∈ m.keys
  · exact (Finset.add_sum_erase _ _ hk).symm
  · have hnone : m.lookup k = none := lookup_eq_none.mpr (mt mem_keys.mpr hk)
    rw [Finset.erase_eq_of_notMem hk, hnone]
    simp

theorem total_insert (v : V) :
    total f (m.insert k v) + (m.lookup k).elim 0 (f k) = total f m + f k v := by
  have hrest : ∑ j ∈ (m.insert k v).keys.erase k, ((m.insert k v).lookup j).elim 0 (f j) =
      ∑ j ∈ m.keys.erase k, (m.lookup j).elim 0 (f j) := by
    rw [keys_insert, Finset.erase_insert_eq_erase]
    refine Finset.sum_congr rfl fun j hj => ?_
    rw [lookup_insert_of_ne _ (Finset.ne_of_mem_erase hj)]
  rw [total_eq_elim_add f (m.insert k v) k, total_eq_elim_add f m k, hrest, lookup_insert]
  simp only [Option.elim_some]
  abel

theorem total_erase : total f (m.erase k) + (m.lookup k).elim 0 (f k) = total f m := by
  have hrest : ∑ j ∈ (m.erase k).keys.erase k, ((m.erase k).lookup j).elim 0 (f j) =
      ∑ j ∈ m.keys.erase k, (m.lookup j).elim 0 (f j) := by
    rw [keys_erase, Finset.erase_idem]
    refine Finset.sum_congr rfl fun j hj => ?_
    rw [lookup_erase_ne (Finset.ne_of_mem_erase hj)]
  rw [total_eq_elim_add f (m.erase k) k, total_eq_elim_add f m k, hrest, lookup_erase]
  simp only [Option.elim_none, zero_add]
  abel

variable {f m k}

theorem total_insert_of_notMem (v : V) (h : k ∉ m) :
    total f (m.insert k v) = total f m + f k v := by
  have htotal := total_insert f m k v
  rwa [lookup_eq_none.mpr h, Option.elim_none, add_zero] at htotal

theorem total_insert_of_lookup (v : V) {w : V} (h : m.lookup k = some w) :
    total f (m.insert k v) + f k w = total f m + f k v := by
  have htotal := total_insert f m k v
  rwa [h, Option.elim_some] at htotal

theorem total_erase_of_lookup {v : V} (h : m.lookup k = some v) :
    total f (m.erase k) + f k v = total f m := by
  have htotal := total_erase f m k
  rwa [h, Option.elim_some] at htotal

/-- A function with the same value at all entries. -/
theorem total_const {f : K → V → ℕ} {m : Finmap fun _ : K => V} (c : ℕ)
    (h : ∀ k v, m.lookup k = some v → f k v = c) : total f m = m.keys.card * c := by
  have hconst : ∀ k ∈ m.keys, (m.lookup k).elim 0 (f k) = c := by
    intro k hk
    obtain ⟨v, hv⟩ := mem_iff.mp (mem_keys.mp hk)
    rw [hv, Option.elim_some, h k v hv]
  exact Finset.sum_const_nat hconst

end Finmap

namespace Frame

/-! ## Bounded vectors -/

/-- A list of at most `n` elements. -/
structure BoundedVec (α : Type) (n : ℕ) where
  toList : List α
  length_le : toList.length ≤ n
deriving DecidableEq

namespace BoundedVec

variable {α : Type} {n : ℕ}

/-- The vector without elements. -/
def empty : BoundedVec α n := ⟨[], Nat.zero_le n⟩

@[simp] theorem toList_empty : (empty : BoundedVec α n).toList = [] := rfl

@[ext] theorem ext {v w : BoundedVec α n} (h : v.toList = w.toList) : v = w := by
  cases v
  cases w
  simpa using h

/-- `try_push`: a full vector takes no element. -/
def tryPush (v : BoundedVec α n) (a : α) : Option (BoundedVec α n) :=
  if h : v.toList.length < n then some ⟨v.toList ++ [a], by simpa using Nat.succ_le_of_lt h⟩
  else none

theorem tryPush_of_lt {v : BoundedVec α n} (a : α) (h : v.toList.length < n) :
    ∃ w, v.tryPush a = some w ∧ w.toList = v.toList ++ [a] :=
  ⟨_, dif_pos h, rfl⟩

/-- `try_into` from a list. -/
def tryFrom (l : List α) : Option (BoundedVec α n) :=
  if h : l.length ≤ n then some ⟨l, h⟩ else none

theorem tryFrom_eq_some {l : List α} {v : BoundedVec α n} : tryFrom l = some v ↔ v.toList = l := by
  unfold tryFrom
  constructor
  · intro h
    split at h
    · cases h
      rfl
    · cases h
  · rintro rfl
    exact dif_pos v.length_le

theorem tryPush_eq_some {v w : BoundedVec α n} {a : α} :
    v.tryPush a = some w ↔ w.toList = v.toList ++ [a] := by
  unfold tryPush
  constructor
  · intro h
    split at h
    · cases h
      rfl
    · cases h
  · intro h
    have hlength : v.toList.length < n := by
      have hle := w.length_le
      rw [h, List.length_append, List.length_singleton] at hle
      omega
    rw [dif_pos hlength]
    exact congrArg some (ext h.symm)

/-- `retain`. -/
def retain (v : BoundedVec α n) (keep : α → Bool) : BoundedVec α n :=
  ⟨v.toList.filter keep, (List.length_filter_le _ _).trans v.length_le⟩

@[simp] theorem toList_retain (v : BoundedVec α n) (keep : α → Bool) :
    (v.retain keep).toList = v.toList.filter keep := rfl

end BoundedVec

/-! ## Bounded maps -/

/-- A map of at most `n` entries. -/
structure BoundedMap (K V : Type) (n : ℕ) where
  toFinmap : Finmap fun _ : K => V
  card_le : toFinmap.keys.card ≤ n

namespace BoundedMap

variable {K V : Type} {n : ℕ}

/-- The map without entries. -/
def empty : BoundedMap K V n := ⟨∅, by simp⟩

@[simp] theorem toFinmap_empty : (empty : BoundedMap K V n).toFinmap = ∅ := rfl

@[ext] theorem ext {m m' : BoundedMap K V n} (h : m.toFinmap = m'.toFinmap) : m = m' := by
  cases m
  cases m'
  simpa using h

/-- The number of entries. -/
def length (m : BoundedMap K V n) : ℕ := m.toFinmap.keys.card

variable [DecidableEq K]

/-- The value stored under a key. -/
def get (m : BoundedMap K V n) (k : K) : Option V := m.toFinmap.lookup k

@[simp] theorem get_empty (k : K) : (empty : BoundedMap K V n).get k = none :=
  Finmap.lookup_empty k

/-- `try_insert`: a full map takes no new key. -/
def tryInsert (m : BoundedMap K V n) (k : K) (v : V) : Option (BoundedMap K V n) :=
  if h : (m.toFinmap.insert k v).keys.card ≤ n then some ⟨m.toFinmap.insert k v, h⟩ else none

/-- `remove`. -/
def remove (m : BoundedMap K V n) (k : K) : BoundedMap K V n :=
  ⟨m.toFinmap.erase k, by
    rw [Finmap.keys_erase]
    exact Finset.card_erase_le.trans m.card_le⟩

@[simp] theorem toFinmap_remove (m : BoundedMap K V n) (k : K) :
    (m.remove k).toFinmap = m.toFinmap.erase k := rfl

theorem get_of_length_eq_zero {m : BoundedMap K V n} (h : m.length = 0) (k : K) :
    m.get k = none := by
  rw [get, Finmap.eq_empty_of_card h, Finmap.lookup_empty]

@[simp] theorem get_remove_self (m : BoundedMap K V n) (k : K) : (m.remove k).get k = none :=
  Finmap.lookup_erase k m.toFinmap

theorem get_remove_of_ne (m : BoundedMap K V n) {j k : K} (h : j ≠ k) :
    (m.remove k).get j = m.get j :=
  Finmap.lookup_erase_ne h

theorem get_of_insert_self {m w : BoundedMap K V n} {k : K} {v : V}
    (h : w.toFinmap = m.toFinmap.insert k v) : w.get k = some v := by
  rw [get, h, Finmap.lookup_insert]

theorem get_of_insert_ne {m w : BoundedMap K V n} {j k : K} {v : V}
    (h : w.toFinmap = m.toFinmap.insert k v) (hj : j ≠ k) : w.get j = m.get j := by
  rw [get, h, Finmap.lookup_insert_of_ne _ hj, get]

theorem tryInsert_eq_some {m w : BoundedMap K V n} {k : K} {v : V} :
    m.tryInsert k v = some w ↔ w.toFinmap = m.toFinmap.insert k v := by
  unfold tryInsert
  constructor
  · intro h
    split at h
    · cases h
      rfl
    · cases h
  · intro h
    rw [dif_pos (h ▸ w.card_le)]
    exact congrArg some (ext h.symm)

theorem tryInsert_of_lt {m : BoundedMap K V n} (k : K) (v : V) (h : m.length < n) :
    ∃ w, m.tryInsert k v = some w ∧ w.toFinmap = m.toFinmap.insert k v := by
  have hcard : (m.toFinmap.insert k v).keys.card ≤ n := by
    rw [Finmap.keys_insert]
    exact (Finset.card_insert_le _ _).trans h
  exact ⟨_, dif_pos hcard, rfl⟩

end BoundedMap

end Frame
