import ZkVerify.Frame.Collections

/-!
# Counted references

Two maps: `refs` has one entry for every pair of a holder and a key it refers to,
and `entries` has one entry for every key that is referred to, with a counter.
`RefCounted` says that the two agree: the counter of a key is the number of its
holders, and a key without holders has no entry.

The rules say how a new reference (`RefCounted.acquire`) and a dropped one
(`RefCounted.release`, `RefCounted.release_last`) keep the maps in agreement.
-/

namespace Frame

variable {A K T E : Type} [DecidableEq A] [DecidableEq K]

/-- Those that hold a reference to `k`. -/
def holders (refs : Finmap fun _ : A × K => T) (k : K) : Finset A :=
  (refs.keys.filter fun ref => ref.2 = k).image Prod.fst

section holders

variable {refs : Finmap fun _ : A × K => T} {a b : A} {j k : K} {t : T}

theorem mem_holders : a ∈ holders refs k ↔ (a, k) ∈ refs := by
  simp [holders, Finmap.mem_keys]

theorem holders_insert (h : (a, k) ∉ refs) :
    (holders (refs.insert (a, k) t) k).card = (holders refs k).card + 1 := by
  have hinsert : holders (refs.insert (a, k) t) k = insert a (holders refs k) := by
    ext b
    simp [mem_holders]
  rw [hinsert, Finset.card_insert_of_notMem (mem_holders.not.mpr h)]

theorem holders_insert_of_ne (h : j ≠ k) :
    holders (refs.insert (a, k) t) j = holders refs j := by
  ext b
  simp [mem_holders, h]

theorem holders_erase (h : (a, k) ∈ refs) :
    (holders (refs.erase (a, k)) k).card + 1 = (holders refs k).card := by
  have herase : holders (refs.erase (a, k)) k = (holders refs k).erase a := by
    ext b
    simp [mem_holders]
  rw [herase, Finset.card_erase_add_one (mem_holders.mpr h)]

theorem holders_erase_of_ne (h : j ≠ k) : holders (refs.erase (a, k)) j = holders refs j := by
  ext b
  simp [mem_holders, h]

end holders

/-- The counter of every key is the number of its holders, and only keys with holders have an
entry. -/
structure RefCounted (count : E → ℕ) (refs : Finmap fun _ : A × K => T)
    (entries : Finmap fun _ : K => E) : Prop where
  counted : ∀ k, (entries.lookup k).elim 0 count = (holders refs k).card
  positive : ∀ k e, entries.lookup k = some e → 0 < count e

namespace RefCounted

variable {count : E → ℕ} {refs : Finmap fun _ : A × K => T} {entries : Finmap fun _ : K => E}
  {a : A} {k : K} {t : T} {e e' : E}

theorem empty : RefCounted count (∅ : Finmap fun _ : A × K => T) (∅ : Finmap fun _ : K => E) := by
  constructor <;> simp [holders]

/-- The counter of an entry is the number of holders. -/
theorem count_eq (h : RefCounted count refs entries) (he : entries.lookup k = some e) :
    count e = (holders refs k).card := by
  simpa [he] using h.counted k

/-- A key has an entry exactly if it has a holder. -/
theorem mem_iff (h : RefCounted count refs entries) : k ∈ entries ↔ ∃ a, (a, k) ∈ refs := by
  have hcounted := h.counted k
  constructor
  · intro hmem
    obtain ⟨e, he⟩ := Finmap.mem_iff.mp hmem
    have hpos := h.positive k e he
    rw [h.count_eq he, Finset.card_pos] at hpos
    obtain ⟨a, ha⟩ := hpos
    exact ⟨a, mem_holders.mp ha⟩
  · rintro ⟨a, ha⟩
    by_contra hmem
    rw [Finmap.lookup_eq_none.mpr hmem, Option.elim_none, eq_comm, Finset.card_eq_zero] at hcounted
    simpa [hcounted] using mem_holders.mpr ha

/-- The entries are converted, with their counters. -/
theorem of_lookup_map {F : Type} {count' : F → ℕ} {g : E → F} {entries' : Finmap fun _ : K => F}
    (h : RefCounted count refs entries)
    (hentries : ∀ k, entries'.lookup k = (entries.lookup k).map g)
    (hcount : ∀ e, count' (g e) = count e) : RefCounted count' refs entries' where
  counted k := by
    rw [hentries, ← h.counted]
    cases entries.lookup k with
    | none => rfl
    | some e => exact hcount e
  positive k f hf := by
    rw [hentries, Option.map_eq_some_iff] at hf
    obtain ⟨e, he, rfl⟩ := hf
    rw [hcount]
    exact h.positive k e he

/-- A new holder: the counter of the key grows by one. -/
theorem acquire (h : RefCounted count refs entries) (hnew : (a, k) ∉ refs)
    (he : count e = (entries.lookup k).elim 0 count + 1) :
    RefCounted count (refs.insert (a, k) t) (entries.insert k e) where
  counted := by
    intro j
    by_cases hj : j = k
    · subst hj
      rw [Finmap.lookup_insert, Option.elim_some, holders_insert hnew, he, h.counted]
    · rw [Finmap.lookup_insert_of_ne _ hj, holders_insert_of_ne hj]
      exact h.counted j
  positive := Finmap.forall_lookup_insert (by omega) fun j w _ => h.positive j w

/-- A holder leaves and others remain: the counter falls by one. -/
theorem release (h : RefCounted count refs entries) (hmem : (a, k) ∈ refs)
    (hlookup : entries.lookup k = some e) (he : count e' + 1 = count e) (hpos : 0 < count e') :
    RefCounted count (refs.erase (a, k)) (entries.insert k e') where
  counted := by
    intro j
    by_cases hj : j = k
    · subst hj
      have hcount := h.count_eq hlookup
      have herase := holders_erase hmem
      rw [Finmap.lookup_insert, Option.elim_some]
      omega
    · rw [Finmap.lookup_insert_of_ne _ hj, holders_erase_of_ne hj]
      exact h.counted j
  positive := Finmap.forall_lookup_insert hpos fun j w _ => h.positive j w

/-- The last holder leaves: the entry of the key goes with it. -/
theorem release_last (h : RefCounted count refs entries) (hmem : (a, k) ∈ refs)
    (hlookup : entries.lookup k = some e) (he : count e ≤ 1) :
    RefCounted count (refs.erase (a, k)) (entries.erase k) where
  counted := by
    intro j
    by_cases hj : j = k
    · subst hj
      have hcount := h.count_eq hlookup
      have herase := holders_erase hmem
      rw [Finmap.lookup_erase, Option.elim_none]
      omega
    · rw [Finmap.lookup_erase_ne hj, holders_erase_of_ne hj]
      exact h.counted j
  positive := Finmap.forall_lookup_erase fun j w _ => h.positive j w

end RefCounted

end Frame
