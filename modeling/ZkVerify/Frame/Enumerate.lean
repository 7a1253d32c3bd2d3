import ZkVerify.Frame.Collections

/-!
# Draining a storage map

`drain` removes the entries of a map and yields them in the order of their hashed keys, which is no
order that the code could rely on.  `Enumerates entries m` says that a list has the entries of a
map, each of them once; what is proved for all such lists holds for every order.

The two things that the code does with a drained map are to insert what became of its entries into
an empty map (`insertAll`), and to do something for each of them.  For the second,
`Enumerates.cons` takes off one entry at a time.
-/

namespace Finmap

variable {K V W M : Type} [DecidableEq K] [AddCommMonoid M]

/-- A sum over a map whose values were converted. -/
theorem total_of_lookup_map {m : Finmap fun _ : K => V} {m' : Finmap fun _ : K => W} {g : V → W}
    (h : ∀ k, m'.lookup k = (m.lookup k).map g) (f : K → W → M) :
    total f m' = total (fun k v => f k (g v)) m := by
  have hkeys : m'.keys = m.keys := by
    ext k
    rw [mem_keys, mem_keys, ← lookup_isSome, ← lookup_isSome, h, Option.isSome_map]
  unfold total
  rw [hkeys]
  refine Finset.sum_congr rfl fun k _ => ?_
  rw [h]
  cases m.lookup k <;> rfl

end Finmap

namespace Frame

variable {K V W : Type} [DecidableEq K]

/-- The list has the entries of the map, each of them once. -/
structure Enumerates (entries : List (K × V)) (m : Finmap fun _ : K => V) : Prop where
  nodup : (entries.map Prod.fst).Nodup
  mem_iff : ∀ k v, (k, v) ∈ entries ↔ m.lookup k = some v

/-- The map with all entries of a list. -/
def insertAll (entries : List (K × V)) : Finmap fun _ : K => V :=
  entries.foldl (fun m entry => m.insert entry.1 entry.2) ∅

namespace Enumerates

variable {entries : List (K × V)} {m : Finmap fun _ : K => V} {k : K} {v : V}

theorem singleton (k : K) (v : V) :
    Enumerates [(k, v)] ((∅ : Finmap fun _ : K => V).insert k v) := by
  refine ⟨List.nodup_singleton k, fun j w => ?_⟩
  by_cases hj : j = k
  · subst hj
    simp [eq_comm]
  · simp [hj, Finmap.lookup_insert_of_ne]

/-- Nothing is left. -/
theorem eq_empty (h : Enumerates [] m) : m = ∅ := by
  refine Finmap.ext_lookup fun k => ?_
  rw [Finmap.lookup_empty, Option.eq_none_iff_forall_ne_some]
  intro v hv
  exact List.not_mem_nil ((h.mem_iff k v).mpr hv)

/-- The first entry, and what is left without it. -/
theorem cons (h : Enumerates ((k, v) :: entries) m) :
    m.lookup k = some v ∧ Enumerates entries (m.erase k) := by
  obtain ⟨hnot, hnodup⟩ := List.nodup_cons.mp h.nodup
  refine ⟨(h.mem_iff k v).mp List.mem_cons_self, hnodup, fun j w => ?_⟩
  by_cases hj : j = k
  · subst hj
    rw [Finmap.lookup_erase]
    exact ⟨fun hmem => absurd (List.mem_map_of_mem hmem) hnot, nofun⟩
  · rw [Finmap.lookup_erase_ne hj, ← h.mem_iff]
    simp [hj]

/-- The entries after a conversion of their values. -/
theorem map (h : Enumerates entries m) (f : V → W) {m' : Finmap fun _ : K => W}
    (hm' : ∀ k, m'.lookup k = (m.lookup k).map f) :
    Enumerates (entries.map fun entry => (entry.1, f entry.2)) m' := by
  refine ⟨?_, fun k w => ?_⟩
  · rw [List.map_map]
    exact h.nodup
  · rw [hm', List.mem_map, Option.map_eq_some_iff]
    constructor
    · rintro ⟨⟨j, v⟩, hmem, heq⟩
      obtain ⟨rfl, rfl⟩ := Prod.mk.inj heq
      exact ⟨v, (h.mem_iff j v).mp hmem, rfl⟩
    · rintro ⟨v, hlookup, rfl⟩
      exact ⟨(k, v), (h.mem_iff k v).mpr hlookup, rfl⟩

/-- Insertions of other keys change nothing. -/
private theorem lookup_foldl_of_notMem (m₀ : Finmap fun _ : K => V)
    (hk : k ∉ entries.map Prod.fst) :
    (entries.foldl (fun m entry => m.insert entry.1 entry.2) m₀).lookup k = m₀.lookup k := by
  induction entries generalizing m₀ with
  | nil => rfl
  | cons entry entries ih =>
      rw [List.map_cons, List.mem_cons, not_or] at hk
      rw [List.foldl_cons, ih _ hk.2, Finmap.lookup_insert_of_ne _ hk.1]

private theorem lookup_foldl_of_mem (m₀ : Finmap fun _ : K => V)
    (hnodup : (entries.map Prod.fst).Nodup) (hmem : (k, v) ∈ entries) :
    (entries.foldl (fun m entry => m.insert entry.1 entry.2) m₀).lookup k = some v := by
  induction entries generalizing m₀ with
  | nil => cases hmem
  | cons entry entries ih =>
      obtain ⟨hnot, hrest⟩ := List.nodup_cons.mp hnodup
      rw [List.foldl_cons]
      rcases List.mem_cons.mp hmem with rfl | hmem
      · rw [lookup_foldl_of_notMem _ hnot, Finmap.lookup_insert]
      · exact ih _ hrest hmem

/-- Inserting everything that was drained restores the map. -/
theorem insertAll_eq (h : Enumerates entries m) : insertAll entries = m := by
  refine Finmap.ext_lookup fun k => ?_
  cases hlookup : m.lookup k with
  | some v => exact lookup_foldl_of_mem ∅ h.nodup ((h.mem_iff k v).mpr hlookup)
  | none =>
      have hk : k ∉ entries.map Prod.fst := by
        intro hmem
        obtain ⟨⟨_, v⟩, hv, rfl⟩ := List.mem_map.mp hmem
        rw [(h.mem_iff _ v).mp hv] at hlookup
        cases hlookup
      exact (lookup_foldl_of_notMem ∅ hk).trans (Finmap.lookup_empty k)

/-- Inserting what became of everything that was drained. -/
theorem lookup_insertAll_map (h : Enumerates entries m) (f : V → W) (k : K) :
    (insertAll (entries.map fun entry => (entry.1, f entry.2))).lookup k = (m.lookup k).map f := by
  obtain ⟨m', hm'⟩ := Finmap.exists_lookup_map f m
  rw [(h.map f hm').insertAll_eq, hm']

end Enumerates

end Frame
