import Mathlib.Data.Finmap
import Mathlib.Data.Finset.Sort

/-!
# Draining a storage map

The keys of a storage map are ordered.  An iterator over a map has a cursor and nothing
else: in each round it asks for the least key after the cursor, moves there, and, when it
drains the map, deletes the entry.  An entry that cannot be decoded is skipped.

The body of the loop may write to the map that is drained, so that neither the end of the
loop nor what it processes is clear from the outset.  `drainFor_eq_some` is about bodies
that write only to the key of the entry at hand.  The cursor has passed this key, so the
loop ends, and every entry is processed once, in the order of the keys.
-/

namespace Frame

variable {L V W S : Type}

/-! ## Replacing entries -/

section Replace

-- The maps of an instance may compare keys with another procedure than that of their order.
variable [DecidableEq L] (decode : L → V → Option W)

/-- The item stored under a key, if there is an entry and it can be decoded. -/
def itemAt (m : Finmap fun _ : L => V) (k : L) : Option W := (m.lookup k).bind (decode k)

/-- From `m` to `m'` the entries under the keys of the list are replaced, or dropped if they cannot
be decoded; `items` are the decoded ones. -/
structure Replaced (write : W → V) (keys : List L) (m m' : Finmap fun _ : L => V)
    (items : List W) : Prop where
  items_eq : items = keys.filterMap (itemAt decode m)
  written : ∀ k ∈ keys, m'.lookup k = (itemAt decode m k).map write
  kept : ∀ k, k ∉ keys → m'.lookup k = m.lookup k

variable {decode} {write : W → V} {m m₁ m' : Finmap fun _ : L => V} {k : L} {keys : List L}
  {items : List W}

/-- First the entry under `k`, then the others. -/
theorem Replaced.cons (hk : k ∉ keys) (hsame : ∀ j, j ≠ k → m₁.lookup j = m.lookup j)
    (hfirst : m₁.lookup k = (itemAt decode m k).map write)
    (h : Replaced decode write keys m₁ m' items) :
    Replaced decode write (k :: keys) m m' ((itemAt decode m k).toList ++ items) := by
  have hitem : ∀ j ∈ keys, itemAt decode m₁ j = itemAt decode m j := by
    intro j hj
    rw [itemAt, hsame j (ne_of_mem_of_not_mem hj hk), itemAt]
  refine ⟨?_, fun j hj => ?_, fun j hj => ?_⟩
  · rw [h.items_eq, List.filterMap_congr hitem, List.filterMap_cons]
    cases itemAt decode m k <;> rfl
  · rcases List.mem_cons.mp hj with rfl | hj
    · rw [h.kept j hk, hfirst]
    · rw [h.written j hj, hitem j hj]
  · rw [List.mem_cons, not_or] at hj
    rw [h.kept j hj.2, hsame j hj.1]

end Replace

/-! ## The cursor -/

variable [LinearOrder L]

section Cursor

/-- The key comes after the cursor; at the start of an iteration all keys do. -/
def After (cursor : Option L) (k : L) : Prop := ∀ c ∈ cursor, c < k

instance (cursor : Option L) (k : L) : Decidable (After cursor k) :=
  inferInstanceAs (Decidable (∀ c ∈ cursor, c < k))

theorem after_none (k : L) : After none k := fun _ hc => nomatch hc

theorem after_some {c k : L} : After (some c) k ↔ c < k :=
  ⟨fun h => h c rfl, fun h _ hc => Option.some.inj hc ▸ h⟩

/-- `next_key`: the least key after the cursor. -/
def nextKey (m : Finmap fun _ : L => V) (cursor : Option L) : Option L :=
  if h : (m.keys.filter fun k => After cursor k).Nonempty then
    some ((m.keys.filter fun k => After cursor k).min' h)
  else none

theorem nextKey_eq_none {m : Finmap fun _ : L => V} {cursor : Option L}
    (h : ∀ k ∈ m, ¬ After cursor k) : nextKey m cursor = none := by
  rw [nextKey, dif_neg]
  rw [Finset.not_nonempty_iff_eq_empty, Finset.filter_eq_empty_iff]
  exact fun k hk => h k (Finmap.mem_keys.mp hk)

theorem nextKey_eq_some {m : Finmap fun _ : L => V} {cursor : Option L} {k : L} (hk : k ∈ m)
    (hafter : After cursor k) (hleast : ∀ j ∈ m, After cursor j → k ≤ j) :
    nextKey m cursor = some k := by
  have hmem : k ∈ m.keys.filter fun k => After cursor k :=
    Finset.mem_filter.mpr ⟨Finmap.mem_keys.mpr hk, hafter⟩
  rw [nextKey, dif_pos ⟨k, hmem⟩]
  refine congrArg some (le_antisymm (Finset.min'_le _ _ hmem) (Finset.le_min' _ _ _ ?_))
  intro j hj
  obtain ⟨hj, hjafter⟩ := Finset.mem_filter.mp hj
  exact hleast j (Finmap.mem_keys.mp hj) hjafter

end Cursor

/-! ## The loop -/

variable [DecidableEq L] (decode : L → V → Option W)

/-- One round of the draining iterator: where the cursor moves, what is left of the map, and the
item, unless the entry cannot be decoded. -/
def drainNext (m : Finmap fun _ : L => V) (cursor : Option L) :
    Option (L × (Finmap fun _ : L => V) × Option W) :=
  (nextKey m cursor).map fun k => (k, m.erase k, itemAt decode m k)

/-- `for item in drain`: the map and the accumulator after the loop, and the items it processed.
Out of fuel the result is `none`. -/
def drainFor (body : W → (Finmap fun _ : L => V) → S → (Finmap fun _ : L => V) × S) :
    ℕ → Option L → (Finmap fun _ : L => V) → S → Option ((Finmap fun _ : L => V) × S × List W)
  | 0, _, _, _ => none
  | fuel + 1, cursor, m, acc =>
      match drainNext decode m cursor with
      | none => some (m, acc, [])
      | some (k, m, none) => drainFor body fuel (some k) m acc
      | some (k, m, some item) =>
          let (m, acc) := body item m acc
          (drainFor body fuel (some k) m acc).map fun (m, acc, items) => (m, acc, item :: items)

variable {decode} {write : W → V} {m m₁ : Finmap fun _ : L => V} {k : L} {keys : List L}

/-- After a round that changed at most the entry of the least key `k`, the other keys are left. -/
theorem rest_after_round (hsorted : (k :: keys).Pairwise (· < ·)) {cursor : Option L}
    (hkeys : ∀ j, j ∈ k :: keys ↔ j ∈ m ∧ After cursor j)
    (hsame : ∀ j, j ≠ k → m₁.lookup j = m.lookup j) (j : L) :
    j ∈ keys ↔ j ∈ m₁ ∧ After (some k) j := by
  have hmem : j ≠ k → (j ∈ m₁ ↔ j ∈ m) := by
    intro hj
    rw [Finmap.mem_iff, Finmap.mem_iff, hsame j hj]
  rw [after_some]
  constructor
  · intro hj
    have hlt : k < j := List.rel_of_pairwise_cons hsorted hj
    exact ⟨(hmem hlt.ne').mpr ((hkeys j).mp (List.mem_cons_of_mem _ hj)).1, hlt⟩
  · rintro ⟨hj, hlt⟩
    have hafter : After cursor j :=
      fun c hc => (((hkeys k).mp List.mem_cons_self).2 c hc).trans hlt
    have hcons := (hkeys j).mpr ⟨(hmem hlt.ne').mp hj, hafter⟩
    exact (List.mem_cons.mp hcons).resolve_left hlt.ne'

variable {body : W → (Finmap fun _ : L => V) → S → (Finmap fun _ : L => V) × S}
  {record : W → S → S}

/-- The loop from a cursor on.  The induction is on the keys that are left, in their order; the
body writes to keys that the cursor has passed, so what is left does not change. -/
theorem drainFor_rest
    (hbody : ∀ k ∈ keys, ∀ raw item, decode k raw = some item → ∀ m acc,
      body item m acc = (m.insert k (write item), record item acc))
    (hsorted : keys.Pairwise (· < ·)) {fuel : ℕ} (hfuel : keys.length < fuel) {cursor : Option L}
    (hkeys : ∀ k, k ∈ keys ↔ k ∈ m ∧ After cursor k) (acc : S) :
    ∃ m' items, drainFor decode body fuel cursor m acc =
        some (m', items.foldl (fun acc item => record item acc) acc, items) ∧
      Replaced decode write keys m m' items := by
  induction keys generalizing fuel cursor m acc with
  | nil =>
      obtain ⟨fuel, rfl⟩ := Nat.exists_eq_succ_of_ne_zero (Nat.ne_zero_of_lt hfuel)
      have hnext : nextKey m cursor = none :=
        nextKey_eq_none fun k hk hafter => List.not_mem_nil ((hkeys k).mpr ⟨hk, hafter⟩)
      refine ⟨m, [], ?_, rfl, by simp, fun _ _ => rfl⟩
      simp [drainFor, drainNext, hnext]
  | cons k keys ih =>
      obtain ⟨fuel, rfl⟩ := Nat.exists_eq_succ_of_ne_zero (Nat.ne_zero_of_lt hfuel)
      obtain ⟨hk, hafter⟩ := (hkeys k).mp List.mem_cons_self
      have hlt : ∀ j ∈ keys, k < j := fun j hj => List.rel_of_pairwise_cons hsorted hj
      have hnotMem : k ∉ keys := fun hmem => lt_irrefl k (hlt k hmem)
      have hnext : nextKey m cursor = some k := by
        refine nextKey_eq_some hk hafter fun j hj hjafter => ?_
        rcases List.mem_cons.mp ((hkeys j).mpr ⟨hj, hjafter⟩) with rfl | hj
        · exact le_rfl
        · exact (hlt j hj).le
      rw [drainFor, drainNext, hnext, Option.map_some]
      have hfuel' : keys.length < fuel := by simpa using hfuel
      have hbody' := fun j hj => hbody j (List.mem_cons_of_mem k hj)
      cases hitem : itemAt decode m k with
      | none =>
          have hsame : ∀ j, j ≠ k → (m.erase k).lookup j = m.lookup j :=
            fun j hj => Finmap.lookup_erase_ne hj
          obtain ⟨m', items, hrun, hreplaced⟩ :=
            ih hbody' hsorted.of_cons hfuel' (rest_after_round hsorted hkeys hsame) acc
          have hall := hreplaced.cons hnotMem hsame (by rw [hitem, Finmap.lookup_erase]; rfl)
          rw [hitem] at hall
          exact ⟨m', items, hrun, hall⟩
      | some item =>
          obtain ⟨raw, -, hdecode⟩ := Option.bind_eq_some_iff.mp hitem
          have hsame : ∀ j, j ≠ k →
              ((m.erase k).insert k (write item)).lookup j = m.lookup j := by
            intro j hj
            rw [Finmap.lookup_insert_of_ne _ hj, Finmap.lookup_erase_ne hj]
          have hrest := rest_after_round hsorted hkeys hsame
          obtain ⟨m', items, hrun, hreplaced⟩ :=
            ih hbody' hsorted.of_cons hfuel' hrest (record item acc)
          have hall := hreplaced.cons hnotMem hsame (by rw [hitem, Finmap.lookup_insert]; rfl)
          rw [hitem] at hall
          refine ⟨m', item :: items, ?_, hall⟩
          simp only [hbody k List.mem_cons_self raw item hdecode, hrun, Option.map_some,
            List.foldl_cons]

/-- A loop that replaces the entries of the map it drains.  It ends, every entry that can be decoded
is processed once, in the order of the keys, and replaced, and the others are gone. -/
theorem drainFor_eq_some (write : W → V) (record : W → S → S)
    (hbody : ∀ k ∈ m, ∀ raw item, decode k raw = some item → ∀ m acc,
      body item m acc = (m.insert k (write item), record item acc))
    {fuel : ℕ} (hfuel : m.keys.card < fuel) (acc : S) :
    ∃ m' items, drainFor decode body fuel none m acc =
        some (m', items.foldl (fun acc item => record item acc) acc, items) ∧
      items = m.keys.sort.filterMap (itemAt decode m) ∧
      ∀ k, m'.lookup k = (itemAt decode m k).map write := by
  have hkeys : ∀ k, k ∈ m.keys.sort ↔ k ∈ m ∧ After none k := by
    intro k
    rw [Finset.mem_sort, Finmap.mem_keys, and_iff_left (after_none k)]
  obtain ⟨m', items, hrun, hreplaced⟩ :=
    drainFor_rest (fun k hk => hbody k ((hkeys k).mp hk).1) (Finset.sortedLT_sort _).pairwise
      (by rwa [Finset.length_sort]) hkeys acc
  refine ⟨m', items, hrun, hreplaced.items_eq, fun k => ?_⟩
  by_cases hk : k ∈ m.keys.sort
  · exact hreplaced.written k hk
  · have hnone : m.lookup k = none := by
      rw [Finmap.lookup_eq_none, ← Finmap.mem_keys, ← Finset.mem_sort (· ≤ ·)]
      exact hk
    rw [hreplaced.kept k hk, itemAt, hnone, Option.bind_none, Option.map_none]

end Frame
