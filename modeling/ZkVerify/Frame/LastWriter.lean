import Mathlib.Data.List.Count
import Mathlib.Algebra.Order.BigOperators.Group.Multiset
import Mathlib.Algebra.BigOperators.Group.Finset.Basic
import Mathlib.Order.Basic

/-!
# Last-writer-wins registers

A register holds the value with the greatest time among those written to it.  Writes come in
any order, and one that is not newer than what the register holds is dropped.  So the
registers after a list of writes depend only on which writes it has, as long as two writes to
one register never have the same time: `Latest.unique`.

A list whose elements belong to registers is determined, up to the order, by the elements of
each register.
-/

namespace Frame.LastWriter

variable {K T V : Type}

/-- A value that is written to the register `key` at a time. -/
structure Write (K T V : Type) where
  key : K
  time : T
  value : V

/-- What the registers hold. -/
abbrev Registers (K T V : Type) := K → Option (T × V)

section Writes

variable [LinearOrder T]

/-- Each register holds its latest write. -/
structure Latest (ws : List (Write K T V)) (m : Registers K T V) : Prop where
  mem : ∀ k t v, m k = some (t, v) → ⟨k, t, v⟩ ∈ ws
  exists_ge : ∀ w ∈ ws, ∃ t v, m w.key = some (t, v) ∧ w.time ≤ t

theorem latest_nil : Latest ([] : List (Write K T V)) (fun _ => none) where
  mem k t v h := by cases h
  exists_ge w h := by cases h

/-- The latest writes do not depend on the order in which the writes come. -/
theorem Latest.unique {ws ws' : List (Write K T V)} {m m' : Registers K T V} (h : Latest ws m)
    (h' : Latest ws' m') (hmem : ∀ w, w ∈ ws ↔ w ∈ ws')
    (hdistinct : ∀ w ∈ ws, ∀ w' ∈ ws, w.key = w'.key → w.time = w'.time → w = w') : m = m' := by
  funext k
  cases hk : m k with
  | none =>
      cases hk' : m' k with
      | none => rfl
      | some value =>
          obtain ⟨t', v'⟩ := value
          obtain ⟨t, v, ht, -⟩ := h.exists_ge _ ((hmem _).mpr (h'.mem k t' v' hk'))
          rw [hk] at ht
          cases ht
  | some value =>
      obtain ⟨t, v⟩ := value
      have hw := h.mem k t v hk
      obtain ⟨t', v', hk', hle'⟩ := h'.exists_ge _ ((hmem _).mp hw)
      have hw' := (hmem _).mpr (h'.mem k t' v' hk')
      obtain ⟨t'', v'', hk'', hle⟩ := h.exists_ge _ hw'
      obtain ⟨rfl, rfl⟩ := Prod.mk.inj (Option.some.inj (hk.symm.trans hk''))
      -- Both writes are the latest one, so they have the same time.
      have hsame := hdistinct _ hw _ hw' rfl (le_antisymm hle' hle)
      rw [hk']
      cases hsame
      rfl

/-- The write is newer than what its register holds. -/
def newer (m : Registers K T V) (w : Write K T V) : Bool :=
  (m w.key).all fun held => decide (held.1 < w.time)

theorem newer_eq_true {m : Registers K T V} {w : Write K T V} :
    newer m w = true ↔ ∀ t v, m w.key = some (t, v) → t < w.time := by
  rw [newer]
  rcases m w.key with _ | ⟨t, v⟩ <;> simp

theorem newer_eq_false {m : Registers K T V} {w : Write K T V} :
    newer m w = false ↔ ∃ t v, m w.key = some (t, v) ∧ w.time ≤ t := by
  rw [newer]
  rcases m w.key with _ | ⟨t, v⟩ <;> simp

variable [DecidableEq K]

/-- Write to a register if the write is newer. -/
def write (m : Registers K T V) (w : Write K T V) : Registers K T V :=
  if newer m w then Function.update m w.key (some (w.time, w.value)) else m

theorem write_of_newer {m : Registers K T V} {w : Write K T V} (h : newer m w = true) :
    write m w = Function.update m w.key (some (w.time, w.value)) :=
  if_pos h

theorem write_of_not_newer {m : Registers K T V} {w : Write K T V} (h : newer m w = false) :
    write m w = m :=
  if_neg (by simp [h])

theorem Latest.write {ws : List (Write K T V)} {m : Registers K T V} (h : Latest ws m)
    (w : Write K T V) : Latest (ws ++ [w]) (write m w) := by
  cases hnewer : newer m w with
  | true =>
      rw [write_of_newer hnewer]
      refine ⟨fun k t v hk => ?_, fun w' hw' => ?_⟩
      · by_cases hkey : k = w.key
        · subst hkey
          rw [Function.update_self] at hk
          cases hk
          exact List.mem_append_right _ List.mem_cons_self
        · rw [Function.update_of_ne hkey] at hk
          exact List.mem_append_left _ (h.mem k t v hk)
      · by_cases hkey : w'.key = w.key
        · refine ⟨w.time, w.value, by rw [hkey, Function.update_self], ?_⟩
          rcases List.mem_append.mp hw' with hold | hlast
          · obtain ⟨t, v, ht, hle⟩ := h.exists_ge w' hold
            exact hle.trans (newer_eq_true.mp hnewer t v (hkey ▸ ht)).le
          · rw [List.mem_singleton.mp hlast]
        · rw [Function.update_of_ne hkey]
          rcases List.mem_append.mp hw' with hold | hlast
          · exact h.exists_ge w' hold
          · exact absurd (congrArg Write.key (List.mem_singleton.mp hlast)) hkey
  | false =>
      rw [write_of_not_newer hnewer]
      refine ⟨fun k t v hk => List.mem_append_left _ (h.mem k t v hk), fun w' hw' => ?_⟩
      rcases List.mem_append.mp hw' with hold | hlast
      · exact h.exists_ge w' hold
      · rw [List.mem_singleton.mp hlast]
        exact newer_eq_false.mp hnewer

/-- The registers after a list of writes hold the latest ones. -/
theorem latest_foldl (ws : List (Write K T V)) :
    Latest ws (ws.foldl LastWriter.write fun _ => none) := by
  induction ws using List.reverseRecOn with
  | nil => exact latest_nil
  | append_singleton ws w ih =>
      rw [List.foldl_append]
      exact ih.write w

end Writes

/-! ## Lists by register -/

section Lists

variable {α : Type} [DecidableEq K] (key : α → K)

/-- The length of a list is the sum of the lengths by register. -/
theorem length_eq_sum {l : List α} {keys : Finset K} (h : ∀ a ∈ l, key a ∈ keys) :
    l.length = ∑ k ∈ keys, (l.filter fun a => decide (key a = k)).length := by
  have hcount : ∀ k ∈ keys, (l.filter fun a => decide (key a = k)).length =
      Multiset.count k (l.map key : Multiset K) := by
    intro k _
    rw [Multiset.coe_count, List.count, List.countP_map, List.countP_eq_length_filter]
    rfl
  rw [Finset.sum_congr rfl hcount, Multiset.sum_count_eq_card, Multiset.coe_card, List.length_map]
  intro k hk
  obtain ⟨a, ha, rfl⟩ := List.mem_map.mp (Multiset.mem_coe.mp hk)
  exact h a ha

/-- Lists with the same elements for each register are permutations of each other. -/
theorem perm_of_filter_eq [DecidableEq α] {l l' : List α}
    (h : ∀ k, (l.filter fun a => decide (key a = k)) = l'.filter fun a => decide (key a = k)) :
    l.Perm l' := by
  rw [List.perm_iff_count]
  intro a
  rw [← List.count_filter (p := fun b => decide (key b = key a)) (by simp), h,
    List.count_filter (by simp)]

end Lists

end Frame.LastWriter
