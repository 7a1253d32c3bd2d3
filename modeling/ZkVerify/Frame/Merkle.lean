import Mathlib.Algebra.Group.Nat.Defs
import Mathlib.Data.Nat.Basic
import Mathlib.Tactic.Common

/-!
# Binary Merkle trees

The tree over a list of nodes: `pairUp` computes a level from the one below, where a last
node without a sibling is promoted as it is, and `root` iterates this.  `path` collects the
siblings from a node up to the root.  `climb` recomputes the root from a node and its path;
it only knows the position of the node and the width of the level, and on a level where
the node is promoted the path has no entry for it.

`climb_path` says that this is complete: the path of a node leads to the root.
-/

namespace Frame.Merkle

variable {N : Type} (combine : N → N → N)

/-! ## Levels -/

/-- The level above. -/
def pairUp : List N → List N
  | [] => []
  | [a] => [a]
  | a :: b :: rest => combine a b :: pairUp rest

theorem length_pairUp (level : List N) :
    (pairUp combine level).length = (level.length + 1) / 2 := by
  fun_induction pairUp combine level with
  | case1 => simp
  | case2 a => simp
  | case3 a b rest ih =>
      simp only [List.length_cons, ih]
      omega

/-- Two neighbours are combined, and a last node without a sibling is promoted. -/
theorem getElem?_pairUp (level : List N) (j : ℕ) :
    (pairUp combine level)[j]? =
      level[2 * j]?.map fun a => (level[2 * j + 1]?).elim a (combine a) := by
  induction j generalizing level with
  | zero =>
      match level with
      | [] => rfl
      | [c] => rfl
      | c :: c' :: rest => rfl
  | succ j ih =>
      match level with
      | [] => rfl
      | [c] => simp [pairUp, Nat.mul_succ]
      | c :: c' :: rest =>
          simp only [pairUp, Nat.mul_succ, List.getElem?_cons_succ]
          exact ih rest

theorem pairUp_of_pair {level : List N} {j : ℕ} {a b : N} (ha : level[2 * j]? = some a)
    (hb : level[2 * j + 1]? = some b) : (pairUp combine level)[j]? = some (combine a b) := by
  rw [getElem?_pairUp, ha, hb]
  rfl

theorem pairUp_of_last {level : List N} {j : ℕ} {a : N} (ha : level[2 * j]? = some a)
    (hb : level[2 * j + 1]? = none) : (pairUp combine level)[j]? = some a := by
  rw [getElem?_pairUp, ha, hb]
  rfl

theorem length_pairUp_lt (a b : N) (rest : List N) :
    (pairUp combine (a :: b :: rest)).length < (a :: b :: rest).length := by
  rw [length_pairUp]
  simp only [List.length_cons]
  omega

/-! ## Roots and paths -/

/-- The root of the tree; an empty tree has a root of its own. -/
def root (empty : N) : List N → N
  | [] => empty
  | [a] => a
  | a :: b :: rest => root empty (pairUp combine (a :: b :: rest))
termination_by level => level.length
decreasing_by exact length_pairUp_lt combine a b rest

/-- The sibling of a node, if it has one. -/
def sibling (level : List N) (i : ℕ) : Option N :=
  if i % 2 = 1 then level[i - 1]? else level[i + 1]?

/-- The siblings on the way from a node to the root. -/
def path : List N → ℕ → List N
  | [], _ => []
  | [_], _ => []
  | a :: b :: rest, i =>
      (sibling (a :: b :: rest) i).toList ++ path (pairUp combine (a :: b :: rest)) (i / 2)
termination_by level => level.length
decreasing_by exact length_pairUp_lt combine a b rest

/-- Recompute the root from the node at position `i` of a level of the given width. -/
def climb : ℕ → ℕ → N → List N → N
  | _, _, a, [] => a
  | i, width, a, b :: siblings =>
      climb (i / 2) ((width - 1) / 2 + 1)
        (if i % 2 = 1 ∨ i + 1 = width then combine b a else combine a b) siblings

/-- For the last node of a level, only that it is the last one matters. -/
theorem climb_last {i j width width' : ℕ} (hi : i + 1 = width) (hj : j + 1 = width') (a : N)
    (siblings : List N) :
    climb combine i width a siblings = climb combine j width' a siblings := by
  induction siblings generalizing i j width width' a with
  | nil => rfl
  | cons b siblings ih =>
      rw [climb, climb, if_pos (.inr hi), if_pos (.inr hj)]
      exact ih (by omega) (by omega) _

/-- The path of a node leads to the root. -/
theorem climb_path (empty : N) {level : List N} {i : ℕ} {a : N} (ha : level[i]? = some a) :
    climb combine i level.length a (path combine level i) = root combine empty level := by
  -- On the number of nodes: one level up there are fewer, and the node there is known.
  induction hlength : level.length using Nat.strong_induction_on generalizing level i a with
  | h n ih =>
      match level with
      | [] => simp at ha
      | [c] =>
          obtain ⟨rfl, rfl⟩ : i = 0 ∧ c = a := by
            cases i with
            | zero => simpa using ha
            | succ i => simp at ha
          simp [path, root, climb]
      | c :: c' :: rest =>
          set level := c :: c' :: rest with hlevel
          have hwidth : (pairUp combine level).length = (n - 1) / 2 + 1 := by
            have hpos : 2 ≤ level.length := by simp [hlevel]
            rw [length_pairUp]
            omega
          have hless : (pairUp combine level).length < n := by
            rw [← hlength]
            exact length_pairUp_lt combine c c' rest
          have hi : i < level.length := (List.getElem?_eq_some_iff.mp ha).1
          rw [hlevel, path, root, ← hlevel]
          by_cases hodd : i % 2 = 1
          · have hprev : i - 1 < level.length := by omega
            have hsibling : sibling level i = some (level[i - 1]) := by
              rw [sibling, if_pos hodd, List.getElem?_eq_getElem hprev]
            have hup : (pairUp combine level)[i / 2]? = some (combine (level[i - 1]) a) := by
              apply pairUp_of_pair
              · rw [show 2 * (i / 2) = i - 1 by omega, List.getElem?_eq_getElem hprev]
              · rw [show 2 * (i / 2) + 1 = i by omega, ha]
            rw [hsibling, Option.toList_some, List.singleton_append, climb, if_pos (.inl hodd),
              ← hwidth]
            exact ih _ hless hup rfl
          · by_cases hlast : i + 1 = n
            · -- The node is promoted; the climb stays where it is, at the end of its level.
              have hnone : level[i + 1]? = none := by
                rw [List.getElem?_eq_none_iff]
                omega
              have hsibling : sibling level i = none := by
                rw [sibling, if_neg hodd, hnone]
              have hup : (pairUp combine level)[i / 2]? = some a := by
                apply pairUp_of_last
                · rw [show 2 * (i / 2) = i by omega, ha]
                · rw [show 2 * (i / 2) + 1 = i + 1 by omega, hnone]
              have hend : i / 2 + 1 = (pairUp combine level).length := by omega
              rw [hsibling, Option.toList_none, List.nil_append, climb_last combine hlast hend]
              exact ih _ hless hup rfl
            · have hnext : i + 1 < level.length := by omega
              have hsibling : sibling level i = some (level[i + 1]) := by
                rw [sibling, if_neg hodd, List.getElem?_eq_getElem hnext]
              have hup : (pairUp combine level)[i / 2]? = some (combine a (level[i + 1])) := by
                apply pairUp_of_pair
                · rw [show 2 * (i / 2) = i by omega, ha]
                · rw [show 2 * (i / 2) + 1 = i + 1 by omega, List.getElem?_eq_getElem hnext]
              rw [hsibling, Option.toList_some, List.singleton_append, climb,
                if_neg (by omega), ← hwidth]
              exact ih _ hless hup rfl

end Frame.Merkle
