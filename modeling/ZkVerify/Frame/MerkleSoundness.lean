import ZkVerify.Frame.Merkle
import Mathlib.Data.Set.Function

/-!
# Soundness of Merkle paths

A path is accepted when climbing it ends at the root.  The climb may claim any position and any
width; nothing about them is checked against the tree.  It is sound all the same: as long as no two
of the inputs that are hashed collide, where the content of a leaf and a pair of nodes are different
inputs, a climb from a leaf to the root of a tree starts at a leaf of this tree
(`mem_of_climb_eq`).

The tree behind a root is `tree`, the same iteration of levels with trees as nodes; that it has the
right root and the right leaves is because `root` commutes with every map that respects the
combination of nodes (`map_root`).
-/

namespace Frame.Merkle

variable {L N N' : Type}

/-! ## The tree behind a root -/

theorem map_pairUp {combine : N → N → N} {combine' : N' → N' → N'} {f : N → N'}
    (hf : ∀ a b, f (combine a b) = combine' (f a) (f b)) (level : List N) :
    (pairUp combine level).map f = pairUp combine' (level.map f) := by
  fun_induction pairUp combine level with
  | case1 => rfl
  | case2 a => rfl
  | case3 a b rest ih => simp only [List.map_cons, pairUp, hf, ih]

/-- The root commutes with maps that respect the combination of nodes. -/
theorem map_root {combine : N → N → N} (combine' : N' → N' → N') (f : N → N')
    (hf : ∀ a b, f (combine a b) = combine' (f a) (f b)) (empty : N) (level : List N) :
    f (root combine empty level) = root combine' (f empty) (level.map f) := by
  fun_induction root combine empty level with
  | case1 => simp [root]
  | case2 a => simp [root]
  | case3 a b rest ih => rw [ih, map_pairUp hf, List.map_cons, List.map_cons, root]

theorem flatten_pairUp (level : List (List L)) :
    (pairUp (· ++ ·) level).flatten = level.flatten := by
  fun_induction pairUp (· ++ ·) level with
  | case1 => rfl
  | case2 a => rfl
  | case3 a b rest ih => simp only [List.flatten_cons, ih, List.append_assoc]

/-- Concatenation level by level is concatenation. -/
theorem root_append (level : List (List L)) : root (· ++ ·) [] level = level.flatten := by
  fun_induction root (· ++ ·) [] level with
  | case1 => rfl
  | case2 a => simp
  | case3 a b rest ih => rw [ih, flatten_pairUp]

/-- A binary tree with values at its leaves. -/
inductive Tree (L : Type)
  | leaf (a : L)
  | node (left right : Tree L)

/-- What is hashed: the content of a leaf, or two nodes. -/
abbrev Input (L N : Type) := L ⊕ N × N

namespace Tree

/-- The leaves, from left to right. -/
def leaves : Tree L → List L
  | .leaf a => [a]
  | .node left right => left.leaves ++ right.leaves

variable (digest : Input L N → N)

/-- The node that stands for the tree. -/
def hash : Tree L → N
  | .leaf a => digest (.inl a)
  | .node left right => digest (.inr (left.hash, right.hash))

/-- Everything that is hashed for the tree. -/
def inputs : Tree L → List (Input L N)
  | .leaf a => [.inl a]
  | .node left right =>
      .inr (left.hash digest, right.hash digest) :: (left.inputs ++ right.inputs)

end Tree

/-- The tree over a list of leaves; `first` is not used unless there are none. -/
def tree (first : L) (leaves : List L) : Tree L :=
  root Tree.node (.leaf first) (leaves.map Tree.leaf)

theorem hash_tree (digest : Input L N → N) (first : L) (leaves : List L) :
    (tree first leaves).hash digest =
      root (fun a b => digest (.inr (a, b))) (digest (.inl first))
        (leaves.map fun a => digest (.inl a)) := by
  rw [tree, map_root (fun a b => digest (.inr (a, b))) (Tree.hash digest) fun _ _ => rfl]
  rw [List.map_map]
  rfl

/-- The root of the empty tree matters to nobody else. -/
theorem root_eq_of_ne_nil {combine : N → N → N} {level : List N} (h : level ≠ [])
    (empty empty' : N) : root combine empty level = root combine empty' level := by
  fun_induction root combine empty level with
  | case1 => exact absurd rfl h
  | case2 a => simp [root]
  | case3 a b rest ih =>
      rw [root]
      exact ih (by simp [pairUp])

private theorem flatten_leaves (leaves : List L) :
    ((leaves.map Tree.leaf).map Tree.leaves).flatten = leaves := by
  induction leaves with
  | nil => rfl
  | cons a leaves ih => exact congrArg (a :: ·) ih

theorem leaves_tree (first : L) {leaves : List L} (h : leaves ≠ []) :
    (tree first leaves).leaves = leaves := by
  rw [tree, map_root (· ++ ·) Tree.leaves fun _ _ => rfl,
    root_eq_of_ne_nil (by simpa using h) _ [], root_append, flatten_leaves]

/-! ## Climbs -/

/-- Everything that is hashed on a climb. -/
def climbInputs (combine : N → N → N) : ℕ → ℕ → N → List N → List (N × N)
  | _, _, _, [] => []
  | i, width, a, b :: siblings =>
      let pair := if i % 2 = 1 ∨ i + 1 = width then (b, a) else (a, b)
      pair :: climbInputs combine (i / 2) ((width - 1) / 2 + 1) (combine pair.1 pair.2) siblings

/-- The last step of a climb combines the node reached before with the last sibling, on one side or
the other. -/
theorem climb_concat (combine : N → N → N) (i width : ℕ) (a b : N) (siblings : List N) :
    ∃ x y, climb combine i width a (siblings ++ [b]) = combine x y ∧
      climbInputs combine i width a (siblings ++ [b]) =
        climbInputs combine i width a siblings ++ [(x, y)] ∧
      (x = climb combine i width a siblings ∨ y = climb combine i width a siblings) := by
  induction siblings generalizing i width a with
  | nil =>
      by_cases hside : i % 2 = 1 ∨ i + 1 = width
      · exact ⟨b, a, by simp [climb, hside], by simp [climbInputs, hside], .inr rfl⟩
      · exact ⟨a, b, by simp [climb, hside], by simp [climbInputs, hside], .inl rfl⟩
  | cons c siblings ih =>
      obtain ⟨x, y, hclimb, hinputs, hside⟩ := ih (i / 2) ((width - 1) / 2 + 1)
        (if i % 2 = 1 ∨ i + 1 = width then combine c a else combine a c)
      refine ⟨x, y, hclimb, ?_, hside⟩
      simp only [List.cons_append, climbInputs]
      split at hinputs <;> simp only [*, if_true, if_false]

/-- A climb from a leaf to the root of a tree starts at a leaf of the tree, unless two of the inputs
that are hashed collide. -/
theorem mem_of_climb_eq (digest : Input L N → N) (t : Tree L) {i width : ℕ} {a : L}
    {siblings : List N}
    (hinj : Set.InjOn digest {input | input ∈ t.inputs digest ∨ input = .inl a ∨
      input ∈ (climbInputs (fun a b => digest (.inr (a, b))) i width (digest (.inl a))
        siblings).map .inr})
    (h : climb (fun a b => digest (.inr (a, b))) i width (digest (.inl a)) siblings =
      t.hash digest) : a ∈ t.leaves := by
  -- From the top: the last step of the climb is at the root, and the rest is in a subtree.
  induction t generalizing siblings with
  | leaf c =>
      rcases List.eq_nil_or_concat siblings with rfl | ⟨siblings, b, rfl⟩
      · have hinput : (.inl a : Input L N) = .inl c :=
          hinj (.inr (.inl rfl)) (.inl (List.mem_singleton_self _)) h
        cases hinput
        exact List.mem_singleton_self _
      · obtain ⟨x, y, hclimb, hinputs, -⟩ := climb_concat (fun a b => digest (.inr (a, b))) i
          width (digest (.inl a)) b siblings
        rw [List.concat_eq_append] at h hinj
        rw [hclimb] at h
        have hinput : (.inr (x, y) : Input L N) = .inl c :=
          hinj (.inr (.inr (by simp [hinputs]))) (.inl (List.mem_singleton_self _)) h
        cases hinput
  | node left right ihl ihr =>
      rcases List.eq_nil_or_concat siblings with rfl | ⟨siblings, b, rfl⟩
      · have hinput : (.inl a : Input L N) = .inr (left.hash digest, right.hash digest) :=
          hinj (.inr (.inl rfl)) (.inl List.mem_cons_self) h
        cases hinput
      · obtain ⟨x, y, hclimb, hinputs, hside⟩ := climb_concat (fun a b => digest (.inr (a, b))) i
          width (digest (.inl a)) b siblings
        rw [List.concat_eq_append] at h hinj
        rw [hclimb] at h
        have hinput : (.inr (x, y) : Input L N) = .inr (left.hash digest, right.hash digest) :=
          hinj (.inr (.inr (by simp [hinputs]))) (.inl List.mem_cons_self) h
        cases hinput
        -- What is hashed in a subtree and on the way to it is hashed in all.
        have hmono : ∀ t : Tree L, t.inputs digest ⊆ left.inputs digest ++ right.inputs digest →
            Set.InjOn digest {input | input ∈ t.inputs digest ∨ input = .inl a ∨
              input ∈ (climbInputs (fun a b => digest (.inr (a, b))) i width (digest (.inl a))
                siblings).map .inr} := by
          intro t ht
          refine hinj.mono ?_
          rintro input (hmem | rfl | hmem)
          · exact .inl (List.mem_cons_of_mem _ (ht hmem))
          · exact .inr (.inl rfl)
          · refine .inr (.inr ?_)
            rw [hinputs, List.map_append]
            exact List.mem_append_left _ hmem
        rcases hside with hside | hside
        · exact List.mem_append_left _
            (ihl (hmono left (List.subset_append_left _ _)) hside.symm)
        · exact List.mem_append_right _
            (ihr (hmono right (List.subset_append_right _ _)) hside.symm)

end Frame.Merkle
