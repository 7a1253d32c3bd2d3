import Mathlib.Algebra.Group.Nat.Defs
import Mathlib.Logic.Relation
import Mathlib.Order.Lattice.Nat

/-!
# Ancestors of numbered blocks

A block has at most one parent and is numbered one higher.  Nothing is assumed about which blocks
are known: a number may be missing, and the chain of parents may end anywhere.  Still the ancestors
of one block form a chain, ordered by their numbers, so that a block and a number determine an
ancestor (`Numbered.descends_of_le`).
-/

namespace Frame

variable {B : Type}

/-- Every block has at most one parent, whose number is one less. -/
structure Numbered (parent : B → B → Prop) (number : B → Option ℕ) : Prop where
  unique : Relator.RightUnique parent
  step : ∀ {b p}, parent b p → ∃ n, number p = some n ∧ number b = some (n + 1)

/-- `a` is `b` or an ancestor of `b`. -/
def Descends (parent : B → B → Prop) (b a : B) : Prop := Relation.ReflTransGen parent b a

variable {parent : B → B → Prop} {number : B → Option ℕ} {a b c : B} {m n : ℕ}

namespace Descends

theorem refl (b : B) : Descends parent b b := Relation.ReflTransGen.refl

theorem trans (hbc : Descends parent b c) (hca : Descends parent c a) : Descends parent b a :=
  Relation.ReflTransGen.trans hbc hca

theorem head (hbc : parent b c) (hca : Descends parent c a) : Descends parent b a :=
  Relation.ReflTransGen.head hbc hca

end Descends

namespace Numbered

/-- An ancestor has a lower number, unless it is the block itself. -/
theorem exists_le (h : Numbered parent number) (hba : Descends parent b a)
    (hb : number b = some n) : ∃ m, number a = some m ∧ m ≤ n ∧ (m = n → a = b) := by
  induction hba with
  | refl => exact ⟨n, hb, le_rfl, fun _ => rfl⟩
  | tail _ hstep ih =>
      obtain ⟨m, hm, hle, -⟩ := ih
      obtain ⟨k, hk, hk'⟩ := h.step hstep
      have heq : k + 1 = m := Option.some.inj (hk'.symm.trans hm)
      exact ⟨k, hk, by omega, fun hkn => by omega⟩

/-- Of two ancestors the one with the lower number is an ancestor of the other. -/
theorem descends_of_le (h : Numbered parent number) (hba : Descends parent b a)
    (hbc : Descends parent b c) (ha : number a = some m) (hc : number c = some n) (hle : m ≤ n) :
    Descends parent c a := by
  rcases Relation.ReflTransGen.total_of_right_unique h.unique hba hbc with hac | hca
  · obtain ⟨n', hn', hle', heq⟩ := h.exists_le hac ha
    have hnn' : n = n' := Option.some.inj (hc.symm.trans hn')
    have hca : c = a := heq (by omega)
    rw [hca]
    exact .refl a
  · exact hca

end Numbered

end Frame
