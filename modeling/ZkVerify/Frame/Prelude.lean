import Mathlib.Algebra.Group.Nat.Defs
import Mathlib.Data.Nat.Basic
import Mathlib.Tactic.Common

/-!
# Words, checked arithmetic and fallible computations

The runtime computes with unsigned words.  A word is a natural number here and
its width enters through the operation that can leave it: `checkedAdd` and
`checkedSub` return `none` there, the saturating operations stop at the bound and
the wrapping sum drops the carry.  A plain `+` is one or the other, depending on how
the program was built.

A computation that can fail is an `Except`.  `seq_eq_ok` takes a sequence of such
computations apart, so that no proof about a caller unfolds the monad.
-/

namespace Frame

/-! ## Words -/

/-- `u32::MAX`. -/
def u32Max : ℕ := 2 ^ 32 - 1

/-- `u64::MAX`. -/
def u64Max : ℕ := 2 ^ 64 - 1

/-- `u128::MAX`. -/
def u128Max : ℕ := 2 ^ 128 - 1

/-- `checked_add` on words up to `max`. -/
def checkedAdd (max a b : ℕ) : Option ℕ :=
  if a + b ≤ max then some (a + b) else none

/-- `checked_sub`. -/
def checkedSub (a b : ℕ) : Option ℕ :=
  if b ≤ a then some (a - b) else none

/-- `saturating_add` on words up to `max`. -/
def saturatingAdd (max a b : ℕ) : ℕ := min (a + b) max

/-- `saturating_mul` on words up to `max`. -/
def saturatingMul (max a b : ℕ) : ℕ := min (a * b) max

/-- `saturated_into` a word type with values up to `max`. -/
def saturatedInto (max a : ℕ) : ℕ := min a max

/-- `+` on words up to `max`, without overflow checks. -/
def wrappingAdd (max a b : ℕ) : ℕ := (a + b) % (max + 1)

/-- `+` on words up to `max`: with overflow checks there is no result beyond `max`, without them the
sum wraps. -/
def plainAdd (overflowChecks : Bool) (max a b : ℕ) : Option ℕ :=
  if overflowChecks then checkedAdd max a b else some (wrappingAdd max a b)

theorem checkedAdd_eq_some {max a b c : ℕ} :
    checkedAdd max a b = some c ↔ a + b ≤ max ∧ c = a + b := by
  unfold checkedAdd
  split
  · simp_all [eq_comm]
  · simp only [reduceCtorEq, false_iff, not_and]
    omega

/-- A sum that is checked or that fits is exact. -/
theorem eq_of_plainAdd {overflowChecks : Bool} {max a b c : ℕ}
    (h : plainAdd overflowChecks max a b = some c) (hfits : overflowChecks = true ∨ a + b ≤ max) :
    c = a + b := by
  cases overflowChecks with
  | true => exact (checkedAdd_eq_some.mp h).2
  | false =>
      have hle : a + b ≤ max := hfits.resolve_left (by decide)
      cases h
      exact Nat.mod_eq_of_lt (Nat.lt_succ_of_le hle)

theorem checkedAdd_eq_none {max a b : ℕ} : checkedAdd max a b = none ↔ max < a + b := by
  unfold checkedAdd
  split <;> simp_all

theorem checkedSub_eq_some {a b c : ℕ} : checkedSub a b = some c ↔ b ≤ a ∧ c = a - b := by
  unfold checkedSub
  split
  · simp_all [eq_comm]
  · simp only [reduceCtorEq, false_iff, not_and]
    omega

theorem saturatingAdd_of_le {max a b : ℕ} (h : a + b ≤ max) : saturatingAdd max a b = a + b :=
  min_eq_left h

theorem saturatingMul_of_le {max a b : ℕ} (h : a * b ≤ max) : saturatingMul max a b = a * b :=
  min_eq_left h

theorem saturatedInto_of_le {max a : ℕ} (h : a ≤ max) : saturatedInto max a = a :=
  min_eq_left h

theorem saturatedInto_le (max a : ℕ) : saturatedInto max a ≤ a := min_le_left a max

/-! ## Fallible computations -/

section Except

variable {ε α β : Type}

@[simp] theorem ok_bind (a : α) (f : α → Except ε β) : (Except.ok a >>= f) = f a := rfl

@[simp] theorem error_bind (e : ε) (f : α → Except ε β) : (Except.error e >>= f) = .error e := rfl

/-- A sequence succeeds when its head does and its tail succeeds on the head's value. -/
theorem seq_eq_ok {x : Except ε α} {f : α → Except ε β} {b : β} :
    (x >>= f) = .ok b ↔ ∃ a, x = .ok a ∧ f a = .ok b := by
  rcases x with e | a
  · simp only [error_bind, reduceCtorEq, false_and, exists_false]
  · simp only [ok_bind, Except.ok.injEq, exists_eq_left']

/-- A lookup whose failure is an error, `ok_or`. -/
def okOr (o : Option α) (e : ε) : Except ε α :=
  match o with
  | some a => .ok a
  | none => .error e

@[simp] theorem okOr_some (a : α) (e : ε) : okOr (some a) e = .ok a := rfl

@[simp] theorem okOr_none (e : ε) : okOr (none : Option α) e = .error e := rfl

theorem okOr_eq_ok {o : Option α} {e : ε} {a : α} : okOr o e = .ok a ↔ o = some a := by
  cases o <;> simp

/-- A check whose failure is an error, `ensure!`. -/
def ensure (b : Bool) (e : ε) : Except ε Unit :=
  if b then .ok () else .error e

@[simp] theorem ensure_true (e : ε) : ensure true e = .ok () := rfl

@[simp] theorem ensure_false (e : ε) : ensure false e = .error e := rfl

theorem ensure_eq_ok {b : Bool} {e : ε} {u : Unit} : ensure b e = .ok u ↔ b = true := by
  cases b <;> simp

theorem mapError_eq_ok {ε' : Type} {x : Except ε α} {f : ε → ε'} {a : α} :
    x.mapError f = .ok a ↔ x = .ok a := by
  cases x <;> simp [Except.mapError]

end Except

section List

variable {α β : Type}

/-- A list that is converted element by element is converted in the same way when more elements can
be converted. -/
theorem mapM_mono {f g : α → Option β} (h : ∀ a b, f a = some b → g a = some b)
    {as : List α} {bs : List β} (hf : as.mapM f = some bs) : as.mapM g = some bs := by
  induction as generalizing bs with
  | nil => exact hf
  | cons a as ih =>
      simp only [List.mapM_cons, Option.bind_eq_bind, Option.bind_eq_some_iff] at hf ⊢
      obtain ⟨b, ha, rest, hrest, hbs⟩ := hf
      exact ⟨b, h a b ha, rest, ih hrest, hbs⟩

theorem exists_of_mapM {f : α → Option β} {as : List α} {bs : List β}
    (h : as.mapM f = some bs) : ∀ a ∈ as, ∃ b, f a = some b := by
  induction as generalizing bs with
  | nil => simp
  | cons a as ih =>
      simp only [List.mapM_cons, Option.bind_eq_bind, Option.bind_eq_some_iff] at h
      obtain ⟨b, ha, rest, hrest, -⟩ := h
      intro a' ha'
      rcases List.mem_cons.mp ha' with rfl | ha'
      · exact ⟨b, ha⟩
      · exact ih hrest a' ha'

end List

end Frame
