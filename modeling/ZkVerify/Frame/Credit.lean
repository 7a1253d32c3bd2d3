import ZkVerify.Frame.Holds

/-!
# Credits

A credit is an amount that is not on any account, but still a part of the issuance,
`Book.Outside`.  It can be split and merged, and it ends in one of two ways: it is deposited
on an account, or it is dropped, and then the issuance shrinks by it.

The currency is a parameter, `Balanced`; `Balanced.Lawful` says how it moves the book.  A
credit that is offered to an account is dropped if the deposit fails, so the book that
remains is always `Book.settle`.  The last section gives a currency with these laws.
-/

namespace Frame

variable {A R X : Type}

/-! ## Credits and the book -/

namespace Book

/-- Take `n` out of the issuance. -/
def burn (b : Book A R) (n : ℕ) : Book A R := { b with issuance := b.issuance - n }

/-- There are `n` units of the issuance that are on no account. -/
def Outside (b : Book A R) (n : ℕ) : Prop := ∀ y, b.reserved y + b.free y + n ≤ b.issuance

/-- There is an account, and `n` can be deposited on it. -/
def receives (b : Book A R) (minimumBalance : ℕ) (x : Option A) (n : ℕ) : Bool :=
  x.any fun x => b.canDeposit minimumBalance x n

variable [DecidableEq A]

/-- Put `n` that are a part of the issuance on the free balance of `x`. -/
def credit (b : Book A R) (x : A) (n : ℕ) : Book A R :=
  { b with free := fun y => b.free y + if y = x then n else 0 }

/-- Deposit `n` if there is an account that receives it, and drop it otherwise. -/
def settle (b : Book A R) (minimumBalance : ℕ) (x : Option A) (n : ℕ) : Book A R :=
  match x with
  | some x => if b.canDeposit minimumBalance x n then b.credit x n else b.burn n
  | none => b.burn n

variable {b : Book A R} {minimumBalance n : ℕ} {x : Option A} {y : A}

@[simp] theorem credit_zero : b.credit y 0 = b := by
  simp [credit]

theorem settle_of_canDeposit (h : b.canDeposit minimumBalance y n = true) :
    b.settle minimumBalance (some y) n = b.credit y n := if_pos h

theorem settle_of_not_canDeposit (h : ¬ b.canDeposit minimumBalance y n = true) :
    b.settle minimumBalance (some y) n = b.burn n := if_neg h

@[simp] theorem settle_zero : b.settle minimumBalance x 0 = b := by
  cases x with
  | none => rfl
  | some x => rw [settle_of_canDeposit (by simp [canDeposit]), credit_zero]

/-- A credit is either deposited on an account that receives it or dropped. -/
theorem settle_cases (b : Book A R) (minimumBalance : ℕ) (x : Option A) (n : ℕ) :
    (∃ y, x = some y ∧ b.canDeposit minimumBalance y n = true ∧
      b.settle minimumBalance x n = b.credit y n) ∨
    (b.receives minimumBalance x n = false ∧ b.settle minimumBalance x n = b.burn n) := by
  cases x with
  | none => exact .inr ⟨rfl, rfl⟩
  | some y =>
      by_cases hdeposit : b.canDeposit minimumBalance y n = true
      · exact .inl ⟨y, rfl, hdeposit, settle_of_canDeposit hdeposit⟩
      · exact .inr ⟨Bool.eq_false_iff.mpr hdeposit, settle_of_not_canDeposit hdeposit⟩

/-- Only the account that receives the amount is credited. -/
theorem free_settle : (b.settle minimumBalance x n).free y =
    b.free y + if x = some y ∧ b.canDeposit minimumBalance y n = true then n else 0 := by
  obtain ⟨z, rfl, hdeposit, heq⟩ | ⟨hnone, heq⟩ := settle_cases b minimumBalance x n
  · rw [heq]
    by_cases hzy : z = y
    · subst hzy
      simp [credit, hdeposit]
    · simp [credit, hzy, Ne.symm hzy]
  · have hother : ¬ (x = some y ∧ b.canDeposit minimumBalance y n = true) := by
      rintro ⟨rfl, hdeposit⟩
      exact absurd (hdeposit.symm.trans hnone) (by decide)
    rw [heq, if_neg hother]
    rfl

/-- The issuance shrinks by what no account receives. -/
theorem issuance_settle (h : n ≤ b.issuance) : (b.settle minimumBalance x n).issuance +
    (if b.receives minimumBalance x n then 0 else n) = b.issuance := by
  obtain ⟨z, rfl, hdeposit, heq⟩ | ⟨hnone, heq⟩ := settle_cases b minimumBalance x n
  · simp [heq, receives, hdeposit, credit]
  · simp [heq, hnone, burn, Nat.sub_add_cancel h]

/-- Balances on hold and freezes are not touched. -/
theorem settle_rest (b : Book A R) (minimumBalance : ℕ) (x : Option A) (n : ℕ) :
    (b.settle minimumBalance x n).held = b.held ∧
    (b.settle minimumBalance x n).reserved = b.reserved ∧
    (b.settle minimumBalance x n).frozen = b.frozen := by
  obtain ⟨z, -, -, heq⟩ | ⟨-, heq⟩ := settle_cases b minimumBalance x n
  · rw [heq]
    exact ⟨rfl, rfl, rfl⟩
  · rw [heq]
    exact ⟨rfl, rfl, rfl⟩

/-- What is settled with one account does not matter for a deposit on another one. -/
theorem canDeposit_settle (h : x ≠ some y) (m : ℕ) :
    (b.settle minimumBalance x n).canDeposit minimumBalance y m =
      b.canDeposit minimumBalance y m := by
  obtain ⟨-, hreserved, -⟩ := settle_rest b minimumBalance x n
  simp [canDeposit, free_settle, hreserved, h]

omit [DecidableEq A] in
theorem Outside.mono {m : ℕ} (h : b.Outside n) (hle : m ≤ n) : b.Outside m :=
  fun y => (Nat.add_le_add_left hle _).trans (h y)

/-- A credit that is settled is not outside any more, and the others still are. -/
theorem Outside.settle {m : ℕ} (h : b.Outside (n + m)) :
    (b.settle minimumBalance x n).Outside m := by
  intro y
  have hy := h y
  obtain ⟨z, -, -, heq⟩ | ⟨-, heq⟩ := settle_cases b minimumBalance x n
  · simp only [heq, credit]
    split <;> omega
  · simp only [heq, burn]
    omega

/-- Two shares are settled one after the other and a third one is dropped: the accounts are
credited with what they can receive, and the issuance shrinks by the rest. -/
theorem settle_settle_burn {x' : Option A} {n' m : ℕ} (h : n + n' + m ≤ b.issuance) :
    let between := b.settle minimumBalance x n
    let after := (between.settle minimumBalance x' n').burn m
    (∀ y, after.free y = b.free y +
      (if x = some y ∧ b.canDeposit minimumBalance y n = true then n else 0) +
      if x' = some y ∧ between.canDeposit minimumBalance y n' = true then n' else 0) ∧
    after.issuance + m + (if b.receives minimumBalance x n then 0 else n) +
      (if between.receives minimumBalance x' n' then 0 else n') = b.issuance ∧
    after.held = b.held ∧ after.reserved = b.reserved ∧ after.frozen = b.frozen := by
  intro between after
  have hfirst : between.issuance + (if b.receives minimumBalance x n then 0 else n) =
      b.issuance := issuance_settle (by omega)
  have hlost : (if b.receives minimumBalance x n then 0 else n) ≤ n := by
    split <;> omega
  have hsecond : (between.settle minimumBalance x' n').issuance +
      (if between.receives minimumBalance x' n' then 0 else n') = between.issuance :=
    issuance_settle (by omega)
  have hlost' : (if between.receives minimumBalance x' n' then 0 else n') ≤ n' := by
    split <;> omega
  have hafter : after.issuance = (between.settle minimumBalance x' n').issuance - m := rfl
  obtain ⟨hheld, hreserved, hfrozen⟩ := settle_rest b minimumBalance x n
  obtain ⟨hheld', hreserved', hfrozen'⟩ := settle_rest between minimumBalance x' n'
  refine ⟨fun y => ?_, by omega, hheld'.trans hheld, hreserved'.trans hreserved,
    hfrozen'.trans hfrozen⟩
  exact free_settle.trans (congrArg (· + _) free_settle)

end Book

/-! ## Splitting and merging -/

/-- `split`: the first part has the given amount, or everything. -/
def splitCredit (amount first : ℕ) : ℕ × ℕ := (min amount first, amount - min amount first)

/-- `merge`. -/
def mergeCredit (amount other : ℕ) : ℕ := saturatingAdd u128Max amount other

/-- The operations of `fungible::Balanced` on a chain state `X`. -/
structure Balanced (A R X : Type) where
  /-- The balances of a chain state. -/
  book : X → Book A R
  minimumBalance : ℕ
  /-- `deposit` with `Exact`. -/
  deposit : A → ℕ → X → Option X
  /-- What happens when a credit is dropped. -/
  dropCredit : ℕ → X → X

namespace Balanced

variable (C : Balanced A R X)

/-- `ration`: split a credit in the ratio of `first` to `second`. -/
def ration (amount first second : ℕ) (x : X) : (ℕ × ℕ) × X :=
  let total := saturatingAdd u32Max first second
  if total = 0 then ((0, 0), C.dropCredit amount x)
  else (splitCredit amount (saturatingMul u128Max amount first / total), x)

/-- `resolve`: deposit a credit; where this fails, the credit is returned. -/
def resolve (who : A) (credit : ℕ) (x : X) : Except ℕ X :=
  match C.deposit who credit x with
  | some x' => .ok x'
  | none => .error credit

/-- `resolve` of a credit that is dropped when it is returned. -/
def resolveOrDrop (who : A) (credit : ℕ) (x : X) : X :=
  match C.resolve who credit x with
  | .ok x' => x'
  | .error credit => C.dropCredit credit x

/-- `on_unbalanced`: a handler sees no credit of zero. -/
def onUnbalanced (onNonzeroUnbalanced : ℕ → X → X) (credit : ℕ) (x : X) : X :=
  if credit = 0 then x else onNonzeroUnbalanced credit x

/-- In a ratio of parts of `n`, the first part is rounded down and the second is the rest. -/
theorem ration_parts {amount first n : ℕ} (x : X) (hfirst : first ≤ n) (hpos : 0 < n)
    (hn : n ≤ u32Max) (hfits : amount * n ≤ u128Max) :
    C.ration amount first (n - first) x =
      ((amount * first / n, amount - amount * first / n), x) := by
  have htotal : saturatingAdd u32Max first (n - first) = n := by
    rw [saturatingAdd_of_le (by omega), Nat.add_sub_of_le hfirst]
  have hmul : amount * first ≤ amount * n := Nat.mul_le_mul_left amount hfirst
  have hle : amount * first / n ≤ amount := Nat.div_le_of_le_mul (by rwa [Nat.mul_comm n])
  rw [ration, htotal, if_neg (by omega), saturatingMul_of_le (hmul.trans hfits), splitCredit,
    Nat.min_eq_right hle]

variable [DecidableEq A]

/-- How the operations of a currency move its book. -/
structure Lawful : Prop where
  issuance_le : ∀ x, (C.book x).issuance ≤ u128Max
  /-- A deposit that the account can hold succeeds if it leaves the account alive. -/
  deposit_eq : ∀ x who n, n ≠ 0 →
    (C.book x).reserved who + (C.book x).free who + n ≤ u128Max →
    (C.deposit who n x).map C.book = if (C.book x).canDeposit C.minimumBalance who n then
      some ((C.book x).credit who n) else none
  drop_eq : ∀ x n, C.book (C.dropCredit n x) = (C.book x).burn n

variable {C}

/-- A credit that is offered to an account is settled. -/
theorem Lawful.book_resolveOrDrop (hC : C.Lawful) (who : A) {n : ℕ} (hn : n ≠ 0) {x : X}
    (houtside : (C.book x).Outside n) :
    C.book (C.resolveOrDrop who n x) = (C.book x).settle C.minimumBalance (some who) n := by
  have hdeposit := hC.deposit_eq x who n hn ((houtside who).trans (hC.issuance_le x))
  cases hresult : C.deposit who n x with
  | some x' =>
      simp only [resolveOrDrop, resolve, hresult]
      rw [hresult, Option.map_some] at hdeposit
      split at hdeposit
      · rename_i hcan
        rw [Book.settle_of_canDeposit hcan]
        exact Option.some.inj hdeposit
      · cases hdeposit
  | none =>
      simp only [resolveOrDrop, resolve, hresult]
      rw [hresult, Option.map_none] at hdeposit
      split at hdeposit
      · cases hdeposit
      · rename_i hcan
        rw [Book.settle_of_not_canDeposit hcan]
        exact hC.drop_eq x n

end Balanced

/-! ## The book as a currency -/

namespace Book

variable [DecidableEq A]

/-- The currency whose chain state is a book with an issuance in bounds. -/
def balanced (minimumBalance : ℕ) :
    Balanced A R { b : Book A R // b.issuance ≤ u128Max } where
  book := Subtype.val
  minimumBalance := minimumBalance
  deposit who n b :=
    if b.val.canDeposit minimumBalance who n then some ⟨b.val.credit who n, b.property⟩ else none
  dropCredit n b := ⟨b.val.burn n, Nat.le_trans (Nat.sub_le _ _) b.property⟩

theorem balanced_lawful (minimumBalance : ℕ) :
    (balanced minimumBalance : Balanced A R _).Lawful where
  issuance_le b := b.property
  deposit_eq b who n _ _ := by
    by_cases hdeposit : b.val.canDeposit minimumBalance who n = true <;>
      simp [balanced, hdeposit]
  drop_eq _ _ := rfl

end Book

end Frame
