import ZkVerify.Frame.Holds
import Mathlib.Algebra.BigOperators.Group.Finset.Piecewise
import Mathlib.Algebra.Order.BigOperators.Group.Finset

/-!
# Free balances

What a pallet can rely on when it pays from its own account.  `Book.move` takes an
amount from the free balance of one account to that of another, `Book.mint` creates
one, and `Book.reducible` is what an account can spend without going below the
existential deposit or below what its freezes demand.

The currency is a parameter, `Currency`; `Currency.Lawful` says how it moves the book:

* a transfer that preserves the source moves exactly the amount or fails, and it fails
  if the amount is not reducible or cannot be deposited at the destination;
* balances are parts of the issuance, and twice the issuance is still a balance, so
  nothing overflows, not even where an account pays itself.

The last section gives a currency with these laws, whose chain state is a `Ledger`.
-/

namespace Frame

/-- Whether an account may be left below the existential deposit. -/
inductive Preservation
  | expendable
  | protect
  | preserve
deriving DecidableEq, Repr

/-! ## Movements of free balances -/

namespace Book

variable {A R : Type}

/-- `reducible_balance` with `Preserve` and `Polite`.  A freeze is satisfied from the balance on
hold first. -/
def reducible (b : Book A R) (minimumBalance : ℕ) (x : A) : ℕ :=
  b.free x - max (b.frozen x - b.reserved x) minimumBalance

/-- Everything an account has. -/
def total (b : Book A R) (x : A) : ℕ := b.free x + b.reserved x

variable {b : Book A R} {x y z : A} {n minimumBalance : ℕ}

theorem reducible_le_free : b.reducible minimumBalance x ≤ b.free x := Nat.sub_le _ _

theorem reducible_mono {b' : Book A R} (hfree : b.free x ≤ b'.free x)
    (hreserved : b'.reserved x = b.reserved x) (hfrozen : b'.frozen x = b.frozen x) :
    b.reducible minimumBalance x ≤ b'.reducible minimumBalance x := by
  unfold reducible
  rw [hreserved, hfrozen]
  exact Nat.sub_le_sub_right hfree _

variable [DecidableEq A]

/-- Move `n` of the free balance of `x` to `y`.  An account that pays itself keeps what it has. -/
def move (b : Book A R) (x y : A) (n : ℕ) : Book A R :=
  { b with free := fun z => b.free z + (if z = y then n else 0) - if z = x then n else 0 }

/-- Create `n` on the free balance of `x`. -/
def mint (b : Book A R) (x : A) (n : ℕ) : Book A R :=
  { b with
    free := fun z => b.free z + if z = x then n else 0
    issuance := b.issuance + n }

theorem free_move_self : (b.move x x n).free z = b.free z := by
  simp only [move]
  omega

theorem free_move_source (h : x ≠ y) : (b.move x y n).free x = b.free x - n := by
  simp [move, h]

theorem free_move_of_ne (h : z ≠ x) :
    (b.move x y n).free z = b.free z + if z = y then n else 0 := by
  simp [move, h]

/-- A payment costs the source at most its amount. -/
theorem reducible_sub_le_move :
    b.reducible minimumBalance x - n ≤ (b.move x y n).reducible minimumBalance x := by
  have hfree : b.free x - n ≤ (b.move x y n).free x := by
    simp only [move, if_true]
    omega
  have hsame : (b.move x y n).reducible minimumBalance x =
      (b.move x y n).free x - max (b.frozen x - b.reserved x) minimumBalance := rfl
  rw [hsame, reducible]
  omega

end Book

/-! ## Currencies -/

/-- The operations of `fungible::Mutate` on a chain state `X`, and whether an account exists. -/
structure Currency (A R X ε : Type) where
  /-- The balances of a chain state. -/
  book : X → Book A R
  minimumBalance : ℕ
  reducibleBalance : A → Preservation → Fortitude → X → ℕ
  transfer : (source dest : A) → ℕ → Preservation → X → Except ε X
  mintInto : A → ℕ → X → Except ε X
  /-- `frame_system::account_exists`. -/
  accountExists : A → X → Bool

variable {A R X ε : Type} [DecidableEq A]

/-- How the operations of a currency move its book. -/
structure Currency.Lawful (C : Currency A R X ε) : Prop where
  reducible_eq : ∀ l x, C.reducibleBalance x .preserve .polite l =
    (C.book l).reducible C.minimumBalance x
  issuance_le : ∀ l, 2 * (C.book l).issuance ≤ u128Max
  total_le : ∀ l x, (C.book l).total x ≤ (C.book l).issuance
  total_add_le : ∀ l {x y}, x ≠ y →
    (C.book l).total x + (C.book l).total y ≤ (C.book l).issuance
  transfer_ok : ∀ {x y n l l'}, C.transfer x y n .preserve l = .ok l' →
    n ≤ (C.book l).reducible C.minimumBalance x ∧
      (C.book l).canDeposit C.minimumBalance y n = true ∧ C.book l' = (C.book l).move x y n
  transfer_succeeds : ∀ {x y n l}, n ≤ (C.book l).reducible C.minimumBalance x →
    (C.book l).canDeposit C.minimumBalance y n = true →
    ∃ l', C.transfer x y n .preserve l = .ok l'
  mint_ok : ∀ {x n l l'}, C.mintInto x n l = .ok l' → C.book l' = (C.book l).mint x n

namespace Currency.Lawful

variable {C : Currency A R X ε} {l : X} {x y : A} {n : ℕ}

theorem free_lt (hC : C.Lawful) (l : X) (x : A) : (C.book l).free x < u128Max := by
  have htotal := hC.total_le l x
  have hissuance := hC.issuance_le l
  have hpos : 0 < u128Max := by decide
  unfold Book.total at htotal
  omega

/-- What an account can spend never overflows the balance of another account, or its own. -/
theorem deposit_le (hC : C.Lawful) (h : n ≤ (C.book l).reducible C.minimumBalance x) (y : A) :
    (C.book l).reserved y + (C.book l).free y + n ≤ u128Max := by
  have hfree : n ≤ (C.book l).free x := h.trans Book.reducible_le_free
  have hissuance := hC.issuance_le l
  have hx := hC.total_le l x
  by_cases hxy : x = y
  · subst hxy
    unfold Book.total at hx
    omega
  · have hboth := hC.total_add_le l hxy
    unfold Book.total at hboth
    omega

/-- A reducible amount can be transferred where it leaves the destination alive. -/
theorem transfer_iff (hC : C.Lawful) (hn : n ≠ 0)
    (h : n ≤ (C.book l).reducible C.minimumBalance x) :
    (∃ l', C.transfer x y n .preserve l = .ok l') ↔ C.minimumBalance ≤ (C.book l).free y + n := by
  have hdeposit : (C.book l).canDeposit C.minimumBalance y n = true ↔
      C.minimumBalance ≤ (C.book l).free y + n := by
    simp only [Book.canDeposit, Bool.or_eq_true, Bool.and_eq_true, decide_eq_true_eq, hn, false_or,
      and_iff_left_iff_imp]
    exact fun _ => hC.deposit_le h y
  constructor
  · rintro ⟨l', hok⟩
    exact hdeposit.mp (hC.transfer_ok hok).2.1
  · exact fun halive => hC.transfer_succeeds h (hdeposit.mpr halive)

end Currency.Lawful

/-! ## The ledger as a currency -/

/-- A book whose balances are parts of the issuance. -/
structure Ledger (A R : Type) [Fintype A] where
  book : Book A R
  sum_total_le : ∑ x, book.total x ≤ book.issuance
  issuance_le : 2 * book.issuance ≤ u128Max

namespace Ledger

variable [Fintype A]

/-- A payment moves balances inside the issuance. -/
theorem sum_total_move (b : Book A R) {x : A} (y : A) {n : ℕ} (h : n ≤ b.free x) :
    ∑ z, (b.move x y n).total z = ∑ z, b.total z := by
  have hpoint : ∀ z, (b.move x y n).total z + (if z = x then n else 0) =
      b.total z + if z = y then n else 0 := by
    intro z
    simp only [Book.total, Book.move]
    by_cases hz : z = x
    · subst hz
      simp only [if_true]
      omega
    · simp only [if_neg hz]
      omega
  have hsum := Finset.sum_congr (rfl : (Finset.univ : Finset A) = _) fun z _ => hpoint z
  rw [Finset.sum_add_distrib, Finset.sum_add_distrib, Finset.sum_ite_eq', Finset.sum_ite_eq',
    if_pos (Finset.mem_univ _), if_pos (Finset.mem_univ _)] at hsum
  exact Nat.add_right_cancel hsum

theorem sum_total_mint (b : Book A R) (x : A) (n : ℕ) :
    ∑ z, (b.mint x n).total z = (∑ z, b.total z) + n := by
  have hpoint : ∀ z, (b.mint x n).total z = b.total z + if z = x then n else 0 := by
    intro z
    simp only [Book.total, Book.mint]
    omega
  rw [Finset.sum_congr rfl fun z _ => hpoint z, Finset.sum_add_distrib, Finset.sum_ite_eq',
    if_pos (Finset.mem_univ _)]

/-- Pay if the amount is reducible and can be deposited. -/
def transfer {E : Type} (minimumBalance : ℕ) (x y : A) (n : ℕ) (l : Ledger A R) :
    Except (DispatchError E) (Ledger A R) :=
  if hn : n ≤ l.book.reducible minimumBalance x then
    if l.book.canDeposit minimumBalance y n then
      .ok ⟨l.book.move x y n,
        (sum_total_move l.book y (hn.trans Book.reducible_le_free)).trans_le l.sum_total_le,
        l.issuance_le⟩
    else .error (.token .belowMinimum)
  else .error (.token .fundsUnavailable)

/-- Mint if the issuance allows it. -/
def mintInto {E : Type} (minimumBalance : ℕ) (x : A) (n : ℕ) (l : Ledger A R) :
    Except (DispatchError E) (Ledger A R) :=
  if hn : 2 * (l.book.issuance + n) ≤ u128Max then
    if l.book.canDeposit minimumBalance x n then
      .ok ⟨l.book.mint x n,
        (sum_total_mint l.book x n).trans_le (Nat.add_le_add_right l.sum_total_le n), hn⟩
    else .error (.token .belowMinimum)
  else .error (.arithmetic .overflow)

/-- The currency whose chain state is a ledger. -/
def currency {E : Type} (minimumBalance : ℕ) :
    Currency A R (Ledger A R) (DispatchError E) where
  book := Ledger.book
  minimumBalance := minimumBalance
  reducibleBalance x _ _ l := l.book.reducible minimumBalance x
  transfer x y n _ l := l.transfer minimumBalance x y n
  mintInto x n l := l.mintInto minimumBalance x n
  accountExists x l := decide (0 < l.book.total x)

theorem currency_lawful {E : Type} (minimumBalance : ℕ) :
    (currency minimumBalance : Currency A R (Ledger A R) (DispatchError E)).Lawful where
  reducible_eq _ _ := rfl
  issuance_le l := l.issuance_le
  total_le l x := (Finset.single_le_sum (fun _ _ => Nat.zero_le _) (Finset.mem_univ x)).trans
    l.sum_total_le
  total_add_le l x y hxy := by
    have hpair := Finset.sum_le_sum_of_subset (f := l.book.total) (Finset.subset_univ {x, y})
    rw [Finset.sum_pair hxy] at hpair
    exact hpair.trans l.sum_total_le
  transfer_ok := by
    intro x y n l l' h
    simp only [currency, transfer] at h
    split at h
    · rename_i hn
      split at h
      · rename_i hdeposit
        cases h
        exact ⟨hn, hdeposit, rfl⟩
      · cases h
    · cases h
  transfer_succeeds := by
    intro x y n l hn hdeposit
    exact ⟨_, (dif_pos hn).trans (if_pos hdeposit)⟩
  mint_ok := by
    intro x n l l' h
    simp only [currency, mintInto] at h
    split at h
    · split at h
      · cases h
        rfl
      · cases h
    · cases h

end Ledger

end Frame
