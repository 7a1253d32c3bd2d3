import Mathlib.Algebra.BigOperators.Group.Finset.Piecewise
import Mathlib.Algebra.Order.Ring.Nat
import ZkVerify.Frame.Shared

/-!
# Where the money goes

What an account owns is its free balance and everything it has on hold, its wealth.  Holding and
releasing does not change it.  A change of the wealth of all accounts is explained by a list of
transfers: every account loses what it sends and gains what it receives, so that nothing is created
or lost on the way.

`Covers` says that a list of transfers was due: the transfers are made one by one for a list of
dues, each by the one who owes it, to the one it is owed to or back, and for at most the amount.
-/

namespace Frame

open scoped BigOperators

/-! ## Wealth -/

namespace Book

variable {A R : Type} [Fintype R]

/-- What an account owns: its free balance and its balances on hold. -/
def wealth (b : Book A R) (y : A) : ℕ := b.free y + ∑ r, b.held r y

variable [DecidableEq A] [DecidableEq R] (b : Book A R) {r : R} {x : A} {n : ℕ}

/-- A change of one hold changes the sum of the holds by as much. -/
theorem sum_held_hold (r : R) (x y : A) (n : ℕ) :
    ∑ s, (b.hold r x n).held s y = (∑ s, b.held s y) + if y = x then n else 0 := by
  have hadd : ∀ s, (b.hold r x n).held s y = b.held s y + if s = r then if y = x then n else 0
      else 0 := by
    intro s
    rw [held_hold]
    split_ifs <;> simp_all
  simp only [hadd, Finset.sum_add_distrib, Finset.sum_ite_eq', Finset.mem_univ, if_true]

theorem sum_held_transfer (hn : n ≤ b.held r x) (dest y : A) :
    (∑ s, (b.transfer r x dest n).held s y) + (if y = x then n else 0) = ∑ s, b.held s y := by
  have hadd : ∀ s, (b.transfer r x dest n).held s y +
      (if s = r then if y = x then n else 0 else 0) = b.held s y := by
    intro s
    rw [held_transfer]
    by_cases hboth : s = r ∧ y = x
    · obtain ⟨rfl, rfl⟩ := hboth
      simp [Nat.sub_add_cancel hn]
    · rw [if_neg hboth]
      split_ifs <;> simp_all
  rw [← Finset.sum_congr rfl fun s _ => hadd s, Finset.sum_add_distrib]
  simp

theorem wealth_hold (hn : n ≤ b.free x) : (b.hold r x n).wealth = b.wealth := by
  funext y
  rw [wealth, wealth, sum_held_hold]
  by_cases hy : y = x
  · subst hy
    simp only [hold, if_true]
    omega
  · simp [hold, hy]

/-- A transfer moves wealth from one account to another. -/
theorem wealth_transfer (hn : n ≤ b.held r x) (dest y : A) :
    (b.transfer r x dest n).wealth y + (if x = y then n else 0) =
      b.wealth y + if dest = y then n else 0 := by
  have hsum := b.sum_held_transfer hn dest y
  have hfree : (b.transfer r x dest n).free y = b.free y + if dest = y then n else 0 := by
    by_cases hy : dest = y
    · simp [transfer, hy]
    · simp [transfer, hy, Ne.symm hy]
  rw [wealth, wealth, hfree]
  simp only [eq_comm (a := y)] at hsum
  omega

theorem wealth_release (hn : n ≤ b.held r x) : (b.release r x n).wealth = b.wealth := by
  funext y
  have htransfer := b.wealth_transfer hn x y
  rw [release]
  omega

end Book

/-! ## Deposits -/

section deposits

variable {A R R' X T ε ε' : Type}

/-- A deposit is taken from what is free. -/
structure Consideration.Covered (C : Consideration A X T ε) (F : Fungible A R X ε) : Prop where
  new_le : ∀ {x fp l t l'}, C.new x fp l = .ok (t, l') → C.price fp ≤ (F.book l).free x
  update_le : ∀ {t x fp l t' l'}, C.update t x fp l = .ok (t', l') →
    C.price fp - C.amount t ≤ (F.book l).free x

/-- A deposit of a pallet is covered if it is covered in the runtime. -/
theorem Consideration.Covered.view {f : R' → R} {g : ε → ε'} {C : Consideration A X T ε}
    {F : Fungible A R X ε} (hC : C.Covered F) : (C.mapError g).Covered (F.view f g) where
  new_le h := hC.new_le (mapError_eq_ok.mp h)
  update_le h := hC.update_le (mapError_eq_ok.mp h)

variable [DecidableEq A] [DecidableEq R] [Fintype R]

/-- A covered deposit leaves the wealth of everybody alone. -/
theorem Consideration.Covered.keeps_wealth {C : Consideration A X T ε} {F : Fungible A R X ε}
    {r : R} (hcovered : C.Covered F) (hC : C.HoldsPrice F r) :
    C.Keeps fun x => (F.book x).wealth where
  new := by
    intro x fp l t l' h
    rw [(hC.new_ok h).2, Book.wealth_hold _ (hcovered.new_le h)]
  update := by
    intro t x fp l t' l' h
    rw [(hC.update_ok h).2]
    split
    · exact Book.wealth_hold _ (hcovered.update_le h)
    · exact Book.wealth_release _ (min_le_right _ _)
  drop := by
    intro t x l l' h
    rw [hC.drop_ok h]
    exact Book.wealth_release _ (min_le_right _ _)

omit [Fintype R] in
theorem Book.consideration_covered {E : Type} (existentialDeposit : ℕ) (r : R)
    (price : Footprint → ℕ) :
    (Book.consideration r price : Consideration A (Book A R) ℕ (DispatchError E)).Covered
      (Book.fungible existentialDeposit : Fungible A R (Book A R) (DispatchError E)) where
  new_le := by
    intro x fp l t l' h
    simp only [Book.consideration] at h
    split at h
    · assumption
    · cases h
  update_le := by
    intro t x fp l t' l' h
    simp only [Book.consideration] at h
    split at h
    · split at h
      · assumption
      · cases h
    · rename_i hlt
      have hzero : price fp - t = 0 := by omega
      exact hzero.trans_le (Nat.zero_le _)

end deposits

/-! ## Transfers -/

/-- A payment from one account to another. -/
structure Transfer (A : Type) where
  source : A
  dest : A
  amount : ℕ

namespace Transfer

variable {A : Type} [DecidableEq A]

/-- What an account sends. -/
def sent (y : A) (ts : List (Transfer A)) : ℕ :=
  (ts.map fun t => if t.source = y then t.amount else 0).sum

/-- What an account receives. -/
def received (y : A) (ts : List (Transfer A)) : ℕ :=
  (ts.map fun t => if t.dest = y then t.amount else 0).sum

theorem sent_append (y : A) (ts us : List (Transfer A)) :
    sent y (ts ++ us) = sent y ts + sent y us := by
  simp [sent]

theorem received_append (y : A) (ts us : List (Transfer A)) :
    received y (ts ++ us) = received y ts + received y us := by
  simp [received]

/-- The transfers turn the balances `w` into `w'`. -/
def Explains (ts : List (Transfer A)) (w w' : A → ℕ) : Prop :=
  ∀ y, w' y + sent y ts = w y + received y ts

variable {ts us : List (Transfer A)} {w w' w'' : A → ℕ}

theorem explains_nil (h : w' = w) : Explains [] w w' := by
  intro y
  rw [h]
  rfl

theorem Explains.append (h : Explains ts w w') (h' : Explains us w' w'') :
    Explains (ts ++ us) w w'' := by
  intro y
  have hfirst := h y
  have hsecond := h' y
  rw [sent_append, received_append]
  omega

/-- What an account owes, and to whom, if there is anybody. -/
structure Due (A : Type) where
  payer : A
  payee : Option A
  amount : ℕ

/-- The transfer is made for the due. -/
structure For (t : Transfer A) (due : Due A) : Prop where
  source : t.source = due.payer
  dest : t.dest = due.payer ∨ some t.dest = due.payee
  amount : t.amount ≤ due.amount

/-- The transfers are made for the dues, one by one. -/
def Covers (dues : List (Due A)) (ts : List (Transfer A)) : Prop := List.Forall₂ For ts dues

/-- What an account owes in total. -/
def owed (y : A) (dues : List (Due A)) : ℕ :=
  (dues.map fun due => if due.payer = y then due.amount else 0).sum

/-- Nobody sends more than it owes. -/
theorem Covers.sent_le {dues : List (Due A)} (h : Covers dues ts) (y : A) :
    sent y ts ≤ owed y dues := by
  induction h with
  | nil => exact le_rfl
  | @cons t due ts dues hfor _ ih =>
      have hhead : (if t.source = y then t.amount else 0) ≤
          if due.payer = y then due.amount else 0 := by
        rw [hfor.source]
        split
        · exact hfor.amount
        · exact le_rfl
      simp only [sent, owed, List.map_cons, List.sum_cons] at ih ⊢
      omega

omit [DecidableEq A] in
theorem Covers.append {dues dues' : List (Due A)} (h : Covers dues ts) (h' : Covers dues' us) :
    Covers (dues ++ dues') (ts ++ us) :=
  List.rel_append h h'

end Transfer

end Frame
