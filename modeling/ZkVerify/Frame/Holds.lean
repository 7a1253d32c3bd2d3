import ZkVerify.Frame.Dispatch
import Mathlib.Data.Fintype.Basic

/-!
# Balances on hold

What a pallet can rely on when it holds, releases and transfers balances.  The
accounting itself is `Book`: for every account its free balance, its balance on
hold per reason and in total, and the amount frozen by locks.  `Book.hold` and
`Book.transfer` are the two movements there are; a release is a transfer of an
account to itself.

The currency a pallet is configured with is a `Fungible`.  Its operations are
not read here, they are a parameter; `Fungible.Lawful` says how they move the book:

* a hold takes the amount out of the free balance, frozen or not, and leaves the
  account able to take it back;
* a best-effort release moves what is on hold, at most the amount, and is refused
  only when the account cannot receive the amount;
* a polite best-effort transfer on hold moves at most the amount, at most what is on
  hold and at most what the freezes of the source leave over, and is refused only
  when the destination cannot receive what would move.  A transfer of nothing is
  accepted.

A `Consideration` is a deposit paid for stored data; `Consideration.HoldsPrice`
says that a ticket holds the price of its footprint.  The last section shows that
the laws are those of the book: `Book.fungible` and `Book.consideration` satisfy them.
-/

namespace Frame

/-! ## The book -/

/-- The balances of all accounts. -/
structure Book (A R : Type) where
  free : A → ℕ
  held : R → A → ℕ
  /-- Everything of the account that is on hold, for whatever reason. -/
  reserved : A → ℕ
  frozen : A → ℕ
  issuance : ℕ

namespace Book

variable {A R : Type} [DecidableEq A] [DecidableEq R]

/-- Move `n` of the free balance of `x` on hold. -/
def hold (b : Book A R) (r : R) (x : A) (n : ℕ) : Book A R :=
  { b with
    free := fun y => if y = x then b.free y - n else b.free y
    held := fun s y => if s = r ∧ y = x then b.held s y + n else b.held s y
    reserved := fun y => if y = x then b.reserved y + n else b.reserved y }

/-- Move `n` of the balance `x` has on hold to the free balance of `y`. -/
def transfer (b : Book A R) (r : R) (x y : A) (n : ℕ) : Book A R :=
  { b with
    free := fun z => if z = y then b.free z + n else b.free z
    held := fun s z => if s = r ∧ z = x then b.held s z - n else b.held s z
    reserved := fun z => if z = x then b.reserved z - n else b.reserved z }

/-- Move `n` of the balance `x` has on hold back to its free balance. -/
def release (b : Book A R) (r : R) (x : A) (n : ℕ) : Book A R := b.transfer r x x n

/-- `can_deposit`: nothing can always be deposited, anything else must bring the
account to the existential deposit and must not overflow it. -/
def canDeposit (b : Book A R) (existentialDeposit : ℕ) (x : A) (n : ℕ) : Bool :=
  n = 0 || (decide (existentialDeposit ≤ b.free x + n) &&
    decide (b.reserved x + b.free x + n ≤ u128Max))

/-- `reducible_total_balance_on_hold` with `Polite`: the balance on hold that the
freezes do not need.  A freeze is satisfied from the free balance first. -/
def liquid (b : Book A R) (x : A) : ℕ := b.reserved x - (b.frozen x - b.free x)

@[simp] theorem held_hold (b : Book A R) (r s : R) (x y : A) (n : ℕ) :
    (b.hold r x n).held s y = if s = r ∧ y = x then b.held s y + n else b.held s y := rfl

@[simp] theorem held_transfer (b : Book A R) (r s : R) (x y z : A) (n : ℕ) :
    (b.transfer r x y n).held s z = if s = r ∧ z = x then b.held s z - n else b.held s z := rfl

@[simp] theorem held_release (b : Book A R) (r s : R) (x z : A) (n : ℕ) :
    (b.release r x n).held s z = if s = r ∧ z = x then b.held s z - n else b.held s z := rfl

theorem held_hold_of_ne (b : Book A R) {r s : R} (h : s ≠ r) (x y : A) (n : ℕ) :
    (b.hold r x n).held s y = b.held s y := by simp [h]

theorem held_transfer_of_ne (b : Book A R) {r s : R} (h : s ≠ r) (x y z : A) (n : ℕ) :
    (b.transfer r x y n).held s z = b.held s z := by simp [h]

theorem held_release_of_ne (b : Book A R) {r s : R} (h : s ≠ r) (x z : A) (n : ℕ) :
    (b.release r x n).held s z = b.held s z := held_transfer_of_ne b h x x z n

theorem held_hold_eq (b : Book A R) (r : R) (x y : A) (n : ℕ) :
    (b.hold r x n).held r y = b.held r y + if x = y then n else 0 := by
  by_cases h : x = y
  · subst h
    simp
  · simp [h, Ne.symm h]

theorem held_release_add {b : Book A R} {r : R} {x : A} {n : ℕ} (hn : n ≤ b.held r x) (y : A) :
    (b.release r x n).held r y + (if x = y then n else 0) = b.held r y := by
  by_cases h : x = y
  · subst h
    simp [Nat.sub_add_cancel hn]
  · simp [h, Ne.symm h]

@[simp] theorem release_zero (b : Book A R) (r : R) (x : A) : b.release r x 0 = b := by
  simp [release, transfer]

theorem release_release (b : Book A R) (r : R) (x : A) (n m : ℕ) :
    (b.release r x n).release r x m = b.release r x (n + m) := by
  simp only [release, transfer, mk.injEq, and_true]
  refine ⟨funext fun y => ?_, funext fun s => funext fun y => ?_, funext fun y => ?_⟩ <;>
    split_ifs <;> omega

/-- From `b` to `b'` every account got its share of what it had on hold under `r` back, and nothing
else has moved. -/
structure Repaid (r : R) (b b' : Book A R) (share : A → ℕ) : Prop where
  free : ∀ y, b'.free y = b.free y + share y
  held : ∀ y, b'.held r y + share y = b.held r y
  others : ∀ s ≠ r, ∀ y, b'.held s y = b.held s y
  frozen : b'.frozen = b.frozen
  issuance : b'.issuance = b.issuance

omit [DecidableEq A] [DecidableEq R] in
theorem Repaid.refl (r : R) (b : Book A R) : Repaid r b b fun _ => 0 :=
  ⟨fun _ => rfl, fun _ => rfl, fun _ _ _ => rfl, rfl, rfl⟩

theorem repaid_release {b : Book A R} {r : R} {x : A} {n : ℕ} (hn : n ≤ b.held r x) :
    Repaid r b (b.release r x n) fun y => if x = y then n else 0 where
  free y := by
    by_cases h : x = y
    · simp [release, transfer, h]
    · simp [release, transfer, h, Ne.symm h]
  held := held_release_add hn
  others _ hs y := held_release_of_ne b hs x y n
  frozen := rfl
  issuance := rfl

omit [DecidableEq A] [DecidableEq R] in
theorem Repaid.trans {r : R} {b b' b'' : Book A R} {share share' : A → ℕ}
    (h : Repaid r b b' share) (h' : Repaid r b' b'' share') :
    Repaid r b b'' fun y => share y + share' y where
  free y := by rw [h'.free, h.free, Nat.add_assoc]
  held y := by rw [Nat.add_comm (share y), ← Nat.add_assoc, h'.held, h.held]
  others s hs y := (h'.others s hs y).trans (h.others s hs y)
  frozen := h'.frozen.trans h.frozen
  issuance := h'.issuance.trans h.issuance

/-- Releasing what was just held restores the book. -/
theorem release_hold (b : Book A R) (r : R) (x : A) {n : ℕ} (h : n ≤ b.free x) :
    (b.hold r x n).release r x n = b := by
  have hfree : (fun y => if y = x then (if y = x then b.free y - n else b.free y) + n
      else if y = x then b.free y - n else b.free y) = b.free := by
    funext y
    by_cases hy : y = x
    · subst hy
      simp [Nat.sub_add_cancel h]
    · simp [hy]
  have hheld : (fun s y => if s = r ∧ y = x then
      (if s = r ∧ y = x then b.held s y + n else b.held s y) - n
      else if s = r ∧ y = x then b.held s y + n else b.held s y) = b.held := by
    funext s y
    by_cases hy : s = r ∧ y = x <;> simp [hy]
  have hreserved : (fun y => if y = x then (if y = x then b.reserved y + n else b.reserved y) - n
      else if y = x then b.reserved y + n else b.reserved y) = b.reserved := by
    funext y
    by_cases hy : y = x <;> simp [hy]
  unfold release transfer hold
  simp only [hfree, hheld, hreserved]

end Book

/-! ## Currencies -/

/-- Whether an amount may be reduced to what is possible. -/
inductive Precision
  | exact
  | bestEffort
deriving DecidableEq, Repr

/-- Where a transferred balance arrives. -/
inductive Restriction
  | free
  | onHold
deriving DecidableEq, Repr

/-- Whether freezes are respected. -/
inductive Fortitude
  | polite
  | force
deriving DecidableEq, Repr

/-- The operations of `fungible::MutateHold` on a chain state `X`. -/
structure Fungible (A R X ε : Type) where
  /-- The balances of a chain state. -/
  book : X → Book A R
  existentialDeposit : ℕ
  hold : R → A → ℕ → X → Except ε X
  release : R → A → ℕ → Precision → X → Except ε (ℕ × X)
  transferOnHold : R → A → A → ℕ → Precision → Restriction → Fortitude → X → Except ε (ℕ × X)

variable {A R X T ε : Type} [DecidableEq A] [DecidableEq R]

/-- How the operations of a currency move its book. -/
structure Fungible.Lawful (F : Fungible A R X ε) : Prop where
  hold_ok : ∀ {r x n l l'}, F.hold r x n l = .ok l' →
    n ≤ (F.book l).free x ∧ F.book l' = (F.book l).hold r x n
  hold_alive : ∀ {r x n l l'}, F.hold r x n l = .ok l' →
    (F.book l').canDeposit F.existentialDeposit x n = true
  release_exact : ∀ {r x n l}, n ≤ (F.book l).held r x →
    (F.book l).canDeposit F.existentialDeposit x n = true →
    ∃ l', F.release r x n .exact l = .ok (n, l') ∧ F.book l' = (F.book l).release r x n
  release_bestEffort : ∀ {r x n l}, (F.book l).canDeposit F.existentialDeposit x n = true →
    ∃ l', F.release r x n .bestEffort l = .ok (min n ((F.book l).held r x), l') ∧
      F.book l' = (F.book l).release r x (min n ((F.book l).held r x))
  release_refused : ∀ {r x n l}, (F.book l).canDeposit F.existentialDeposit x n = false →
    ∃ e, F.release r x n .bestEffort l = .error e
  transfer_bestEffort : ∀ {r x y n l},
    (F.book l).canDeposit F.existentialDeposit y
      (min n (min ((F.book l).liquid x) ((F.book l).held r x))) = true →
    ∃ l', F.transferOnHold r x y n .bestEffort .free .polite l =
        .ok (min n (min ((F.book l).liquid x) ((F.book l).held r x)), l') ∧
      F.book l' =
        (F.book l).transfer r x y (min n (min ((F.book l).liquid x) ((F.book l).held r x)))
  transfer_refused : ∀ {r x y n l},
    (F.book l).canDeposit F.existentialDeposit y
      (min n (min ((F.book l).liquid x) ((F.book l).held r x))) = false →
    ∃ e, F.transferOnHold r x y n .bestEffort .free .polite l = .error e

/-- A hold can be undone at once, and undoing it restores the book. -/
theorem Fungible.Lawful.release_of_hold {F : Fungible A R X ε} (hF : F.Lawful) {r : R} {x : A}
    {n : ℕ} {l l' : X} (h : F.hold r x n l = .ok l') :
    ∃ l'', F.release r x n .exact l' = .ok (n, l'') ∧ F.book l'' = F.book l := by
  obtain ⟨hle, hbook⟩ := hF.hold_ok h
  have hheld : n ≤ (F.book l').held r x := by rw [hbook]; simp
  obtain ⟨l'', hrelease, hbook'⟩ := hF.release_exact hheld (hF.hold_alive h)
  exact ⟨l'', hrelease, by rw [hbook', hbook, Book.release_hold _ _ _ hle]⟩

/-! ## Considerations -/

/-- The size of stored data: how many items and how many bytes. -/
structure Footprint where
  count : ℕ
  size : ℕ
deriving DecidableEq, Repr

/-- A deposit for stored data, with tickets `T`. -/
structure Consideration (A X T ε : Type) where
  new : A → Footprint → X → Except ε (T × X)
  update : T → A → Footprint → X → Except ε (T × X)
  drop : T → A → X → Except ε X
  /-- The price of a footprint. -/
  price : Footprint → ℕ
  /-- The amount a ticket stands for. -/
  amount : T → ℕ

/-- A ticket holds the price of its footprint under the reason `r`: buying it, changing it and
giving it back hold or release the difference.

A release is refused if it would leave the account below the existential deposit, or overflow it.
That a ticket that is covered can always be given back is therefore an assumption on the prices:
those of the runtime are at least `400` cents, and the existential deposit is one cent. -/
structure Consideration.HoldsPrice (C : Consideration A X T ε) (F : Fungible A R X ε) (r : R) :
    Prop where
  new_ok : ∀ {x fp l t l'}, C.new x fp l = .ok (t, l') →
    C.amount t = C.price fp ∧ F.book l' = (F.book l).hold r x (C.price fp)
  update_ok : ∀ {t x fp l t' l'}, C.update t x fp l = .ok (t', l') →
    C.amount t' = C.price fp ∧
      F.book l' =
        if C.amount t ≤ C.price fp then (F.book l).hold r x (C.price fp - C.amount t)
        else (F.book l).release r x (min (C.amount t - C.price fp) ((F.book l).held r x))
  drop_ok : ∀ {t x l l'}, C.drop t x l = .ok l' →
    F.book l' = (F.book l).release r x (min (C.amount t) ((F.book l).held r x))
  drop_succeeds : ∀ {t x l}, C.amount t ≤ (F.book l).held r x → ∃ l', C.drop t x l = .ok l'

namespace Consideration.HoldsPrice

variable {C : Consideration A X T ε} {F : Fungible A R X ε} {r s : R}

theorem new_held_of_ne (hC : C.HoldsPrice F r) (hs : s ≠ r) {x : A} {fp : Footprint} {l l' : X}
    {t : T} (h : C.new x fp l = .ok (t, l')) (y : A) :
    (F.book l').held s y = (F.book l).held s y := by
  rw [(hC.new_ok h).2, Book.held_hold_of_ne _ hs]

theorem update_held_of_ne (hC : C.HoldsPrice F r) (hs : s ≠ r) {t t' : T} {x : A}
    {fp : Footprint} {l l' : X} (h : C.update t x fp l = .ok (t', l')) (y : A) :
    (F.book l').held s y = (F.book l).held s y := by
  rw [(hC.update_ok h).2]
  split
  · rw [Book.held_hold_of_ne _ hs]
  · rw [Book.held_release_of_ne _ hs]

theorem drop_held_of_ne (hC : C.HoldsPrice F r) (hs : s ≠ r) {t : T} {x : A} {l l' : X}
    (h : C.drop t x l = .ok l') (y : A) : (F.book l').held s y = (F.book l).held s y := by
  rw [hC.drop_ok h, Book.held_release_of_ne _ hs]

/-- A deposit of one account leaves the holds of the others alone. -/
theorem new_held_of_other (hC : C.HoldsPrice F r) {x y : A} (hy : y ≠ x) {fp : Footprint}
    {l l' : X} {t : T} (h : C.new x fp l = .ok (t, l')) :
    (F.book l').held s y = (F.book l).held s y := by
  rw [(hC.new_ok h).2, Book.held_hold, if_neg fun hboth => hy hboth.2]

theorem update_held_of_other (hC : C.HoldsPrice F r) {x y : A} (hy : y ≠ x) {t t' : T}
    {fp : Footprint} {l l' : X} (h : C.update t x fp l = .ok (t', l')) :
    (F.book l').held s y = (F.book l).held s y := by
  rw [(hC.update_ok h).2]
  split
  · rw [Book.held_hold, if_neg fun hboth => hy hboth.2]
  · rw [Book.held_release, if_neg fun hboth => hy hboth.2]

theorem drop_held_of_other (hC : C.HoldsPrice F r) {x y : A} (hy : y ≠ x) {t : T} {l l' : X}
    (h : C.drop t x l = .ok l') : (F.book l').held s y = (F.book l).held s y := by
  rw [hC.drop_ok h, Book.held_release, if_neg fun hboth => hy hboth.2]

end Consideration.HoldsPrice

/-! ## The book as a currency -/

/-- The currency whose chain state is the book itself. -/
def Book.fungible {E : Type} (existentialDeposit : ℕ) :
    Fungible A R (Book A R) (DispatchError E) where
  book := id
  existentialDeposit := existentialDeposit
  hold r x n b :=
    if n = 0 ∨ (existentialDeposit + n ≤ b.free x ∧ b.reserved x + b.free x + n ≤ u128Max) then
      .ok (b.hold r x n)
    else .error (.token .fundsUnavailable)
  release r x n precision b :=
    if b.canDeposit existentialDeposit x n then
      if precision = .exact ∧ b.held r x < n then .error (.token .fundsUnavailable)
      else .ok (min n (b.held r x), b.release r x (min n (b.held r x)))
    else .error (.token .cannotCreate)
  transferOnHold r x y n _ _ _ b :=
    if b.canDeposit existentialDeposit y (min n (min (b.liquid x) (b.held r x))) then
      .ok (min n (min (b.liquid x) (b.held r x)),
        b.transfer r x y (min n (min (b.liquid x) (b.held r x))))
    else .error (.token .cannotCreate)

theorem Book.fungible_lawful {E : Type} (existentialDeposit : ℕ) :
    (Book.fungible existentialDeposit : Fungible A R (Book A R) (DispatchError E)).Lawful where
  hold_ok := by
    intro r x n l l' h
    simp only [fungible] at h
    split at h
    · rename_i hn
      cases h
      refine ⟨?_, rfl⟩
      simp only [fungible, id_eq]
      omega
    · cases h
  hold_alive := by
    intro r x n l l' h
    simp only [fungible] at h
    split at h
    · rename_i hn
      cases h
      simp only [fungible, canDeposit, hold, id_eq, Bool.or_eq_true, decide_eq_true_eq,
        Bool.and_eq_true, if_true]
      omega
    · cases h
  release_exact := by
    intro r x n l hn hdeposit
    refine ⟨l.release r x n, ?_, rfl⟩
    simp only [fungible, id_eq] at hn hdeposit ⊢
    rw [if_pos hdeposit, if_neg (by omega), min_eq_left hn]
  release_bestEffort := by
    intro r x n l hdeposit
    refine ⟨l.release r x (min n (l.held r x)), ?_, rfl⟩
    simp only [fungible, id_eq] at hdeposit ⊢
    rw [if_pos hdeposit, if_neg (by simp)]
  release_refused := by
    intro r x n l hdeposit
    refine ⟨.token .cannotCreate, ?_⟩
    simp only [fungible, id_eq] at hdeposit ⊢
    rw [if_neg (by simp [hdeposit])]
  transfer_bestEffort := by
    intro r x y n l hdeposit
    refine ⟨l.transfer r x y (min n (min (l.liquid x) (l.held r x))), ?_, rfl⟩
    simp only [fungible, id_eq] at hdeposit ⊢
    rw [if_pos hdeposit]
  transfer_refused := by
    intro r x y n l hdeposit
    refine ⟨.token .cannotCreate, ?_⟩
    simp only [fungible, id_eq] at hdeposit ⊢
    rw [if_neg (by simp [hdeposit])]

/-- The deposit that holds `price` of the footprint under `r`; a ticket is its amount. -/
def Book.consideration {E : Type} (r : R) (price : Footprint → ℕ) :
    Consideration A (Book A R) ℕ (DispatchError E) where
  new x fp b := if price fp ≤ b.free x then .ok (price fp, b.hold r x (price fp))
    else .error (.token .fundsUnavailable)
  update t x fp b :=
    if t ≤ price fp then
      if price fp - t ≤ b.free x then .ok (price fp, b.hold r x (price fp - t))
      else .error (.token .fundsUnavailable)
    else .ok (price fp, b.release r x (min (t - price fp) (b.held r x)))
  drop t x b := .ok (b.release r x (min t (b.held r x)))
  price := price
  amount := id

theorem Book.consideration_holdsPrice {E : Type} (existentialDeposit : ℕ) (r : R)
    (price : Footprint → ℕ) :
    (Book.consideration r price : Consideration A (Book A R) ℕ (DispatchError E)).HoldsPrice
      (Book.fungible existentialDeposit) r where
  new_ok := by
    intro x fp l t l' h
    simp only [consideration] at h
    split at h
    · cases h
      exact ⟨rfl, rfl⟩
    · cases h
  update_ok := by
    intro t x fp l t' l' h
    simp only [consideration] at h
    split at h
    · rename_i hle
      split at h
      · cases h
        exact ⟨rfl, (if_pos hle).symm⟩
      · cases h
    · rename_i hle
      cases h
      exact ⟨rfl, (if_neg hle).symm⟩
  drop_ok := by
    intro t x l l' h
    cases h
    rfl
  drop_succeeds := fun _ => ⟨_, rfl⟩

end Frame
