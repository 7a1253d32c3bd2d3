import ZkVerify.Frame.Holds

/-!
# One currency for several pallets

A runtime has one currency, and every pallet holds balances in it under reasons of its
own.  The reasons of the runtime are the reasons of all pallets together; a pallet sees
the book through the embedding of its own ones, and the errors of the currency as errors
of its own type.  `Fungible.view` and `Consideration.mapError` are what it is configured
with, and they keep the laws when the embedding is injective.

What a pallet does to the currency does not concern the others: `Fungible.Keeps` and
`Consideration.Keeps` say of a quantity that the operations leave it alone, and the balances held
for the reasons of other pallets are such quantities.

`Consideration.lift` is the deposit of a pallet whose calls also change the storage of
another one: the chain state it pays from is a part of a larger state.
-/

namespace Frame

variable {A R R' X Y T ε ε' : Type}

/-! ## Errors -/

/-- An error of one pallet, as another one passes it on: it knows no module error but its own. -/
def DispatchError.foreign {E E' : Type} : DispatchError E → DispatchError E'
  | .other | .module _ => .other
  | .badOrigin => .badOrigin
  | .token error => .token error
  | .arithmetic error => .arithmetic error

/-! ## The currency -/

/-- The book, as far as the reasons `R'` go. -/
def Book.view (f : R' → R) (b : Book A R) : Book A R' where
  free := b.free
  held r := b.held (f r)
  reserved := b.reserved
  frozen := b.frozen
  issuance := b.issuance

/-- The currency, as a pallet with the reasons `R'` and the errors `ε'` sees it. -/
def Fungible.view (f : R' → R) (g : ε → ε') (F : Fungible A R X ε) : Fungible A R' X ε' where
  book x := (F.book x).view f
  existentialDeposit := F.existentialDeposit
  hold r a n x := (F.hold (f r) a n x).mapError g
  release r a n precision x := (F.release (f r) a n precision x).mapError g
  transferOnHold r a dest n precision restriction fortitude x :=
    (F.transferOnHold (f r) a dest n precision restriction fortitude x).mapError g

/-- The deposit, with the errors of the pallet that asks for it. -/
def Consideration.mapError (g : ε → ε') (C : Consideration A X T ε) : Consideration A X T ε' where
  new a fp x := (C.new a fp x).mapError g
  update t a fp x := (C.update t a fp x).mapError g
  drop t a x := (C.drop t a x).mapError g
  price := C.price
  amount := C.amount

section laws

variable [DecidableEq A] [DecidableEq R] [DecidableEq R'] {f : R' → R} {g : ε → ε'}
  {F : Fungible A R X ε} {C : Consideration A X T ε}

theorem Book.view_hold (hf : Function.Injective f) (b : Book A R) (r : R') (a : A) (n : ℕ) :
    (b.hold (f r) a n).view f = (b.view f).hold r a n := by
  simp only [Book.view, Book.hold, hf.eq_iff]

theorem Book.view_transfer (hf : Function.Injective f) (b : Book A R) (r : R') (a dest : A)
    (n : ℕ) : (b.transfer (f r) a dest n).view f = (b.view f).transfer r a dest n := by
  simp only [Book.view, Book.transfer, hf.eq_iff]

theorem Book.view_release (hf : Function.Injective f) (b : Book A R) (r : R') (a : A) (n : ℕ) :
    (b.release (f r) a n).view f = (b.view f).release r a n :=
  b.view_transfer hf r a a n

/-- A lawful currency is lawful for every pallet. -/
theorem Fungible.Lawful.view (hf : Function.Injective f) (hF : F.Lawful) :
    (F.view f g).Lawful where
  hold_ok := by
    intro r a n x x' h
    obtain ⟨hle, hbook⟩ := hF.hold_ok (mapError_eq_ok.mp h)
    refine ⟨hle, ?_⟩
    show (F.book x').view f = _
    rw [hbook, Book.view_hold hf]
    rfl
  hold_alive := fun h => hF.hold_alive (mapError_eq_ok.mp h)
  release_exact := by
    intro r a n x hn hdeposit
    obtain ⟨x', hok, hbook⟩ := hF.release_exact hn hdeposit
    refine ⟨x', mapError_eq_ok.mpr hok, ?_⟩
    show (F.book x').view f = _
    rw [hbook, Book.view_release hf]
    rfl
  release_bestEffort := by
    intro r a n x hdeposit
    obtain ⟨x', hok, hbook⟩ := hF.release_bestEffort (r := f r) hdeposit
    refine ⟨x', mapError_eq_ok.mpr hok, ?_⟩
    show (F.book x').view f = _
    rw [hbook, Book.view_release hf]
    rfl
  release_refused := by
    intro r a n x hdeposit
    obtain ⟨e, herror⟩ := hF.release_refused (r := f r) hdeposit
    exact ⟨g e, by simp only [Fungible.view, herror, Except.mapError]⟩
  transfer_bestEffort := by
    intro r a dest n x hdeposit
    obtain ⟨x', hok, hbook⟩ := hF.transfer_bestEffort (r := f r) hdeposit
    refine ⟨x', mapError_eq_ok.mpr hok, ?_⟩
    show (F.book x').view f = _
    rw [hbook, Book.view_transfer hf]
    rfl
  transfer_refused := by
    intro r a dest n x hdeposit
    obtain ⟨e, herror⟩ := hF.transfer_refused (r := f r) hdeposit
    exact ⟨g e, by simp only [Fungible.view, herror, Except.mapError]⟩

/-- A deposit that holds its price holds it for the pallet whose reason it uses. -/
theorem Consideration.HoldsPrice.view (hf : Function.Injective f) {r : R'}
    (hC : C.HoldsPrice F (f r)) : (C.mapError g).HoldsPrice (F.view f g) r where
  new_ok := by
    intro a fp x t x' h
    obtain ⟨hamount, hbook⟩ := hC.new_ok (mapError_eq_ok.mp h)
    refine ⟨hamount, ?_⟩
    show (F.book x').view f = _
    rw [hbook, Book.view_hold hf]
    rfl
  update_ok := by
    intro t a fp x t' x' h
    obtain ⟨hamount, hbook⟩ := hC.update_ok (mapError_eq_ok.mp h)
    refine ⟨hamount, ?_⟩
    show (F.book x').view f = _
    rw [hbook, apply_ite (Book.view f), Book.view_hold hf, Book.view_release hf]
    rfl
  drop_ok := by
    intro t a x x' h
    have hbook := hC.drop_ok (mapError_eq_ok.mp h)
    show (F.book x').view f = _
    rw [hbook, Book.view_release hf]
    rfl
  drop_succeeds := by
    intro t a x hheld
    obtain ⟨x', hok⟩ := hC.drop_succeeds hheld
    exact ⟨x', mapError_eq_ok.mpr hok⟩

end laws

/-! ## What is left alone -/

/-- The operations of the currency leave a quantity alone. -/
structure Fungible.Keeps {Q : Type} (F : Fungible A R X ε) (q : X → Q) : Prop where
  hold : ∀ {r a n x x'}, F.hold r a n x = .ok x' → q x' = q x
  release : ∀ {r a n precision x m x'}, F.release r a n precision x = .ok (m, x') → q x' = q x
  transferOnHold : ∀ {r a dest n precision restriction fortitude x m x'},
    F.transferOnHold r a dest n precision restriction fortitude x = .ok (m, x') → q x' = q x

/-- Taking, changing and giving back a deposit leave a quantity alone. -/
structure Consideration.Keeps {Q : Type} (C : Consideration A X T ε) (q : X → Q) : Prop where
  new : ∀ {a fp x t x'}, C.new a fp x = .ok (t, x') → q x' = q x
  update : ∀ {t a fp x t' x'}, C.update t a fp x = .ok (t', x') → q x' = q x
  drop : ∀ {t a x x'}, C.drop t a x = .ok x' → q x' = q x

/-- An operation under one reason leaves the balances held for the other reasons alone. -/
structure Fungible.Separate (F : Fungible A R X ε) : Prop where
  hold : ∀ {r s a n x x'}, s ≠ r → F.hold r a n x = .ok x' →
    (F.book x').held s = (F.book x).held s
  release : ∀ {r s a n precision x m x'}, s ≠ r → F.release r a n precision x = .ok (m, x') →
    (F.book x').held s = (F.book x).held s
  transferOnHold : ∀ {r s a dest n precision restriction fortitude x m x'}, s ≠ r →
    F.transferOnHold r a dest n precision restriction fortitude x = .ok (m, x') →
      (F.book x').held s = (F.book x).held s

/-- A pallet leaves the balances held for a reason that is not its own alone. -/
theorem Fungible.Separate.keeps_view {f : R' → R} {g : ε → ε'} {F : Fungible A R X ε} {s : R}
    (hF : F.Separate) (hs : ∀ r, s ≠ f r) : (F.view f g).Keeps fun x => (F.book x).held s where
  hold h := hF.hold (hs _) (mapError_eq_ok.mp h)
  release h := hF.release (hs _) (mapError_eq_ok.mp h)
  transferOnHold h := hF.transferOnHold (hs _) (mapError_eq_ok.mp h)

/-- A deposit leaves the balances held for other reasons alone. -/
theorem Consideration.HoldsPrice.keeps [DecidableEq A] [DecidableEq R] {g : ε → ε'}
    {F : Fungible A R X ε} {C : Consideration A X T ε} {r s : R} (hC : C.HoldsPrice F r)
    (hs : s ≠ r) : (C.mapError g).Keeps fun x => (F.book x).held s where
  new h := funext (hC.new_held_of_ne hs (mapError_eq_ok.mp h))
  update h := funext (hC.update_held_of_ne hs (mapError_eq_ok.mp h))
  drop h := funext (hC.drop_held_of_ne hs (mapError_eq_ok.mp h))

/-- In the currency whose chain state is the book, the reasons are separate. -/
theorem Book.fungible_separate {E : Type} [DecidableEq A] [DecidableEq R]
    (existentialDeposit : ℕ) :
    (Book.fungible existentialDeposit : Fungible A R (Book A R) (DispatchError E)).Separate where
  hold := by
    intro r s a n x x' hs h
    simp only [fungible] at h
    split at h
    · cases h
      exact funext (x.held_hold_of_ne hs a · n)
    · cases h
  release := by
    intro r s a n precision x m x' hs h
    simp only [fungible] at h
    split at h
    · split at h
      · cases h
      · cases h
        exact funext (x.held_release_of_ne hs a · _)
    · cases h
  transferOnHold := by
    intro r s a dest n precision restriction fortitude x m x' hs h
    simp only [fungible] at h
    split at h
    · cases h
      exact funext (x.held_transfer_of_ne hs a dest · _)
    · cases h

/-! ## Deposits from a part of the state -/

/-- The deposit on a state with the chain state `get y` in it, which `set` replaces. -/
def Consideration.lift (get : Y → X) (set : Y → X → Y) (C : Consideration A X T ε) :
    Consideration A Y T ε where
  new a fp y := (C.new a fp (get y)).map fun (t, x) => (t, set y x)
  update t a fp y := (C.update t a fp (get y)).map fun (t, x) => (t, set y x)
  drop t a y := (C.drop t a (get y)).map (set y)
  price := C.price
  amount := C.amount

section lift

variable {get : Y → X} {set : Y → X → Y} {C : Consideration A X T ε}

theorem Consideration.lift_new_eq_ok {a : A} {fp : Footprint} {y y' : Y} {t : T} :
    (C.lift get set).new a fp y = .ok (t, y') ↔
      ∃ x, C.new a fp (get y) = .ok (t, x) ∧ y' = set y x := by
  simp only [Consideration.lift]
  cases C.new a fp (get y) with
  | error e => simp [Except.map]
  | ok result =>
      obtain ⟨t', x⟩ := result
      simp only [Except.map, Except.ok.injEq, Prod.mk.injEq]
      constructor
      · rintro ⟨rfl, rfl⟩
        exact ⟨x, ⟨rfl, rfl⟩, rfl⟩
      · rintro ⟨x', ⟨rfl, rfl⟩, rfl⟩
        exact ⟨rfl, rfl⟩

theorem Consideration.lift_drop_eq_ok {a : A} {y y' : Y} {t : T} :
    (C.lift get set).drop t a y = .ok y' ↔ ∃ x, C.drop t a (get y) = .ok x ∧ y' = set y x := by
  simp only [Consideration.lift]
  cases C.drop t a (get y) with
  | error e => simp [Except.map]
  | ok x => simp [Except.map, eq_comm]

end lift

end Frame
