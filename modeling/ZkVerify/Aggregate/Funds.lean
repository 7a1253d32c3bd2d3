import ZkVerify.Aggregate.Representation

/-!
# How the operations move balances

What the pallet does to the book of its currency, given that the currency and the two
considerations keep their laws (`Config.Lawful`):

* `reserveCurrency_spec`: the fees of a statement are both held, or the book is as
  before.  The release in the second case cannot fail;
* `handleHeldFunds_book`: a fee is paid out by `Book.settle`;
* the deposits touch the holds of their own reasons only.
-/

namespace ZkVerify.Aggregate

open Frame

variable {A X T₁ T₂ : Type} {S M : ℕ} {cfg : Config A X T₁ T₂} {x x' : X}

/-- `reserve_currency` divides by the size of the aggregation. -/
theorem reserveCurrency_size {D : DomainEntry A T₁ T₂ S M} {account : A}
    {result : Except (DispatchError Error) Reserve}
    (h : D.reserveCurrency cfg account x = .ok (result, x')) : D.next.size ≠ 0 := by
  intro hzero
  simp [DomainEntry.reserveCurrency, hzero] at h

/-- The book of a chain state. -/
abbrev Config.book (cfg : Config A X T₁ T₂) (x : X) : Book A HoldReason := cfg.hold.book x

variable [DecidableEq A]

/-- The assumptions on what the pallet is configured with: the currency is lawful, and the deposits
are held under the reasons `Domain` and `Allowlist`. -/
structure Config.Lawful (cfg : Config A X T₁ T₂) : Prop where
  currency : cfg.hold.Lawful
  domain : cfg.considerationDomain.HoldsPrice cfg.hold .domain
  allowlist : cfg.considerationAllowList.HoldsPrice cfg.hold .allowlist

/-! ## Reserving the fees of a statement -/

/-- The book once both fees of a statement are held. -/
def holdReserve (b : Book A HoldReason) (account : A) (reserve : Reserve) : Book A HoldReason :=
  (b.hold .aggregation account reserve.aggregate).hold .delivery account reserve.delivery

/-- `reserve_currency` returns, and either holds both fees or leaves the book as it was. -/
theorem reserveCurrency_spec (hF : cfg.hold.Lawful) {D : DomainEntry A T₁ T₂ S M}
    (hsize : D.next.size ≠ 0) (account : A) (x : X) :
    ∃ result x', D.reserveCurrency cfg account x = .ok (result, x') ∧
      match result with
      | .ok reserve => cfg.book x' = holdReserve (cfg.book x) account reserve
      | .error _ => cfg.book x' = cfg.book x := by
  unfold DomainEntry.reserveCurrency
  simp only [if_neg hsize]
  split
  · exact ⟨_, _, rfl, rfl⟩
  · rename_i x₁ hfirst
    split
    · rename_i x₂ hsecond
      refine ⟨_, _, rfl, ?_⟩
      simp only [holdReserve, Config.book, (hF.hold_ok hsecond).2, (hF.hold_ok hfirst).2]
    · -- The second hold failed, so the first one is undone.
      obtain ⟨x₂, hrelease, hbook⟩ := hF.release_of_hold hfirst
      rw [hrelease]
      exact ⟨_, _, rfl, hbook⟩

/-- A failed reservation leaves the book as it was. -/
theorem reserveCurrency_error (hF : cfg.hold.Lawful) {D : DomainEntry A T₁ T₂ S M} {account : A}
    {e : DispatchError Error} (h : D.reserveCurrency cfg account x = .ok (.error e, x')) :
    cfg.book x' = cfg.book x := by
  obtain ⟨result, x₁, heq, hbook⟩ := reserveCurrency_spec hF (reserveCurrency_size h) account x
  rw [h] at heq
  cases heq
  exact hbook

/-- A reservation holds both fees. -/
theorem reserveCurrency_ok (hF : cfg.hold.Lawful) {D : DomainEntry A T₁ T₂ S M} {account : A}
    {reserve : Reserve} (h : D.reserveCurrency cfg account x = .ok (.ok reserve, x')) :
    cfg.book x' = holdReserve (cfg.book x) account reserve := by
  obtain ⟨result, x₁, heq, hbook⟩ := reserveCurrency_spec hF (reserveCurrency_size h) account x
  rw [h] at heq
  cases heq
  exact hbook

/-! ## Paying out a fee -/

/-- A best-effort release, which is given up when the account cannot receive the amount. -/
def refundBook (existentialDeposit : ℕ) (r : HoldReason) (payer : A) (amount : ℕ)
    (b : Book A HoldReason) : Book A HoldReason :=
  if b.canDeposit existentialDeposit payer amount then
    b.release r payer (min amount (b.held r payer))
  else b

/-- What a polite best-effort transfer can move. -/
def movable (r : HoldReason) (payer : A) (amount : ℕ) (b : Book A HoldReason) : ℕ :=
  min amount (min (b.liquid payer) (b.held r payer))

/-- What `handle_held_funds` does to the book: pay what can be moved to the destination if it can
receive that, otherwise release. -/
def settleBook (existentialDeposit : ℕ) (r : HoldReason) (payer : A) (dest : Option A)
    (amount : ℕ) (b : Book A HoldReason) : Book A HoldReason :=
  match dest with
  | none => refundBook existentialDeposit r payer amount b
  | some y =>
      if b.canDeposit existentialDeposit y (movable r payer amount b) then
        b.transfer r payer y (movable r payer amount b)
      else refundBook existentialDeposit r payer amount b

private theorem release_book (hF : cfg.hold.Lawful) (r : HoldReason) (payer : A) (amount : ℕ)
    (x : X) :
    cfg.book (match cfg.hold.release r payer amount .bestEffort x with
      | .ok (_, x') => x'
      | .error _ => x) =
      refundBook cfg.hold.existentialDeposit r payer amount (cfg.book x) := by
  unfold refundBook
  by_cases hdeposit : (cfg.book x).canDeposit cfg.hold.existentialDeposit payer amount = true
  · obtain ⟨x', hrelease, hbook⟩ := hF.release_bestEffort (r := r) hdeposit
    rw [hrelease, if_pos hdeposit]
    exact hbook
  · obtain ⟨e, hrelease⟩ := hF.release_refused (r := r) (Bool.eq_false_iff.mpr hdeposit)
    rw [hrelease, if_neg hdeposit]

theorem handleHeldFunds_book (hF : cfg.hold.Lawful) (r : HoldReason) (payer : A) (dest : Option A)
    (amount : ℕ) (x : X) :
    cfg.book (handleHeldFunds cfg r payer dest amount x) =
      settleBook cfg.hold.existentialDeposit r payer dest amount (cfg.book x) := by
  cases dest with
  | none => exact release_book hF r payer amount x
  | some y =>
      unfold settleBook movable
      dsimp only
      split
      · rename_i hdeposit
        obtain ⟨x', htransfer, hbook⟩ := hF.transfer_bestEffort hdeposit
        simp only [handleHeldFunds, Option.bind_some, htransfer, Except.toOption]
        exact hbook
      · rename_i hdeposit
        obtain ⟨e, htransfer⟩ := hF.transfer_refused (by simpa using hdeposit)
        simp only [handleHeldFunds, Option.bind_some, htransfer, Except.toOption]
        exact release_book hF r payer amount x

/-- Paying out a fee lowers one hold of one account, by at most the fee. -/
theorem held_le_settleBook (existentialDeposit : ℕ) (r s : HoldReason) (payer y : A)
    (dest : Option A) (amount : ℕ) (b : Book A HoldReason) :
    b.held s y ≤ (settleBook existentialDeposit r payer dest amount b).held s y +
      if s = r ∧ y = payer then amount else 0 := by
  have hrefund : b.held s y ≤ (refundBook existentialDeposit r payer amount b).held s y +
      if s = r ∧ y = payer then amount else 0 := by
    unfold refundBook
    split
    · rw [Book.held_release]
      split <;> omega
    · omega
  unfold settleBook movable
  split
  · exact hrefund
  · split
    · rw [Book.held_transfer]
      split <;> omega
    · exact hrefund

/-- Paying out a fee touches no other reason. -/
theorem settleBook_held_of_ne (existentialDeposit : ℕ) {r s : HoldReason} (hs : s ≠ r) (payer y : A)
    (dest : Option A) (amount : ℕ) (b : Book A HoldReason) :
    (settleBook existentialDeposit r payer dest amount b).held s y = b.held s y := by
  have hrefund : (refundBook existentialDeposit r payer amount b).held s y = b.held s y := by
    unfold refundBook
    split
    · exact Book.held_release_of_ne b hs payer y _
    · rfl
  unfold settleBook
  split
  · exact hrefund
  · split
    · exact Book.held_transfer_of_ne b hs payer _ y _
    · exact hrefund

/-- Settling statements touches only the reasons of the fees. -/
theorem settleStatements_held_of_ne (hF : cfg.hold.Lawful) {s : HoldReason} (hs : s ≠ .aggregation)
    (hs' : s ≠ .delivery) (aggregator : User A) (deliveryOwner y : A)
    (entries : List (StatementEntry A)) (x : X) :
    (cfg.book (entries.foldl (settleStatement cfg aggregator deliveryOwner) x)).held s y =
      (cfg.book x).held s y := by
  induction entries generalizing x with
  | nil => rfl
  | cons entry entries ih =>
      rw [List.foldl_cons, ih]
      unfold settleStatement
      dsimp only
      rw [handleHeldFunds_book hF, settleBook_held_of_ne _ hs', handleHeldFunds_book hF,
        settleBook_held_of_ne _ hs]

/-! ## Deposits -/

section deposits

variable {r s : HoldReason}

theorem dropTicket_held_of_ne {T : Type} {C : Consideration A X T (DispatchError Error)}
    (hC : C.HoldsPrice cfg.hold r) (hs : s ≠ r) (payer : Option A) (ticket : Option T) (y : A) :
    (cfg.book (dropTicket C payer ticket x)).held s y = (cfg.book x).held s y := by
  unfold dropTicket
  split
  · split
    · rename_i hdrop
      exact hC.drop_held_of_ne hs hdrop y
    · rfl
  · rfl

theorem newTicketDomain_held_of_ne (hcfg : cfg.Lawful) (hs : s ≠ .domain) {caller : User A}
    {size queue : ℕ} {destination : Destination} {ticket : Option T₁}
    (h : newTicketDomain cfg S M caller size queue destination x = .ok (ticket, x')) (y : A) :
    (cfg.book x').held s y = (cfg.book x).held s y := by
  unfold newTicketDomain at h
  split at h
  · cases h
    rfl
  · obtain ⟨⟨t, x₁⟩, hnew, h⟩ := seq_eq_ok.mp h
    cases h
    exact hcfg.domain.new_held_of_ne hs hnew y

theorem newTicketAllowlist_held_of_ne (hcfg : cfg.Lawful) (hs : s ≠ .allowlist) {caller : User A}
    {rules : ProofSecurityRules} {ticket : Option (CountableTicket T₂)}
    (h : newTicketAllowlist cfg caller rules x = .ok (ticket, x')) (y : A) :
    (cfg.book x').held s y = (cfg.book x).held s y := by
  unfold newTicketAllowlist at h
  split at h
  · split at h
    · cases h
      rfl
    · obtain ⟨⟨t, x₁⟩, hnew, h⟩ := seq_eq_ok.mp h
      cases h
      exact hcfg.allowlist.new_held_of_ne hs hnew y
  · cases h
    rfl

theorem changeFootprintCount_held_of_ne (hcfg : cfg.Lawful) (hs : s ≠ .allowlist)
    {recount : ℕ → Option ℕ} {D D' : DomainEntry A T₁ T₂ S M}
    (h : D.changeFootprintCount cfg recount x = .ok (D', x')) (y : A) :
    (cfg.book x').held s y = (cfg.book x).held s y := by
  rcases DomainEntry.changeFootprintCount_ok h with
    ⟨-, rfl, -⟩ | ⟨_, _, _, _, _, -, -, -, hupdate, -⟩
  · rfl
  · exact hcfg.allowlist.update_held_of_ne hs hupdate y

end deposits

/-! ## A lawful configuration -/

/-- The pallet over the book itself: the root origin manages it, a publication is estimated at
`fee`, and a delivery never fails. -/
def bookConfig (existentialDeposit fee : ℕ) (priceDomain priceAllowlist : Footprint → ℕ)
    (merkleRoot : List H256 → H256) : Config A (Book A HoldReason) ℕ ℕ where
  managerOrigin
    | .root => true
    | _ => false
  hold := Book.fungible existentialDeposit
  considerationDomain := Book.consideration .domain priceDomain
  considerationAllowList := Book.consideration .allowlist priceAllowlist
  estimateCallFee _ _ := fee
  computePublisherTip _ := none
  weightInfo := ⟨fun _ => ⟨0, 0⟩, ⟨0, 0⟩, ⟨0, 0⟩⟩
  dispatchAggregation _ _ _ _ _ _ _ := .ok ()
  dispatchWeight _ := ⟨0, 0⟩
  merkleRoot := merkleRoot
  encodedSizes := ⟨32, 16, 16⟩

theorem bookConfig_lawful (existentialDeposit fee : ℕ) (priceDomain priceAllowlist : Footprint → ℕ)
    (merkleRoot : List H256 → H256) :
    (bookConfig existentialDeposit fee priceDomain priceAllowlist merkleRoot :
      Config A (Book A HoldReason) ℕ ℕ).Lawful where
  currency := Book.fungible_lawful existentialDeposit
  domain := Book.consideration_holdsPrice existentialDeposit HoldReason.domain priceDomain
  allowlist := Book.consideration_holdsPrice existentialDeposit HoldReason.allowlist priceAllowlist

/-- The receipt of the aggregation whose only statement is zero: the Keccak-256 hash of 32 zero
bytes. -/
def zeroReceipt : H256 :=
  #v[0x29, 0x0d, 0xec, 0xd9, 0x54, 0x8b, 0x62, 0xa8, 0xd6, 0x03, 0x45, 0xa9, 0x88, 0x38, 0x6f, 0xc8,
    0x4b, 0xa6, 0xbc, 0x95, 0x48, 0x40, 0x08, 0xf6, 0x36, 0x2f, 0x93, 0x16, 0x0e, 0xf3, 0xe5, 0x63]

/-- A configuration with an existential deposit of `1`, a publication fee of `20` and a price of `2`
for every row of an allowlist. -/
def sampleConfig : Config ℕ (Book ℕ HoldReason) ℕ ℕ :=
  bookConfig 1 20 (fun _ => 5) (fun footprint => 2 * footprint.count) fun _ => zeroReceipt

/-- Every account owns `1000`, and nothing is on hold or frozen. -/
def sampleBook : Book ℕ HoldReason :=
  ⟨fun _ => 1000, fun _ _ => 0, fun _ => 0, fun _ => 0, 1000000⟩

theorem sampleConfig_lawful : sampleConfig.Lawful := bookConfig_lawful _ _ _ _ _

end ZkVerify.Aggregate
