import ZkVerify.Aggregate.Solvency

/-!
# Settling a published aggregation

`aggregate` pays the fees of every statement out of the submitter's hold: the
aggregation fee to the caller, the delivery fee to the delivery owner, or back to the
submitter when the destination cannot receive it.  `PaidExactly` says that one such
payment moves exactly its amount, and `SettledExactly` that all payments of a call do.

The code pays with a polite best-effort transfer.  Such a transfer moves less than the
amount, and still succeeds, when the freezes on the submitter's account need a part of
the balance on hold; the rest stays on hold for a statement that is no longer pending.
`coverable` is the exact condition for a payment to be exact:

* the destination can receive the amount, and the freezes leave the amount over; or
* the destination can receive neither the amount nor what a transfer would move, and
  the submitter can receive the amount.

`settledExactly_iff` says that a call settles exactly if and only if each of its
payments is coverable when its turn comes.
-/

namespace ZkVerify.Aggregate

open Frame DomainEntry

variable {A X T₁ T₂ : Type} {S M : ℕ} [DecidableEq A]

/-! ## One payment -/

/-- A payment out of a hold. -/
structure Payment (A : Type) where
  reason : HoldReason
  payer : A
  dest : Option A
  amount : ℕ

namespace Payment

variable {existentialDeposit : ℕ} {p : Payment A} {b b' : Book A HoldReason}

/-- Who is to be paid: the destination if it can receive the amount, otherwise the payer. -/
def recipient (existentialDeposit : ℕ) (p : Payment A) (b : Book A HoldReason) : A :=
  match p.dest with
  | some y => if b.canDeposit existentialDeposit y p.amount then y else p.payer
  | none => p.payer

/-- The payment moves exactly its amount from the hold to the free balance of the recipient. -/
structure PaidExactly (existentialDeposit : ℕ) (p : Payment A) (b b' : Book A HoldReason) :
    Prop where
  held : b.held p.reason p.payer = b'.held p.reason p.payer + p.amount
  other_holds : ∀ r y, ¬ (r = p.reason ∧ y = p.payer) → b'.held r y = b.held r y
  credited : ∀ y, b'.free y =
    b.free y + if y = p.recipient existentialDeposit b then p.amount else 0
  issuance : b'.issuance = b.issuance

/-- The book after an exact payment. -/
def ideal (existentialDeposit : ℕ) (p : Payment A) (b : Book A HoldReason) : Book A HoldReason :=
  b.transfer p.reason p.payer (p.recipient existentialDeposit b) p.amount

/-- The book after the payment as the code makes it. -/
def settle (existentialDeposit : ℕ) (p : Payment A) (b : Book A HoldReason) : Book A HoldReason :=
  settleBook existentialDeposit p.reason p.payer p.dest p.amount b

/-- The condition under which the code pays exactly. -/
def coverable (existentialDeposit : ℕ) (p : Payment A) (b : Book A HoldReason) : Bool :=
  match p.dest with
  | none => b.canDeposit existentialDeposit p.payer p.amount
  | some y =>
      let refused := !b.canDeposit existentialDeposit y (min p.amount (b.liquid p.payer))
      if b.canDeposit existentialDeposit y p.amount then
        decide (p.amount ≤ b.liquid p.payer) || (decide (y = p.payer) && refused)
      else refused && b.canDeposit existentialDeposit p.payer p.amount

theorem paidExactly_ideal (hheld : p.amount ≤ b.held p.reason p.payer) :
    p.PaidExactly existentialDeposit b (p.ideal existentialDeposit b) where
  held := by
    simp only [ideal, Book.held_transfer, and_self, if_true]
    omega
  other_holds := by
    intro r y hne
    rw [ideal, Book.held_transfer, if_neg hne]
  credited := by
    intro y
    simp only [ideal, Book.transfer]
    split <;> simp
  issuance := rfl

omit [DecidableEq A] in
private theorem canDeposit_zero (b : Book A HoldReason) (y : A) :
    b.canDeposit existentialDeposit y 0 = true := by
  simp [Book.canDeposit]

section destination

variable {r : HoldReason} {payer y : A} {amount : ℕ}

omit [DecidableEq A] in
private theorem movable_eq (hheld : amount ≤ b.held r payer) :
    movable r payer amount b = min amount (b.liquid payer) := by
  unfold movable
  omega

/-- If the destination can receive what the freezes leave, that is what it gets. -/
private theorem settle_of_received (hheld : amount ≤ b.held r payer)
    (hy : b.canDeposit existentialDeposit y (min amount (b.liquid payer)) = true) :
    settle existentialDeposit ⟨r, payer, some y, amount⟩ b =
      b.transfer r payer y (min amount (b.liquid payer)) := by
  unfold settle settleBook
  dsimp only
  rw [movable_eq hheld, if_pos hy]

/-- Otherwise the amount is released. -/
private theorem settle_of_refused (hheld : amount ≤ b.held r payer)
    (hy : b.canDeposit existentialDeposit y (min amount (b.liquid payer)) = false) :
    settle existentialDeposit ⟨r, payer, some y, amount⟩ b =
      refundBook existentialDeposit r payer amount b := by
  unfold settle settleBook
  dsimp only
  rw [movable_eq hheld, if_neg (by simp [hy])]

private theorem refundBook_eq (hheld : amount ≤ b.held r payer)
    (hpayer : b.canDeposit existentialDeposit payer amount = true) :
    refundBook existentialDeposit r payer amount b = b.transfer r payer payer amount := by
  rw [refundBook, if_pos hpayer, min_eq_left hheld]
  rfl

end destination

/-- A coverable payment is made exactly. -/
theorem settle_of_coverable (hheld : p.amount ≤ b.held p.reason p.payer)
    (h : p.coverable existentialDeposit b = true) :
    p.settle existentialDeposit b = p.ideal existentialDeposit b := by
  obtain ⟨r, payer, dest, amount⟩ := p
  cases dest with
  | none => exact refundBook_eq hheld h
  | some y =>
      unfold coverable at h
      unfold ideal recipient
      dsimp only at h ⊢
      by_cases hy : b.canDeposit existentialDeposit y amount = true
      · rw [if_pos hy] at h ⊢
        by_cases hliquid : amount ≤ b.liquid payer
        · have hmin := min_eq_left hliquid
          rw [settle_of_received hheld (by rw [hmin, hy]), hmin]
        · -- The freezes need a part, but a refund to the payer is what is to be paid.
          simp only [hliquid, decide_false, Bool.false_or, Bool.and_eq_true, decide_eq_true_eq,
            Bool.not_eq_true'] at h
          obtain ⟨rfl, hrefused⟩ := h
          rw [settle_of_refused hheld hrefused, refundBook_eq hheld hy]
      · rw [if_neg hy] at h ⊢
        rw [Bool.and_eq_true, Bool.not_eq_true'] at h
        rw [settle_of_refused hheld h.1, refundBook_eq hheld h.2]

/-- A refund that is exact was possible: otherwise nothing is paid. -/
private theorem canDeposit_of_refunded
    (hrefund : p.settle existentialDeposit b =
      refundBook existentialDeposit p.reason p.payer p.amount b)
    (h : p.PaidExactly existentialDeposit b (p.settle existentialDeposit b)) :
    b.canDeposit existentialDeposit p.payer p.amount = true := by
  by_contra hpayer
  rw [hrefund, refundBook, if_neg hpayer] at h
  have hzero : p.amount = 0 := by
    have := h.held
    omega
  exact hpayer (hzero ▸ canDeposit_zero b p.payer)

/-- An exact payment was coverable. -/
theorem coverable_of_paidExactly (hheld : p.amount ≤ b.held p.reason p.payer)
    (h : p.PaidExactly existentialDeposit b (p.settle existentialDeposit b)) :
    p.coverable existentialDeposit b = true := by
  obtain ⟨r, payer, dest, amount⟩ := p
  cases dest with
  | none => exact canDeposit_of_refunded rfl h
  | some y =>
      by_cases hmoved : b.canDeposit existentialDeposit y (min amount (b.liquid payer)) = true
      · -- The transfer is made, so it moves the whole amount.
        have hall : amount ≤ b.liquid payer := by
          have hexact := h.held
          rw [settle_of_received hheld hmoved] at hexact
          simp only [Book.held_transfer, and_self, if_true] at hexact hheld
          omega
        rw [min_eq_left hall] at hmoved
        simp [coverable, hmoved, hall]
      · -- The transfer is refused, so the amount is released.
        have hsettle := settle_of_refused hheld (Bool.eq_false_iff.mpr hmoved)
        have hpayer : b.canDeposit existentialDeposit payer amount = true :=
          canDeposit_of_refunded hsettle h
        by_cases hy : b.canDeposit existentialDeposit y amount = true
        · have hsame : y = payer := by
            by_contra hne
            have hcredit := h.credited payer
            rw [hsettle, refundBook_eq hheld hpayer] at hcredit
            simp only [recipient, hy, if_true, Ne.symm hne, if_false, Book.transfer] at hcredit
            have hzero : min amount (b.liquid payer) = 0 := by omega
            exact hmoved (hzero ▸ canDeposit_zero b y)
          subst hsame
          simp [coverable, hy, hmoved]
        · simp [coverable, hy, hmoved, hpayer]

/-- The code pays exactly if and only if the payment is coverable. -/
theorem paidExactly_settle_iff (hheld : p.amount ≤ b.held p.reason p.payer) :
    p.PaidExactly existentialDeposit b (p.settle existentialDeposit b) ↔
      p.coverable existentialDeposit b = true := by
  constructor
  · exact coverable_of_paidExactly hheld
  · intro h
    rw [settle_of_coverable hheld h]
    exact paidExactly_ideal hheld

end Payment

/-! ## All payments of a call -/

section payments

variable (existentialDeposit : ℕ)

/-- What a list of payments takes from one hold. -/
def paymentsDue (r : HoldReason) (y : A) (payments : List (Payment A)) : ℕ :=
  (payments.map fun p => if r = p.reason ∧ y = p.payer then p.amount else 0).sum

/-- Every payment is coverable when its turn comes. -/
def allCoverable : List (Payment A) → Book A HoldReason → Bool
  | [], _ => true
  | p :: payments, b => p.coverable existentialDeposit b &&
      allCoverable payments (p.ideal existentialDeposit b)

/-- Every payment is made exactly. -/
def AllExact : List (Payment A) → Book A HoldReason → Prop
  | [], _ => True
  | p :: payments, b => p.PaidExactly existentialDeposit b (p.settle existentialDeposit b) ∧
      AllExact payments (p.settle existentialDeposit b)

/-- All payments are exact if and only if each is coverable when its turn comes. -/
theorem allExact_iff (payments : List (Payment A)) (b : Book A HoldReason)
    (hdue : ∀ r y, paymentsDue r y payments ≤ b.held r y) :
    AllExact existentialDeposit payments b ↔
      allCoverable existentialDeposit payments b = true := by
  induction payments generalizing b with
  | nil => simp [AllExact, allCoverable]
  | cons p payments ih =>
      have hsplit : ∀ r y, paymentsDue r y (p :: payments) =
          (if r = p.reason ∧ y = p.payer then p.amount else 0) + paymentsDue r y payments :=
        fun r y => List.sum_cons
      have hheld : p.amount ≤ b.held p.reason p.payer := by
        have := hdue p.reason p.payer
        rw [hsplit, if_pos ⟨rfl, rfl⟩] at this
        omega
      -- The payments that remain are still covered by what is on hold.
      have hrest : ∀ r y, paymentsDue r y payments ≤ (p.settle existentialDeposit b).held r y := by
        intro r y
        have hbefore := hdue r y
        have hafter := held_le_settleBook existentialDeposit p.reason r p.payer y p.dest p.amount b
        rw [hsplit] at hbefore
        unfold Payment.settle
        omega
      rw [AllExact, allCoverable, Payment.paidExactly_settle_iff hheld, Bool.and_eq_true]
      refine and_congr_right fun hcoverable => ?_
      rw [ih _ hrest, Payment.settle_of_coverable hheld hcoverable]

end payments

/-! ## The settlement of an aggregation -/

/-- The aggregation fee of a statement goes to the caller. -/
def aggregationPayment (caller : User A) (entry : StatementEntry A) : Payment A :=
  ⟨.aggregation, entry.account, caller.account?, entry.reserve.aggregate⟩

/-- The delivery fee of a statement goes to the delivery owner. -/
def deliveryPayment (deliveryOwner : A) (entry : StatementEntry A) : Payment A :=
  ⟨.delivery, entry.account, some deliveryOwner, entry.reserve.delivery⟩

/-- The payments for a list of statements. -/
def payments (caller : User A) (deliveryOwner : A) (entries : List (StatementEntry A)) :
    List (Payment A) :=
  entries.flatMap fun entry =>
    [aggregationPayment caller entry, deliveryPayment deliveryOwner entry]

/-- The loop of `aggregate` over the statements makes every payment exactly. -/
def SettledExactly (cfg : Config A X T₁ T₂) (caller : User A) (deliveryOwner : A) :
    List (StatementEntry A) → X → Prop
  | [], _ => True
  | entry :: entries, x =>
      let paid := handleHeldFunds cfg .aggregation entry.account caller.account?
        entry.reserve.aggregate x
      let settled := settleStatement cfg caller deliveryOwner x entry
      (aggregationPayment caller entry).PaidExactly cfg.hold.existentialDeposit (cfg.book x)
          (cfg.book paid) ∧
        (deliveryPayment deliveryOwner entry).PaidExactly cfg.hold.existentialDeposit
          (cfg.book paid) (cfg.book settled) ∧
        SettledExactly cfg caller deliveryOwner entries settled

variable {cfg : Config A X T₁ T₂}

theorem settledExactly_iff_allExact (hF : cfg.hold.Lawful) (caller : User A) (deliveryOwner : A)
    (entries : List (StatementEntry A)) (x : X) :
    SettledExactly cfg caller deliveryOwner entries x ↔
      AllExact cfg.hold.existentialDeposit (payments caller deliveryOwner entries)
        (cfg.book x) := by
  induction entries generalizing x with
  | nil => rfl
  | cons entry entries ih =>
      have hpaid : cfg.book (handleHeldFunds cfg .aggregation entry.account caller.account?
          entry.reserve.aggregate x) =
          (aggregationPayment caller entry).settle cfg.hold.existentialDeposit (cfg.book x) :=
        handleHeldFunds_book hF _ _ _ _ x
      have hsettled : cfg.book (settleStatement cfg caller deliveryOwner x entry) =
          (deliveryPayment deliveryOwner entry).settle cfg.hold.existentialDeposit
            ((aggregationPayment caller entry).settle cfg.hold.existentialDeposit
              (cfg.book x)) := by
        rw [← hpaid]
        exact handleHeldFunds_book hF _ _ _ _ _
      show _ ∧ _ ∧ SettledExactly cfg caller deliveryOwner entries _ ↔ _ ∧ _ ∧
        AllExact cfg.hold.existentialDeposit (payments caller deliveryOwner entries) _
      rw [ih, hsettled, hpaid]

theorem paymentsDue_payments (r : HoldReason) (y : A) (caller : User A) (deliveryOwner : A)
    (entries : List (StatementEntry A)) :
    paymentsDue r y (payments caller deliveryOwner entries) =
      (entries.map (StatementEntry.due r y)).sum := by
  induction entries with
  | nil => rfl
  | cons entry entries ih =>
      have hentry : StatementEntry.due r y entry =
          (if r = .aggregation ∧ y = entry.account then entry.reserve.aggregate else 0) +
            if r = .delivery ∧ y = entry.account then entry.reserve.delivery else 0 :=
        entry.due_eq r y
      rw [List.map_cons, List.sum_cons, ← ih, hentry, Nat.add_assoc]
      rfl

/-- What is due for a stored domain is part of what is due. -/
theorem DomainEntry.due_le {s : State A X T₁ T₂ S M} {d : ℕ} {D : DomainEntry A T₁ T₂ S M}
    (hlookup : s.domains.lookup d = some D) (r : HoldReason) (y : A) : D.due r y ≤ s.due r y := by
  rw [State.due, Finmap.total_eq_elim_add _ _ d, hlookup]
  exact Nat.le_add_right _ _

/-- A successful `aggregate` call settles the aggregation it publishes exactly if and only if each
payment is coverable when its turn comes. -/
theorem settledExactly_iff (hcfg : cfg.Lawful) {s s' : State A X T₁ T₂ S M}
    (hs : Reachable cfg feeReasons s) {origin : RawOrigin A} {d a : ℕ} {info : PostDispatchInfo}
    (hok : dispatch cfg (.aggregate origin d a) s = .ok (s', info)) :
    ∃ caller D aggregation,
      User.fromOrigin cfg origin = .ok caller ∧ s.domains.lookup d = some D ∧
      s'.published = s.published ++ [(d, aggregation)] ∧
      s'.chain = aggregation.statements.toList.foldl
        (settleStatement cfg caller D.delivery.owner) s.chain ∧
      (SettledExactly cfg caller D.delivery.owner aggregation.statements.toList s.chain ↔
        allCoverable cfg.hold.existentialDeposit
          (payments caller D.delivery.owner aggregation.statements.toList)
          (cfg.book s.chain) = true) := by
  have hrep := hs.represented
  have hsolvent := hs.solvent hcfg
  cases effect_of_dispatch hok with
  | @aggregated _ _ _ caller D D' aggregation _ horigin hlookup htake =>
      have hwf := hrep.wf d D hlookup
      have howner : D'.delivery.owner = D.delivery.owner := by
        rw [(takeAggregation_moved hwf htake).delivery]
      refine ⟨caller, D, aggregation, horigin, hlookup, rfl, by rw [howner], ?_⟩
      rw [settledExactly_iff_allExact hcfg.currency]
      apply allExact_iff
      intro r y
      rw [paymentsDue_payments]
      by_cases hr : r ∈ feeReasons
      · have htaken := takeAggregation_due (r := r) (y := y) hwf htake
        calc (aggregation.statements.toList.map (StatementEntry.due r y)).sum
            ≤ D.due r y := by
              rw [← htaken]
              exact Nat.le_add_left _ _
          _ ≤ s.due r y := due_le hlookup r y
          _ ≤ (cfg.book s.chain).held r y := hsolvent r hr y
      · have hzero : aggregation.statements.toList.map (StatementEntry.due r y) =
            aggregation.statements.toList.map fun _ => 0 :=
          List.map_congr_left fun entry _ => entry.due_of_notMem hr
        simp [hzero]

/-- Root registers a domain for aggregations of one statement, and account `1` submits one.  Its
fees are `20` for the aggregation and `14` for the delivery. -/
def sampleSubmission : List (Step sampleConfig feeReasons) :=
  [.call (.registerDomain .root 1 none .untrusted .untrusted ⟨.none, 10, 4⟩ (some 7)),
    .call (.onProofVerified (some 1) (some 0) (Vector.replicate 32 0))]

/-- All balances are locked, as by vesting or staking. -/
def lockAll : Environment sampleConfig feeReasons :=
  ⟨fun b => { b with frozen := fun _ => 1000 }, fun _ _ _ _ => rfl⟩

theorem settledExactly_iff_sample :
    let s : State ℕ (Book ℕ HoldReason) ℕ ℕ 4 2 := run (.genesis sampleBook) sampleSubmission
    let s' := exec s (.call (.aggregate (.signed 3) 0 1) : Step sampleConfig feeReasons)
    allCoverable 1 (payments (.account 3) 7 [⟨1, ⟨20, 14⟩, Vector.replicate 32 0⟩])
        (sampleConfig.book s.chain) = true ∧
      ∃ caller D aggregation,
        User.fromOrigin sampleConfig (.signed 3) = .ok caller ∧ s.domains.lookup 0 = some D ∧
        s'.published = s.published ++ [(0, aggregation)] ∧
        s'.chain = aggregation.statements.toList.foldl
          (settleStatement sampleConfig caller D.delivery.owner) s.chain ∧
        (SettledExactly sampleConfig caller D.delivery.owner aggregation.statements.toList s.chain ↔
          allCoverable sampleConfig.hold.existentialDeposit
            (payments caller D.delivery.owner aggregation.statements.toList)
            (sampleConfig.book s.chain) = true) :=
  ⟨by decide,
    settledExactly_iff (a := 1) sampleConfig_lawful ⟨sampleBook, sampleSubmission, rfl⟩ rfl⟩

/-- The balance of the submitter is locked when the aggregation is published: the call succeeds,
nothing is paid, and `20` and `14` stay on hold for a statement that is no longer pending. -/
theorem locked_submitter_not_settled :
    let s : State ℕ (Book ℕ HoldReason) ℕ ℕ 4 2 :=
      run (.genesis sampleBook) (sampleSubmission ++ [.environment lockAll])
    ∃ s' info aggregation,
      dispatch sampleConfig (.aggregate (.signed 3) 0 1) s = .ok (s', info) ∧
      s'.published = [(0, aggregation)] ∧
      ¬ SettledExactly sampleConfig (.account 3) 7 aggregation.statements.toList s.chain ∧
      (s'.due .aggregation 1 = 0 ∧ (sampleConfig.book s'.chain).held .aggregation 1 = 20) ∧
      (s'.due .delivery 1 = 0 ∧ (sampleConfig.book s'.chain).held .delivery 1 = 14) := by
  refine ⟨_, _, _, rfl, rfl, ?_, by decide, by decide⟩
  intro hexact
  have hheld := hexact.1.held
  revert hheld
  decide

end ZkVerify.Aggregate
