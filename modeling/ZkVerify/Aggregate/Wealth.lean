import ZkVerify.Frame.Transfers
import ZkVerify.Aggregate.Funds
import ZkVerify.Aggregate.Isolation

/-!
# Who pays whom

An operation of the pallet moves money from one account to another only if it publishes an
aggregation, and then only as fees: for each of the published statements its submitter pays at most
the two amounts that were reserved for it, one to the publisher and one to the owner of the
delivery.  Everything else, deposits and reservations, is money that an account puts aside for
itself.
-/

namespace ZkVerify.Aggregate

open Frame Transfer

variable {A X T₁ T₂ : Type} {S M : ℕ} {cfg : Config A X T₁ T₂}

instance : Fintype HoldReason where
  elems := {.aggregation, .domain, .delivery, .allowlist}
  complete r := by cases r <;> decide

/-- Deposits are taken from what is free. -/
structure Config.Covered (cfg : Config A X T₁ T₂) : Prop where
  domain : cfg.considerationDomain.Covered cfg.hold
  allowlist : cfg.considerationAllowList.Covered cfg.hold

/-- What an account owns, as far as the pallet sees it. -/
def Config.wealth (cfg : Config A X T₁ T₂) (x : X) : A → ℕ := (cfg.book x).wealth

/-! ## What is due -/

/-- What is due for a statement that is published. -/
def StatementEntry.dues (entry : StatementEntry A) (publisher deliveryOwner : Option A) :
    List (Due A) :=
  [⟨entry.account, publisher, entry.reserve.aggregate⟩,
    ⟨entry.account, deliveryOwner, entry.reserve.delivery⟩]

/-- What a call that leads from `s` to `s'` makes due. -/
def dues (cfg : Config A X T₁ T₂) (s : State A X T₁ T₂ S M) (c : Call A)
    (s' : State A X T₁ T₂ S M) : List (Due A) :=
  match c with
  | .aggregate origin d _ =>
      (s'.published.drop s.published.length).flatMap fun (_, aggregation) =>
        aggregation.statements.toList.flatMap fun entry =>
          entry.dues ((User.fromOrigin cfg origin).toOption.bind User.account?)
            ((s.domains.lookup d).map fun D => D.delivery.owner)
  | _ => []

/-- Nothing is due if nothing happens. -/
theorem dues_self (s : State A X T₁ T₂ S M) (c : Call A) : dues cfg s c s = [] := by
  cases c <;> simp [dues]

variable [DecidableEq A]

/-! ## Paying -/

/-- Paying out a fee is one transfer, to the destination or back. -/
theorem settleBook_explained (existentialDeposit : ℕ) (r : HoldReason) (payer : A)
    (dest : Option A) (amount : ℕ) (b : Book A HoldReason) :
    ∃ t : Transfer A, t.For ⟨payer, dest, amount⟩ ∧
      Explains [t] b.wealth (settleBook existentialDeposit r payer dest amount b).wealth := by
  -- A transfer of what is on hold is a transfer.
  have hmove : ∀ (y : A) (n : ℕ), n ≤ b.held r payer →
      Explains [⟨payer, y, n⟩] b.wealth (b.transfer r payer y n).wealth := by
    intro y n hn z
    simpa [sent, received] using b.wealth_transfer hn y z
  have hrefund : ∃ t : Transfer A, t.For ⟨payer, dest, amount⟩ ∧
      Explains [t] b.wealth (refundBook existentialDeposit r payer amount b).wealth := by
    unfold refundBook
    split
    · exact ⟨⟨payer, payer, min amount (b.held r payer)⟩, ⟨rfl, .inl rfl, min_le_left _ _⟩,
        hmove payer _ (min_le_right _ _)⟩
    · refine ⟨⟨payer, payer, 0⟩, ⟨rfl, .inl rfl, Nat.zero_le _⟩, fun y => ?_⟩
      simp [sent, received]
  unfold settleBook
  split
  · exact hrefund
  · rename_i y
    split
    · refine ⟨⟨payer, y, movable r payer amount b⟩, ⟨rfl, .inr rfl, min_le_left _ _⟩,
        hmove y _ ?_⟩
      exact (min_le_right _ _).trans (min_le_right _ _)
    · exact hrefund

theorem settleStatement_explained (hF : cfg.hold.Lawful) (aggregator : User A) (deliveryOwner : A)
    (x : X) (entry : StatementEntry A) :
    ∃ ts, Covers (entry.dues aggregator.account? (some deliveryOwner)) ts ∧
      Explains ts (cfg.wealth x)
        (cfg.wealth (settleStatement cfg aggregator deliveryOwner x entry)) := by
  unfold settleStatement Config.wealth
  dsimp only
  rw [handleHeldFunds_book hF, handleHeldFunds_book hF]
  obtain ⟨t, ht, hfirst⟩ := settleBook_explained cfg.hold.existentialDeposit .aggregation
    entry.account aggregator.account? entry.reserve.aggregate (cfg.book x)
  obtain ⟨u, hu, hsecond⟩ := settleBook_explained cfg.hold.existentialDeposit .delivery
    entry.account (some deliveryOwner) entry.reserve.delivery
    (settleBook cfg.hold.existentialDeposit .aggregation entry.account aggregator.account?
      entry.reserve.aggregate (cfg.book x))
  exact ⟨[t, u], .cons ht (.cons hu .nil), hfirst.append hsecond⟩

theorem settleStatements_explained (hF : cfg.hold.Lawful) (aggregator : User A) (deliveryOwner : A)
    (entries : List (StatementEntry A)) (x : X) :
    ∃ ts, Covers (entries.flatMap fun entry => entry.dues aggregator.account? (some deliveryOwner))
        ts ∧
      Explains ts (cfg.wealth x)
        (cfg.wealth (entries.foldl (settleStatement cfg aggregator deliveryOwner) x)) := by
  induction entries generalizing x with
  | nil => exact ⟨[], .nil, explains_nil rfl⟩
  | cons entry entries ih =>
      obtain ⟨ts, hcovers, hfirst⟩ := settleStatement_explained hF aggregator deliveryOwner x entry
      obtain ⟨us, hcovers', hrest⟩ := ih (settleStatement cfg aggregator deliveryOwner x entry)
      exact ⟨ts ++ us, hcovers.append hcovers', hfirst.append hrest⟩

/-! ## Putting aside -/

theorem hold_wealth (hF : cfg.hold.Lawful) {r : HoldReason} {account : A} {n : ℕ} {x x' : X}
    (h : cfg.hold.hold r account n x = .ok x') : cfg.wealth x' = cfg.wealth x := by
  obtain ⟨hle, hbook⟩ := hF.hold_ok h
  rw [Config.wealth, Config.book, hbook, Book.wealth_hold _ hle]
  rfl

theorem reserveCurrency_wealth (hF : cfg.hold.Lawful) {D : DomainEntry A T₁ T₂ S M} {account : A}
    {result : Except (DispatchError Error) Reserve} {x x' : X}
    (h : D.reserveCurrency cfg account x = .ok (result, x')) : cfg.wealth x' = cfg.wealth x := by
  cases result with
  | error e => rw [Config.wealth, reserveCurrency_error hF h, Config.wealth]
  | ok reserve =>
      unfold DomainEntry.reserveCurrency at h
      dsimp only at h
      split at h
      · cases h
      · split at h
        · cases h
        · rename_i x₁ hfirst
          split at h
          · rename_i x₂ hsecond
            cases h
            exact (hold_wealth hF hsecond).trans (hold_wealth hF hfirst)
          · split at h <;> cases h

/-! ## Operations -/

/-- The money that an operation moves is due for statements that it publishes. -/
theorem Effect.explained (hcfg : cfg.Lawful) (hcovered : cfg.Covered)
    {s s' : State A X T₁ T₂ S M} (hrep : Represented s) {c : Call A} (h : Effect cfg s c s') :
    ∃ ts, Covers (dues cfg s c s') ts ∧
      Explains ts (cfg.wealth s.chain) (cfg.wealth s'.chain) := by
  have hdomain : cfg.considerationDomain.Keeps cfg.wealth :=
    hcovered.domain.keeps_wealth hcfg.domain
  have hallowlist : cfg.considerationAllowList.Keeps cfg.wealth :=
    hcovered.allowlist.keeps_wealth hcfg.allowlist
  cases h with
  | skipped _ hchain =>
      refine ⟨[], .nil, explains_nil ?_⟩
      rcases hchain with rfl | ⟨D, a, e, hreserve⟩
      · rfl
      · exact reserveCurrency_wealth hcfg.currency hreserve
  | accepted _ _ _ _ hreserve =>
      exact ⟨[], .nil, explains_nil (reserveCurrency_wealth hcfg.currency hreserve)⟩
  | @aggregated _ d _ aggregator D D' aggregation _ horigin hlookup htake =>
      obtain ⟨ts, hcovers, hexplains⟩ := settleStatements_explained hcfg.currency aggregator
        D'.delivery.owner aggregation.statements.toList s.chain
      have hdelivery : D'.delivery = D.delivery :=
        (DomainEntry.takeAggregation_moved (hrep.wf d D hlookup) htake).delivery
      refine ⟨ts, ?_, hexplains⟩
      simpa [dues, State.deposit, horigin, hlookup, Except.toOption, ← hdelivery] using hcovers
  | registered _ _ _ hticket hticket' =>
      exact ⟨[], .nil, explains_nil ((Config.Keeps.newTicketAllowlist hallowlist hticket').trans
        (Config.Keeps.newTicketDomain hdomain hticket))⟩
  | unregistered =>
      exact ⟨[], .nil, explains_nil ((Config.Keeps.dropTicket hallowlist _ _ _).trans
        (Config.Keeps.dropTicket hdomain _ _ _))⟩
  | allowlisted _ _ _ _ _ hcount | submittersRemoved _ _ _ _ _ hcount =>
      exact ⟨[], .nil, explains_nil (Config.Keeps.changeFootprintCount hallowlist hcount)⟩
  | held | feeSet | initialized => exact ⟨[], .nil, explains_nil rfl⟩

end ZkVerify.Aggregate
