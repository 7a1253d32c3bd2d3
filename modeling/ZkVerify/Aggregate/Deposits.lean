import ZkVerify.Aggregate.Tickets
import ZkVerify.Aggregate.Funds

/-!
# The deposits for allowlists

The owner of a domain with an allowlist pays for its rows.  `Deposited` says that every
ticket stands for the price of its count, and that the balance an account has on hold
for allowlists is the sum of these prices over its domains.

Adding and removing rows changes the hold by the difference of the prices, so the
tickets, the counters (`Counted`) and the hold stay together.  In particular what is
released when a domain is unregistered is its whole deposit.
-/

namespace ZkVerify.Aggregate

open Frame DomainEntry

variable {A X T₁ T₂ : Type} {S M : ℕ} [DecidableEq A] {cfg : Config A X T₁ T₂}
  {s s' : State A X T₁ T₂ S M} {c : Call A}

/-! ## One domain -/

/-- What `y` has on hold for the allowlist of a domain. -/
def DomainEntry.allowlistDeposit (cfg : Config A X T₁ T₂) (y : A) (D : DomainEntry A T₁ T₂ S M) :
    ℕ :=
  if D.owner = .account y ∧ D.proofRules = .onlyAllowlisted then
    D.ticketAllowlist.elim 0 fun ticket => cfg.considerationAllowList.price ⟨ticket.count, 0⟩
  else 0

/-- What `y` has on hold for the allowlists of all its domains. -/
def State.allowlistDeposits (cfg : Config A X T₁ T₂) (y : A) (s : State A X T₁ T₂ S M) : ℕ :=
  s.domains.total fun _ D => D.allowlistDeposit cfg y

namespace DomainEntry

variable {D D' : DomainEntry A T₁ T₂ S M} {count : ℕ}

theorem allowlistDeposit_congr (howner : D'.owner = D.owner)
    (hrules : D'.proofRules = D.proofRules) (hticket : D'.ticketAllowlist = D.ticketAllowlist)
    (y : A) : D'.allowlistDeposit cfg y = D.allowlistDeposit cfg y := by
  rw [allowlistDeposit, howner, hrules, hticket, allowlistDeposit]

theorem allowlistDeposit_of_none (h : D.ticketAllowlist = none) (y : A) :
    D.allowlistDeposit cfg y = 0 := by
  simp [allowlistDeposit, h]

/-- The deposit for a ticket is on hold for the owner and for nobody else. -/
theorem allowlistDeposit_of_ticket (h : D.TicketMatches count) {owner : A}
    {ticket : CountableTicket T₂} (howner : D.owner = .account owner)
    (hticket : D.ticketAllowlist = some ticket) (y : A) :
    D.allowlistDeposit cfg y =
      if y = owner then cfg.considerationAllowList.price ⟨ticket.count, 0⟩ else 0 := by
  obtain ⟨-, hrules, -⟩ := h.of_ticket hticket
  simp only [allowlistDeposit, howner, hrules, hticket, Option.elim_some, and_true,
    User.account.injEq, eq_comm (a := y)]

/-- The ticket of the domain stands for the price of its count. -/
def TicketPaid (cfg : Config A X T₁ T₂) (D : DomainEntry A T₁ T₂ S M) : Prop :=
  ∀ ticket, D.ticketAllowlist = some ticket →
    cfg.considerationAllowList.amount ticket.ticket =
      cfg.considerationAllowList.price ⟨ticket.count, 0⟩

/-- A change of the count changes the ticket and the hold together. -/
theorem changeFootprintCount_deposit (hcfg : cfg.Lawful) {recount : ℕ → Option ℕ} {x x' : X}
    (hmatches : D.TicketMatches count) (hpaid : D.TicketPaid cfg)
    (hheld : ∀ y, D.allowlistDeposit cfg y ≤ (cfg.book x).held .allowlist y)
    (hchange : D.changeFootprintCount cfg recount x = .ok (D', x')) :
    D'.TicketPaid cfg ∧
      ∀ y, (cfg.book x').held .allowlist y + D.allowlistDeposit cfg y =
        (cfg.book x).held .allowlist y + D'.allowlistDeposit cfg y := by
  rcases changeFootprintCount_ok hchange with
    ⟨rfl, rfl, -⟩ | ⟨owner, ticket, n, ticket', n', howner, hticket, -, hupdate, rfl⟩
  · exact ⟨hpaid, fun y => rfl⟩
  · obtain ⟨-, hrules, -⟩ := hmatches.of_ticket hticket
    obtain ⟨hamount', hbook⟩ := hcfg.allowlist.update_ok hupdate
    have hmatches' : TicketMatches { D with ticketAllowlist := some ⟨ticket', n'⟩ } n' :=
      .of_account howner hrules rfl
    refine ⟨fun t ht => ?_, fun y => ?_⟩
    · cases ht
      exact hamount'
    · have hle := hheld y
      have hamount := hpaid _ hticket
      dsimp only at hamount
      rw [allowlistDeposit_of_ticket hmatches howner hticket, Config.book] at hle
      rw [allowlistDeposit_of_ticket hmatches howner hticket,
        allowlistDeposit_of_ticket hmatches' howner rfl, Config.book, Config.book, hbook, hamount]
      by_cases hy : y = owner
      · -- The hold grows or shrinks by the difference of the prices.
        subst hy
        simp only [if_true] at hle ⊢
        split
        · simp only [Book.held_hold, and_self, if_true]
          omega
        · simp only [Book.held_release, and_self, if_true]
          omega
      · split <;> simp [hy]

end DomainEntry

/-! ## All domains -/

/-- Every ticket is paid, and every account has on hold what its domains pay. -/
structure Deposited (cfg : Config A X T₁ T₂) (s : State A X T₁ T₂ S M) : Prop where
  paid : ∀ d D, s.domains.lookup d = some D → D.TicketPaid cfg
  held : ∀ y, (cfg.book s.chain).held .allowlist y = s.allowlistDeposits cfg y

namespace Deposited

variable {d : ℕ} {D D' : DomainEntry A T₁ T₂ S M}

/-- What is on hold for one domain is part of what is on hold. -/
theorem deposit_le (h : Deposited cfg s) (hlookup : s.domains.lookup d = some D) (y : A) :
    D.allowlistDeposit cfg y ≤ (cfg.book s.chain).held .allowlist y := by
  rw [h.held, State.allowlistDeposits, Finmap.total_eq_elim_add _ _ d, hlookup]
  exact Nat.le_add_right _ _

/-- A stored domain and its deposit change together. -/
theorem replace (h : Deposited cfg s) (hlookup : s.domains.lookup d = some D)
    (hdomains : s'.domains = s.domains.insert d D') (hpaid : D'.TicketPaid cfg)
    (hbalance : ∀ y, (cfg.book s'.chain).held .allowlist y + D.allowlistDeposit cfg y =
      (cfg.book s.chain).held .allowlist y + D'.allowlistDeposit cfg y) : Deposited cfg s' where
  paid := by
    rw [hdomains]
    exact Finmap.forall_lookup_insert hpaid fun d' D₁ _ => h.paid d' D₁
  held := by
    intro y
    have htotal :=
      Finmap.total_insert_of_lookup (f := fun _ D => allowlistDeposit cfg y D) D' hlookup
    have hbefore := h.held y
    have hchange := hbalance y
    rw [State.allowlistDeposits] at hbefore ⊢
    rw [hdomains]
    omega

/-- A stored domain is replaced by one with the same owner, rules and ticket. -/
theorem replace_same (h : Deposited cfg s) (hlookup : s.domains.lookup d = some D)
    (hdomains : s'.domains = s.domains.insert d D') (howner : D'.owner = D.owner)
    (hrules : D'.proofRules = D.proofRules) (hticket : D'.ticketAllowlist = D.ticketAllowlist)
    (hheld : ∀ y, (cfg.book s'.chain).held .allowlist y =
      (cfg.book s.chain).held .allowlist y) : Deposited cfg s' := by
  refine h.replace hlookup hdomains ?_ fun y => ?_
  · rw [TicketPaid, hticket]
    exact h.paid d D hlookup
  · rw [hheld, allowlistDeposit_congr howner hrules hticket]

/-- The other fields of the storage may change. -/
theorem of_domains_eq (h : Deposited cfg s) (hdomains : s'.domains = s.domains)
    (hheld : ∀ y, (cfg.book s'.chain).held .allowlist y =
      (cfg.book s.chain).held .allowlist y) : Deposited cfg s' := by
  refine ⟨by rw [hdomains]; exact h.paid, fun y => ?_⟩
  rw [hheld, h.held, State.allowlistDeposits, State.allowlistDeposits, hdomains]

/-- A new domain brings its own deposit. -/
theorem register (h : Deposited cfg s) (hnone : s.domains.lookup d = none)
    (hdomains : s'.domains = s.domains.insert d D) (hpaid : D.TicketPaid cfg)
    (hbalance : ∀ y, (cfg.book s'.chain).held .allowlist y =
      (cfg.book s.chain).held .allowlist y + D.allowlistDeposit cfg y) : Deposited cfg s' where
  paid := by
    rw [hdomains]
    exact Finmap.forall_lookup_insert hpaid fun d' D₁ _ => h.paid d' D₁
  held := by
    intro y
    have htotal := Finmap.total_insert_of_notMem (f := fun _ D => allowlistDeposit cfg y D) D
      (Finmap.lookup_eq_none.mp hnone)
    rw [hbalance, h.held, State.allowlistDeposits, State.allowlistDeposits, hdomains, htotal]

/-- The deposit of a removed domain is released. -/
theorem unregister (h : Deposited cfg s) (hlookup : s.domains.lookup d = some D)
    (hdomains : s'.domains = s.domains.erase d)
    (hbalance : ∀ y, (cfg.book s'.chain).held .allowlist y + D.allowlistDeposit cfg y =
      (cfg.book s.chain).held .allowlist y) : Deposited cfg s' where
  paid := by
    rw [hdomains]
    exact Finmap.forall_lookup_erase fun d' D₁ _ => h.paid d' D₁
  held := by
    intro y
    have htotal :=
      Finmap.total_erase_of_lookup (f := fun _ D => allowlistDeposit cfg y D) hlookup
    have hbefore := h.held y
    have hchange := hbalance y
    rw [State.allowlistDeposits] at hbefore ⊢
    rw [hdomains]
    omega

end Deposited

/-! ## Giving back tickets -/

/-- The deposits are paid back to the owner, whoever unregisters the domain. -/
theorem payer_eq {user : User A} {D : DomainEntry A T₁ T₂ S M}
    (h : user.canHandleDomain D = true) :
    (user.account? <|> D.owner.account?) = D.owner.account? := by
  cases user with
  | manager => rfl
  | account a =>
      have howner : D.owner = .account a := of_decide_eq_true h
      rw [howner]
      rfl

/-- Giving back the ticket of an allowlist releases its whole price. -/
theorem dropTicket_of_ticket (hcfg : cfg.Lawful) {D : DomainEntry A T₁ T₂ S M} {owner : A}
    {ticket : CountableTicket T₂} {x : X} (hpaid : D.TicketPaid cfg)
    (howner : D.owner = .account owner) (hticket : D.ticketAllowlist = some ticket)
    (hheld : cfg.considerationAllowList.price ⟨ticket.count, 0⟩ ≤
      (cfg.book x).held .allowlist owner) :
    cfg.book (dropTicket cfg.considerationAllowList D.owner.account?
        (D.ticketAllowlist.map CountableTicket.ticket) x) =
      (cfg.book x).release .allowlist owner
        (cfg.considerationAllowList.price ⟨ticket.count, 0⟩) := by
  have hamount := hpaid ticket hticket
  obtain ⟨x', hdrop⟩ := hcfg.allowlist.drop_succeeds (hamount.trans_le hheld)
  have hbook := hcfg.allowlist.drop_ok hdrop
  rw [hamount, min_eq_left hheld] at hbook
  rw [howner, hticket]
  simp only [User.account?, Option.map_some, dropTicket, hdrop]
  exact hbook

/-- Giving back the tickets of a domain lowers the hold by its deposit. -/
theorem dropTickets_held (hcfg : cfg.Lawful) {D : DomainEntry A T₁ T₂ S M} {count : ℕ} {x : X}
    (hmatches : D.TicketMatches count) (hpaid : D.TicketPaid cfg)
    (hheld : ∀ y, D.allowlistDeposit cfg y ≤ (cfg.book x).held .allowlist y) (y : A) :
    (cfg.book (dropTicket cfg.considerationAllowList D.owner.account?
        (D.ticketAllowlist.map CountableTicket.ticket)
        (dropTicket cfg.considerationDomain D.owner.account? D.ticketDomain x))).held .allowlist y +
      D.allowlistDeposit cfg y = (cfg.book x).held .allowlist y := by
  have hfirst : ∀ z, (cfg.book (dropTicket cfg.considerationDomain D.owner.account? D.ticketDomain
      x)).held .allowlist z = (cfg.book x).held .allowlist z :=
    fun z => dropTicket_held_of_ne hcfg.domain (by decide) _ _ z
  cases hticket : D.ticketAllowlist with
  | none =>
      rw [allowlistDeposit_of_none hticket, ← hfirst y]
      cases D.owner.account? <;> rfl
  | some ticket =>
      obtain ⟨⟨owner, howner⟩, -⟩ := hmatches.of_ticket hticket
      have hdeposit : ∀ z, D.allowlistDeposit cfg z = _ :=
        allowlistDeposit_of_ticket hmatches howner hticket
      have hcover := hheld owner
      rw [hdeposit, if_pos rfl, ← hfirst owner] at hcover
      rw [← hticket, dropTicket_of_ticket hcfg hpaid howner hticket hcover, hdeposit,
        Book.held_release, ← hfirst y]
      by_cases hy : y = owner
      · subst hy
        simp only [and_self, if_true]
        omega
      · simp [hy]

/-! ## Runs -/

namespace Deposited

/-- Every successful call keeps the deposits in order. -/
theorem effect (hcfg : cfg.Lawful) (hrep : Represented s) (hcounted : Counted s)
    (h : Deposited cfg s) (heffect : Effect cfg s c s') : Deposited cfg s' := by
  cases heffect with
  | initialized => exact h.of_domains_eq rfl fun _ => rfl
  | skipped _ hchain =>
      refine h.of_domains_eq rfl fun y => ?_
      rcases hchain with rfl | ⟨D, a, e, hreserve⟩
      · rfl
      · show (cfg.book _).held .allowlist y = _
        rw [reserveCurrency_error hcfg.currency hreserve]
  | accepted hlookup hready hroom _ hreserve haccept =>
      have hmoved := acceptStatement_moved (hrep.wf _ _ hlookup) hready hroom haccept
      refine h.replace_same hlookup rfl hmoved.owner hmoved.proofRules hmoved.ticketAllowlist
        fun y => ?_
      show (cfg.book _).held .allowlist y = _
      rw [reserveCurrency_ok hcfg.currency hreserve, holdReserve,
        Book.held_hold_of_ne _ (by decide), Book.held_hold_of_ne _ (by decide)]
  | aggregated _ hlookup htake =>
      have hmoved := (takeAggregation_moved (hrep.wf _ _ hlookup) htake).trans
        (handleHoldState_moved _ s.submittersAllowlist)
      exact h.replace_same hlookup rfl hmoved.owner hmoved.proofRules hmoved.ticketAllowlist
        fun y => settleStatements_held_of_ne hcfg.currency (by decide) (by decide) _ _ y _ _
  | @registered _ _ _ _ _ _ _ caller _ _ _ x x' D _ _ _ hdomain hallowlist hcreate =>
      obtain ⟨-, hD⟩ := tryCreate_ok hcreate
      have hnone : s.domains.lookup s.nextDomainId = none := by
        cases hlookup : s.domains.lookup s.nextDomainId with
        | none => rfl
        | some D => exact absurd (hrep.id_lt _ D hlookup) (lt_irrefl _)
      have hfirst : ∀ y, (cfg.book x).held .allowlist y = (cfg.book s.chain).held .allowlist y :=
        newTicketDomain_held_of_ne hcfg (by decide) hdomain
      rcases newTicketAllowlist_ok hallowlist with ⟨rfl, rfl, -⟩ | ⟨a, t, rfl, rfl, rfl, hnew⟩
      · have hticket : D.ticketAllowlist = none := by rw [hD]
        refine h.register hnone rfl (by simp [TicketPaid, hticket]) fun y => ?_
        rw [allowlistDeposit_of_none hticket]
        exact hfirst y
      · -- The price of a ticket for no rows is put on hold for the owner.
        obtain ⟨hamount, hbook⟩ := hcfg.allowlist.new_ok hnew
        have howner : D.owner = .account a := by rw [hD]
        have hticket : D.ticketAllowlist = some ⟨t, 0⟩ := by rw [hD]
        have hmatches : D.TicketMatches 0 := .of_account howner (by rw [hD]) hticket
        refine h.register hnone rfl ?_ fun y => ?_
        · intro ticket ht
          rw [hticket, Option.some.injEq] at ht
          subst ht
          exact hamount
        · show (cfg.hold.book x').held .allowlist y = _
          rw [allowlistDeposit_of_ticket hmatches howner hticket, hbook, Book.held_hold, ← hfirst y]
          by_cases hy : y = a <;> simp [hy]
  | held _ hlookup => exact h.replace_same hlookup rfl rfl rfl rfl fun _ => rfl
  | unregistered _ hlookup hhandle =>
      refine h.unregister hlookup rfl fun y => ?_
      show (cfg.book _).held .allowlist y + _ = _
      rw [payer_eq hhandle]
      exact dropTickets_held hcfg (hcounted _ _ hlookup) (h.paid _ _ hlookup)
        (h.deposit_le hlookup) y
  | feeSet _ hlookup => exact h.replace_same hlookup rfl rfl rfl rfl fun _ => rfl
  | allowlisted _ hlookup _ _ _ hcount =>
      obtain ⟨hpaid, hbalance⟩ := changeFootprintCount_deposit hcfg (hcounted _ _ hlookup)
        (h.paid _ _ hlookup) (h.deposit_le hlookup) hcount
      exact h.replace hlookup rfl hpaid hbalance
  | @submittersRemoved _ _ _ _ D D' rows _ _ hlookup _ _ _ hcount =>
      obtain ⟨hpaid, hbalance⟩ := changeFootprintCount_deposit hcfg (hcounted _ _ hlookup)
        (h.paid _ _ hlookup) (h.deposit_le hlookup) hcount
      have hmoved := D'.handleHoldState_moved rows
      refine h.replace hlookup rfl ?_ fun y => ?_
      · rw [TicketPaid, hmoved.ticketAllowlist]
        exact hpaid
      · rw [allowlistDeposit_congr hmoved.owner hmoved.proofRules hmoved.ticketAllowlist]
        exact hbalance y

theorem genesis {x : X} (hx : ∀ y, (cfg.book x).held .allowlist y = 0) :
    Deposited cfg (.genesis x : State A X T₁ T₂ S M) := by
  refine ⟨fun d D hlookup => by simp [State.genesis] at hlookup, fun y => ?_⟩
  rw [show (State.genesis x : State A X T₁ T₂ S M).chain = x from rfl, hx y]
  simp [State.allowlistDeposits, State.genesis]

end Deposited

/-- After every run in which nobody else touches the holds for allowlists, the deposits are in
order. -/
theorem deposited_run (hcfg : cfg.Lawful) {x : X}
    (hx : ∀ y, (cfg.book x).held .allowlist y = 0) (steps : List (Step cfg {.allowlist})) :
    Deposited cfg (run (.genesis x) steps : State A X T₁ T₂ S M) := by
  have hall : HoldStates (run (.genesis x) steps : State A X T₁ T₂ S M) ∧
      Counted (run (.genesis x) steps : State A X T₁ T₂ S M) ∧
      Deposited cfg (run (.genesis x) steps : State A X T₁ T₂ S M) := by
    apply effect_induction (P := fun s => HoldStates s ∧ Counted s ∧ Deposited cfg s)
      (.genesis x) ⟨.genesis x, .genesis x, .genesis hx⟩
    · rintro s c s' _ hrep ⟨hstates, hcounted, hdeposited⟩ heffect
      exact ⟨hstates.effect hrep heffect, hcounted.effect hrep hstates heffect,
        hdeposited.effect hcfg hrep hcounted heffect⟩
    · rintro s e ⟨hstates, hcounted, hdeposited⟩
      exact ⟨⟨hstates.evaluated, hstates.rows⟩, hcounted,
        hdeposited.of_domains_eq rfl (e.keeps s.chain .allowlist rfl)⟩
  exact hall.2.2

/-- In every run: an account's domain with an allowlist has a ticket that counts its rows, and no
other domain has one; an account has on hold the prices of its tickets; a count is never less than
the rows to be removed; and unregistering a domain releases the whole price of its ticket. -/
theorem allowlist_deposits (hcfg : cfg.Lawful) {x : X}
    (hx : ∀ y, (cfg.book x).held .allowlist y = 0) (steps : List (Step cfg {.allowlist})) :
    let s : State A X T₁ T₂ S M := run (.genesis x) steps
    (∀ d D, s.domains.lookup d = some D →
        (∀ owner, D.owner = .account owner → D.proofRules = .onlyAllowlisted →
          ∃ ticket, D.ticketAllowlist = some ⟨ticket, rowCount d s.submittersAllowlist⟩) ∧
        (D.owner = .manager ∨ D.proofRules ≠ .onlyAllowlisted → D.ticketAllowlist = none)) ∧
      (∀ y, (cfg.book s.chain).held .allowlist y = s.allowlistDeposits cfg y) ∧
      (∀ d D ticket submitters, s.domains.lookup d = some D → D.ticketAllowlist = some ticket →
        checkedSub ticket.count (saturatedInto u32Max (saturatedInto u64Max
          (removeRows D.id s.submittersAllowlist submitters).2)) ≠ none) ∧
      (∀ d D owner ticket origin s' info, s.domains.lookup d = some D →
        D.owner = .account owner → D.ticketAllowlist = some ticket →
        dispatch cfg (.unregisterDomain origin d) s = .ok (s', info) →
        cfg.considerationAllowList.price ⟨ticket.count, 0⟩ ≤
            (cfg.book s.chain).held .allowlist owner ∧
          cfg.book s'.chain =
            (cfg.book (dropTicket cfg.considerationDomain (some owner) D.ticketDomain
              s.chain)).release .allowlist owner
                (cfg.considerationAllowList.price ⟨ticket.count, 0⟩)) := by
  intro s
  have hs : Reachable cfg _ s := ⟨x, steps, rfl⟩
  have hrep : Represented s := hs.represented
  have hcounted : Counted s := hs.counted
  have hdeposited : Deposited cfg s := deposited_run hcfg hx steps
  refine ⟨?_, hdeposited.held, ?_, ?_⟩
  · intro d D hlookup
    exact ⟨(hcounted d D hlookup).owned, (hcounted d D hlookup).free⟩
  · intro d D ticket submitters hlookup hticket
    obtain ⟨-, -, hcount⟩ := (hcounted d D hlookup).of_ticket hticket
    rw [hrep.id_eq d D hlookup, hcount]
    exact decrease_recount_ne_none d s.submittersAllowlist submitters
  · intro d D owner ticket origin s' info hlookup howner hticket hok
    have hdeposit := hdeposited.deposit_le hlookup owner
    rw [allowlistDeposit_of_ticket (hcounted d D hlookup) howner hticket, if_pos rfl] at hdeposit
    refine ⟨hdeposit, ?_⟩
    cases effect_of_dispatch hok with
    | unregistered _ hlookup' hhandle =>
        rw [hlookup] at hlookup'
        cases hlookup'
        have hpayer : D.owner.account? = some owner := by rw [howner, User.account?]
        have hdrop := dropTicket_of_ticket hcfg (hdeposited.paid d D hlookup) howner hticket
          (x := dropTicket cfg.considerationDomain D.owner.account? D.ticketDomain s.chain)
          (by rwa [dropTicket_held_of_ne hcfg.domain (by decide)])
        rw [← hpayer, ← hdrop]
        simp only [payer_eq hhandle]

/-- Account `5` registers a domain with an allowlist, allows `8` twice and `9`, and removes `9` and
an account that is not there. -/
def sampleRows : List (Step sampleConfig {.allowlist}) :=
  [.call (.registerDomain (.signed 5) 2 none .untrusted .onlyAllowlisted ⟨.none, 10, 4⟩ none),
    .call (.allowlistProofSubmitters (.signed 5) 0 ⟨[8, 8, 9], by decide⟩),
    .call (.removeProofSubmitters .root 0 ⟨[9, 10], by decide⟩)]

theorem allowlist_deposits_sample :
    let s : State ℕ (Book ℕ HoldReason) ℕ ℕ 4 2 := run (.genesis sampleBook) sampleRows
    rowCount 0 s.submittersAllowlist = 1 ∧ s.allowlistDeposits sampleConfig 5 = 2 ∧
      ∀ y, (sampleConfig.book s.chain).held .allowlist y = s.allowlistDeposits sampleConfig y :=
  ⟨by decide, by decide,
    (allowlist_deposits sampleConfig_lawful (x := sampleBook) (fun _ => rfl) sampleRows).2.1⟩

end ZkVerify.Aggregate
