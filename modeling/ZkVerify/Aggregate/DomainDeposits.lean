import ZkVerify.Frame.Backed
import ZkVerify.Aggregate.Deposits
import ZkVerify.Aggregate.Lifecycle

/-!
# The deposits for domains

An account that registers a domain pays for the storage of the largest domain with these sizes.
The size is computed once, from the arguments of the call, and only the ticket is stored.
`Priced` says that the ticket still is the price of what is stored: the sizes and the destination of
a domain never change.  The balance an account has on hold for domains is the sum of its tickets, so
that unregistering a domain pays its deposit back, all of it and nothing else.
-/

namespace ZkVerify.Aggregate

open Frame DomainEntry

variable {A X T₁ T₂ : Type} {S M : ℕ} [DecidableEq A] {cfg : Config A X T₁ T₂}
  {s s' : State A X T₁ T₂ S M} {c : Call A}

/-! ## One domain -/

namespace DomainEntry

/-- What is paid for a domain, by the sizes and the destination that are stored. -/
def storagePrice (cfg : Config A X T₁ T₂) (D : DomainEntry A T₁ T₂ S M) : ℕ :=
  cfg.considerationDomain.price ⟨1, cfg.encodedSizes.computeDomain S M D.maxAggregationSize
    D.publishQueueSize D.delivery.data.destination⟩

/-- A domain of an account has a ticket for what is stored, and a domain of the manager has none. -/
structure Priced (cfg : Config A X T₁ T₂) (D : DomainEntry A T₁ T₂ S M) : Prop where
  owned : ∀ owner, D.owner = .account owner →
    ∃ t, D.ticketDomain = some t ∧ cfg.considerationDomain.amount t = D.storagePrice cfg
  free : D.owner = .manager → D.ticketDomain = none

/-- What `y` has on hold for the domain. -/
def domainDeposit (cfg : Config A X T₁ T₂) (y : A) (D : DomainEntry A T₁ T₂ S M) : ℕ :=
  if D.owner = .account y then D.storagePrice cfg else 0

variable {D D' : DomainEntry A T₁ T₂ S M}

omit [DecidableEq A] in
theorem Priced.congr (h : D.Priced cfg) (howner : D'.owner = D.owner)
    (hticket : D'.ticketDomain = D.ticketDomain)
    (hprice : D'.storagePrice cfg = D.storagePrice cfg) : D'.Priced cfg where
  owned := by
    rw [howner, hticket, hprice]
    exact h.owned
  free := by
    rw [howner, hticket]
    exact h.free

omit [DecidableEq A] in
theorem Moved.storagePrice (h : D.Moved D') : D'.storagePrice cfg = D.storagePrice cfg := by
  rw [DomainEntry.storagePrice, h.maxAggregationSize, h.publishQueueSize, h.delivery,
    DomainEntry.storagePrice]

theorem domainDeposit_congr (howner : D'.owner = D.owner)
    (hprice : D'.storagePrice cfg = D.storagePrice cfg) (y : A) :
    D'.domainDeposit cfg y = D.domainDeposit cfg y := by
  rw [domainDeposit, howner, hprice, domainDeposit]

theorem Moved.domainDeposit (h : D.Moved D') (y : A) :
    D'.domainDeposit cfg y = D.domainDeposit cfg y :=
  domainDeposit_congr h.owner h.storagePrice y

theorem domainDeposit_of_account {owner : A} (howner : D.owner = .account owner) (y : A) :
    D.domainDeposit cfg y = if y = owner then D.storagePrice cfg else 0 := by
  simp only [domainDeposit, howner, User.account.injEq, eq_comm (a := y)]

end DomainEntry

/-- What `y` has on hold for all its domains. -/
def State.domainDeposits (cfg : Config A X T₁ T₂) (y : A) (s : State A X T₁ T₂ S M) : ℕ :=
  s.domains.total fun _ D => D.domainDeposit cfg y

/-! ## Tickets -/

/-- The deposit for a new domain. -/
theorem newTicketDomain_spec (hcfg : cfg.Lawful) {caller : User A} {size queue : ℕ}
    {destination : Destination} {ticket : Option T₁} {x x' : X}
    (h : newTicketDomain cfg S M caller size queue destination x = .ok (ticket, x')) :
    (caller = .manager ∧ ticket = none ∧ x' = x) ∨
      ∃ a t, caller = .account a ∧ ticket = some t ∧
        cfg.considerationDomain.amount t = cfg.considerationDomain.price
          ⟨1, cfg.encodedSizes.computeDomain S M size queue destination⟩ ∧
        cfg.book x' = (cfg.book x).hold .domain a (cfg.considerationDomain.price
          ⟨1, cfg.encodedSizes.computeDomain S M size queue destination⟩) := by
  unfold newTicketDomain at h
  cases caller with
  | manager =>
      cases h
      exact .inl ⟨rfl, rfl, rfl⟩
  | account a =>
      obtain ⟨⟨t, x₁⟩, hnew, h⟩ := seq_eq_ok.mp h
      cases h
      obtain ⟨hamount, hbook⟩ := hcfg.domain.new_ok hnew
      exact .inr ⟨a, t, rfl, rfl, hamount, hbook⟩

/-- Giving back the ticket of a domain releases its whole price. -/
theorem dropTicketDomain_spec (hcfg : cfg.Lawful) {D : DomainEntry A T₁ T₂ S M} {owner : A} {x : X}
    (hpriced : D.Priced cfg) (howner : D.owner = .account owner)
    (hheld : D.storagePrice cfg ≤ (cfg.book x).held .domain owner) :
    cfg.book (dropTicket cfg.considerationDomain D.owner.account? D.ticketDomain x) =
      (cfg.book x).release .domain owner (D.storagePrice cfg) := by
  obtain ⟨t, hticket, hamount⟩ := hpriced.owned owner howner
  obtain ⟨x', hdrop⟩ := hcfg.domain.drop_succeeds (hamount.trans_le hheld)
  have hbook := hcfg.domain.drop_ok hdrop
  rw [hamount, min_eq_left hheld] at hbook
  rw [howner, hticket]
  simp only [User.account?, dropTicket, hdrop]
  exact hbook

/-- Giving back the tickets of a domain lowers the hold for domains by its deposit. -/
theorem dropTickets_held_domain (hcfg : cfg.Lawful) {D : DomainEntry A T₁ T₂ S M} {x : X}
    (hpriced : D.Priced cfg)
    (hheld : ∀ y, D.domainDeposit cfg y ≤ (cfg.book x).held .domain y) (y : A) :
    (cfg.book (dropTicket cfg.considerationAllowList D.owner.account?
        (D.ticketAllowlist.map CountableTicket.ticket)
        (dropTicket cfg.considerationDomain D.owner.account? D.ticketDomain x))).held .domain y +
      D.domainDeposit cfg y = (cfg.book x).held .domain y := by
  rw [dropTicket_held_of_ne hcfg.allowlist (by decide)]
  cases howner : D.owner with
  | manager => simp [dropTicket, User.account?, domainDeposit, howner]
  | account owner =>
      have hcover := hheld owner
      rw [domainDeposit_of_account howner, if_pos rfl] at hcover
      rw [← howner, dropTicketDomain_spec hcfg hpriced howner hcover,
        domainDeposit_of_account howner, Book.held_release]
      by_cases hy : y = owner
      · subst hy
        simp only [and_self, if_true]
        omega
      · simp [hy]

/-! ## Runs -/

/-- Every ticket is the price of what is stored, and every account has on hold what its domains
cost. -/
structure DomainsPaid (cfg : Config A X T₁ T₂) (s : State A X T₁ T₂ S M) : Prop where
  priced : ∀ d D, s.domains.lookup d = some D → D.Priced cfg
  backed : Backed ((cfg.book s.chain).held .domain) (fun _ => 0) s.domains
    fun y _ D => D.domainDeposit cfg y

namespace DomainsPaid

/-- The tickets stay the price of what is stored. -/
private theorem priced_effect (hcfg : cfg.Lawful) (hrep : Represented s)
    (h : ∀ d D, s.domains.lookup d = some D → D.Priced cfg) (heffect : Effect cfg s c s') :
    ∀ d D, s'.domains.lookup d = some D → D.Priced cfg := by
  intro d D' hlookup'
  cases stored_of_effect hrep heffect hlookup' with
  | kept D hlookup hupdated =>
      have hpriced := h d D hlookup
      cases hupdated with
      | moved hmoved => exact hpriced.congr hmoved.owner hmoved.ticketDomain hmoved.storagePrice
      | repriced _ _ _ _ _ hdelivery =>
          subst hdelivery
          exact hpriced.congr rfl rfl rfl
      | recounted ticket hmoved =>
          exact hpriced.congr hmoved.owner hmoved.ticketDomain hmoved.storagePrice
  | registered _ _ _ hticket hcreate =>
      obtain ⟨-, rfl⟩ := tryCreate_ok hcreate
      rcases newTicketDomain_spec hcfg hticket with
        ⟨rfl, rfl, -⟩ | ⟨a, t, rfl, rfl, hamount, -⟩
      · exact ⟨fun owner howner => (by cases howner), fun _ => rfl⟩
      · exact ⟨fun owner _ => ⟨t, rfl, hamount⟩, fun howner => (by cases howner)⟩

/-- Every successful call keeps the deposits in order. -/
theorem effect (hcfg : cfg.Lawful) (hrep : Represented s) (h : DomainsPaid cfg s)
    (heffect : Effect cfg s c s') : DomainsPaid cfg s' := by
  refine ⟨priced_effect hcfg hrep h.priced heffect, ?_⟩
  cases heffect with
  | initialized => exact h.backed
  | skipped _ hchain =>
      refine h.backed.congr fun y => ?_
      rcases hchain with rfl | ⟨D, a, e, hreserve⟩
      · rfl
      · rw [reserveCurrency_error hcfg.currency hreserve]
  | accepted hlookup hready hroom _ hreserve haccept =>
      have hmoved := acceptStatement_moved (hrep.wf _ _ hlookup) hready hroom haccept
      refine h.backed.replace_same hlookup (fun y => hmoved.domainDeposit y) fun y => ?_
      rw [reserveCurrency_ok hcfg.currency hreserve, holdReserve,
        Book.held_hold_of_ne _ (by decide), Book.held_hold_of_ne _ (by decide)]
  | aggregated _ hlookup htake =>
      have hmoved := (takeAggregation_moved (hrep.wf _ _ hlookup) htake).trans
        (handleHoldState_moved _ s.submittersAllowlist)
      exact h.backed.replace_same hlookup (fun y => hmoved.domainDeposit y) fun y =>
        settleStatements_held_of_ne hcfg.currency (by decide) (by decide) _ _ y _ _
  | @registered _ _ _ _ _ _ _ caller _ _ _ x x' D _ _ _ hdomain hallowlist hcreate =>
      obtain ⟨-, rfl⟩ := tryCreate_ok hcreate
      have hnone : s.nextDomainId ∉ s.domains := by
        intro hmem
        obtain ⟨D, hlookup⟩ := Finmap.mem_iff.mp hmem
        exact absurd (hrep.id_lt _ D hlookup) (lt_irrefl _)
      refine h.backed.insert hnone fun y => ?_
      rw [newTicketAllowlist_held_of_ne hcfg (by decide) hallowlist]
      rcases newTicketDomain_spec hcfg hdomain with ⟨rfl, -, rfl⟩ | ⟨a, t, rfl, -, -, hbook⟩
      · simp [domainDeposit]
      · rw [hbook, domainDeposit_of_account rfl, Book.held_hold]
        by_cases hy : y = a <;> simp [hy, storagePrice]
  | held _ hlookup => exact h.backed.replace_same hlookup (fun _ => rfl) fun _ => rfl
  | unregistered _ hlookup hhandle =>
      refine h.backed.erase hlookup fun y => ?_
      rw [payer_eq hhandle]
      exact dropTickets_held_domain hcfg (h.priced _ _ hlookup) (h.backed.share_le hlookup) y
  | feeSet _ hlookup => exact h.backed.replace_same hlookup (fun _ => rfl) fun _ => rfl
  | allowlisted _ hlookup _ _ _ hcount =>
      refine h.backed.replace_same hlookup (fun y => ?_)
        (changeFootprintCount_held_of_ne hcfg (by decide) hcount)
      rw [changeFootprintCount_frame hcount]
      rfl
  | submittersRemoved _ hlookup _ _ _ hcount =>
      refine h.backed.replace_same hlookup (fun y => ?_)
        (changeFootprintCount_held_of_ne hcfg (by decide) hcount)
      rw [(handleHoldState_moved _ _).domainDeposit, changeFootprintCount_frame hcount]
      rfl

theorem genesis {x : X} (hx : ∀ y, (cfg.book x).held .domain y = 0) :
    DomainsPaid cfg (.genesis x : State A X T₁ T₂ S M) := by
  refine ⟨fun d D hlookup => by simp [State.genesis] at hlookup, fun y => ?_⟩
  simp [State.genesis, hx]

end DomainsPaid

/-- After every run in which nobody else touches the holds for domains, the deposits are in
order. -/
theorem domainsPaid_run (hcfg : cfg.Lawful) {x : X} (hx : ∀ y, (cfg.book x).held .domain y = 0)
    {kept : Set HoldReason} (hkept : .domain ∈ kept) (steps : List (Step cfg kept)) :
    DomainsPaid cfg (run (.genesis x) steps : State A X T₁ T₂ S M) := by
  apply effect_induction (.genesis x) (.genesis hx)
  · intro s c s' _ hrep h heffect
    exact h.effect hcfg hrep heffect
  · intro s e h
    exact ⟨h.priced, h.backed.congr (e.keeps s.chain .domain hkept)⟩

/-- The reasons under which the owner of a domain pays. -/
def depositReasons : Set HoldReason := {.domain, .allowlist}

/-- In every run in which nobody else touches the deposits: an account has on hold the price of the
storage of each of its domains, as it is stored now; and whoever unregisters a domain, its owner
gets the price of the storage and the price of the allowlist back, and no other balance changes. -/
theorem domain_deposits (hcfg : cfg.Lawful) {x : X}
    (hx : ∀ r ∈ depositReasons, ∀ y, (cfg.book x).held r y = 0)
    (steps : List (Step cfg depositReasons)) :
    let s : State A X T₁ T₂ S M := run (.genesis x) steps
    (∀ y, (cfg.book s.chain).held .domain y = s.domainDeposits cfg y) ∧
      (∀ d D, s.domains.lookup d = some D →
        ∀ origin s' info, dispatch cfg (.unregisterDomain origin d) s = .ok (s', info) →
          (∀ owner, D.owner = .account owner →
            cfg.book s'.chain = ((cfg.book s.chain).release .domain owner
              (D.storagePrice cfg)).release .allowlist owner (D.allowlistDeposit cfg owner)) ∧
          (D.owner = .manager → cfg.book s'.chain = cfg.book s.chain)) := by
  intro s
  have hs : Reachable cfg _ s := ⟨x, steps, rfl⟩
  have hpaid : DomainsPaid cfg s :=
    domainsPaid_run hcfg (hx .domain (.inl rfl)) (.inl rfl) steps
  have hdeposited : Deposited cfg s := by
    have hrun := deposited_run (S := S) (M := M) hcfg (hx .allowlist (.inr rfl))
      (steps.map (Step.weaken (Set.singleton_subset_iff.mpr (.inr rfl))))
    rwa [run_weaken] at hrun
  refine ⟨fun y => (hpaid.backed y).trans (Nat.zero_add _), ?_⟩
  intro d D hlookup origin s' info hok
  cases effect_of_dispatch hok with
  | unregistered _ hlookup' hhandle =>
      rw [hlookup] at hlookup'
      cases hlookup'
      dsimp only
      rw [payer_eq hhandle]
      refine ⟨fun owner howner => ?_, fun howner => ?_⟩
      · have hcover := hpaid.backed.share_le hlookup owner
        rw [domainDeposit_of_account howner, if_pos rfl] at hcover
        have hfirst := dropTicketDomain_spec hcfg (hpaid.priced d D hlookup) howner hcover
        cases hticket : D.ticketAllowlist with
        | none =>
            rw [allowlistDeposit_of_none hticket, Book.release_zero, ← hfirst, howner]
            rfl
        | some ticket =>
            have hmatches := hs.counted d D hlookup
            have hcount := hdeposited.deposit_le hlookup owner
            rw [allowlistDeposit_of_ticket hmatches howner hticket, if_pos rfl] at hcount ⊢
            rw [← hticket, dropTicket_of_ticket hcfg (hdeposited.paid d D hlookup) howner hticket,
              hfirst]
            rwa [dropTicket_held_of_ne hcfg.domain (by decide)]
      · rw [howner]
        rfl

/-- Account `5` registers a domain with an allowlist and allows `8`. -/
def sampleDomain : List (Step sampleConfig depositReasons) :=
  [.call (.registerDomain (.signed 5) 2 none .untrusted .onlyAllowlisted ⟨.none, 10, 4⟩ none),
    .call (.allowlistProofSubmitters (.signed 5) 0 ⟨[8], by decide⟩),
    .call (.removeProofSubmitters (.signed 5) 0 ⟨[8], by decide⟩),
    .call (.holdDomain (.signed 5) 0)]

theorem domain_deposits_sample :
    let s : State ℕ (Book ℕ HoldReason) ℕ ℕ 4 2 := run (.genesis sampleBook) sampleDomain
    s.domainDeposits sampleConfig 5 = 5 ∧
      ∀ y, (sampleConfig.book s.chain).held .domain y = s.domainDeposits sampleConfig y :=
  ⟨by decide,
    (domain_deposits sampleConfig_lawful (x := sampleBook) (fun _ _ _ => rfl) sampleDomain).1⟩

end ZkVerify.Aggregate
