import ZkVerify.Aggregate.Funds

/-!
# The fees of pending statements stay on hold

`State.due r y` is what the account `y` has to have on hold under the reason `r` for
its pending statements: a sum over the statements of the next aggregation and of the
queue, over all domains.  `Solvent` says that no account has less than that on hold.

A statement that is accepted raises both sides by its reserve; a publication lowers
the left side by the reserves of the aggregation and the right side by at most as
much, because every payment is limited by its amount.
-/

namespace ZkVerify.Aggregate

open Frame DomainEntry

variable {A X T₁ T₂ : Type} {S M : ℕ} [DecidableEq A]

/-! ## What is due -/

/-- The part of a reserve that is held under a reason. -/
def Reserve.amount (reserve : Reserve) : HoldReason → ℕ
  | .aggregation => reserve.aggregate
  | .delivery => reserve.delivery
  | .domain | .allowlist => 0

/-- What `y` has to have on hold for a statement. -/
def StatementEntry.due (r : HoldReason) (y : A) (entry : StatementEntry A) : ℕ :=
  if entry.account = y then entry.reserve.amount r else 0

/-- What `y` has to have on hold for the statements of an aggregation. -/
def AggregationEntry.due (r : HoldReason) (y : A) (aggregation : AggregationEntry A S) : ℕ :=
  (aggregation.statements.toList.map (StatementEntry.due r y)).sum

/-- What `y` has to have on hold for the pending statements of a domain. -/
def DomainEntry.due (r : HoldReason) (y : A) (D : DomainEntry A T₁ T₂ S M) : ℕ :=
  D.next.due r y + D.shouldPublish.toFinmap.total fun _ aggregation => aggregation.due r y

/-- What `y` has to have on hold for all pending statements. -/
def State.due (r : HoldReason) (y : A) (s : State A X T₁ T₂ S M) : ℕ :=
  s.domains.total fun _ D => D.due r y

variable {cfg : Config A X T₁ T₂} {s s' : State A X T₁ T₂ S M} {c : Call A} {r : HoldReason}
  {y : A}

/-- What is due for a statement, by reason. -/
theorem StatementEntry.due_eq (entry : StatementEntry A) (r : HoldReason) (y : A) :
    entry.due r y =
      (if r = .aggregation ∧ y = entry.account then entry.reserve.aggregate else 0) +
        if r = .delivery ∧ y = entry.account then entry.reserve.delivery else 0 := by
  unfold StatementEntry.due
  simp only [eq_comm (a := y)]
  by_cases hy : entry.account = y <;> cases r <;> simp [hy, Reserve.amount]

theorem AggregationEntry.due_of_empty {aggregation : AggregationEntry A S}
    (h : aggregation.statements.toList = []) : aggregation.due r y = 0 := by
  rw [AggregationEntry.due, h, List.map_nil, List.sum_nil]

/-- Only the aggregations of a domain matter. -/
theorem DomainEntry.due_congr {D D' : DomainEntry A T₁ T₂ S M} (hnext : D'.next = D.next)
    (hqueue : D'.shouldPublish = D.shouldPublish) : D'.due r y = D.due r y := by
  rw [DomainEntry.due, hnext, hqueue, DomainEntry.due]

/-- Taking an aggregation takes what is due for it. -/
theorem takeAggregation_due {D D' : DomainEntry A T₁ T₂ S M} {a : ℕ}
    {aggregation : AggregationEntry A S} {popped : List Event} (hwf : D.WF)
    (h : D.takeAggregation a = .ok (some aggregation, D', popped)) :
    D'.due r y + aggregation.due r y = D.due r y := by
  rcases takeAggregation_ok hwf h with ⟨-, -, rfl, rfl, -⟩ | ⟨-, hget, rfl, -⟩
  · have hempty : D.advance.next.due r y = 0 :=
      AggregationEntry.due_of_empty (advance_next_statements D)
    rw [DomainEntry.due, hempty, advance_shouldPublish, DomainEntry.due]
    omega
  · have hlookup : D.shouldPublish.toFinmap.lookup a = some aggregation := hget
    have htotal := Finmap.total_erase_of_lookup
      (f := fun _ aggregation => AggregationEntry.due r y aggregation) hlookup
    simp only [DomainEntry.due, BoundedMap.toFinmap_remove]
    omega

/-- Accepting a statement adds what is due for it. -/
theorem acceptStatement_due {D D' : DomainEntry A T₁ T₂ S M} {rows : Finset (ℕ × A)} {account : A}
    {reserve : Reserve} {statement : H256} {events : List Event} (hwf : D.WF)
    (hready : D.state = .ready) (hroom : D.canAddStatement = true)
    (h : D.acceptStatement rows account reserve statement = .ok (D', events)) :
    D'.due r y = D.due r y + StatementEntry.due r y ⟨account, reserve, statement⟩ := by
  obtain ⟨next, -, -, hlist, hcases⟩ := acceptStatement_ok hwf hready hroom h
  have hnext : next.due r y =
      D.next.due r y + StatementEntry.due r y ⟨account, reserve, statement⟩ := by
    simp [AggregationEntry.due, hlist]
  rcases hcases with ⟨-, rfl, -⟩ | ⟨-, queue, hqueue, rfl, -⟩
  · simp only [DomainEntry.due, hnext]
    omega
  · -- The next aggregation moves to a key of the queue that was free.
    have hnone : D.shouldPublish.toFinmap.lookup D.next.id = none := hwf.get_next_id
    have htotal := Finmap.total_insert_of_notMem
      (f := fun _ aggregation => AggregationEntry.due r y aggregation) next
      (Finmap.lookup_eq_none.mp hnone)
    rw [hnext] at htotal
    have hempty : (D.enqueue next queue).next.due r y = 0 :=
      AggregationEntry.due_of_empty (advance_next_statements _)
    have hsame : (D.enqueue next queue).shouldPublish.toFinmap =
        D.shouldPublish.toFinmap.insert D.next.id next := hqueue
    rw [DomainEntry.due, hempty, hsame, DomainEntry.due]
    omega

/-! ## What is on hold -/

/-- Reserving the fees of a statement holds what is due for it. -/
theorem holdReserve_held (b : Book A HoldReason) (account : A) (reserve : Reserve)
    (statement : H256) :
    (holdReserve b account reserve).held r y =
      b.held r y + StatementEntry.due r y ⟨account, reserve, statement⟩ := by
  by_cases hy : y = account
  · subst hy
    cases r <;> simp [holdReserve, StatementEntry.due, Reserve.amount]
  · have hy' : ¬ account = y := fun h => hy h.symm
    simp [holdReserve, StatementEntry.due, hy, hy']

/-- Settling a statement takes at most what is due for it. -/
theorem settleStatement_held (hF : cfg.hold.Lawful) (aggregator : User A) (deliveryOwner : A)
    (x : X) (entry : StatementEntry A) :
    (cfg.book x).held r y ≤
      (cfg.book (settleStatement cfg aggregator deliveryOwner x entry)).held r y +
        entry.due r y := by
  unfold settleStatement
  dsimp only
  rw [handleHeldFunds_book hF, handleHeldFunds_book hF]
  set b := cfg.book x
  set b₁ := settleBook cfg.hold.existentialDeposit .aggregation entry.account aggregator.account?
    entry.reserve.aggregate b
  have hfirst := held_le_settleBook cfg.hold.existentialDeposit .aggregation r entry.account y
    aggregator.account? entry.reserve.aggregate b
  have hsecond := held_le_settleBook cfg.hold.existentialDeposit .delivery r entry.account y
    (some deliveryOwner) entry.reserve.delivery b₁
  calc b.held r y
      ≤ b₁.held r y +
          if r = .aggregation ∧ y = entry.account then entry.reserve.aggregate else 0 := hfirst
    _ ≤ _ := by
        rw [entry.due_eq]
        omega

/-- Settling a list of statements takes at most what is due for them. -/
theorem settleStatements_held (hF : cfg.hold.Lawful) (aggregator : User A) (deliveryOwner : A)
    (entries : List (StatementEntry A)) (x : X) :
    (cfg.book x).held r y ≤
      (cfg.book (entries.foldl (settleStatement cfg aggregator deliveryOwner) x)).held r y +
        (entries.map (StatementEntry.due r y)).sum := by
  induction entries generalizing x with
  | nil => simp
  | cons entry entries ih =>
      have hone := settleStatement_held (r := r) (y := y) hF aggregator deliveryOwner x entry
      have hrest := ih (settleStatement cfg aggregator deliveryOwner x entry)
      rw [List.foldl_cons, List.map_cons, List.sum_cons]
      omega

/-! ## The invariant -/

/-- The reasons for which the fees of statements are held. -/
def feeReasons : Set HoldReason := {.aggregation, .delivery}

theorem feeReasons_ne_deposit (hr : r ∈ feeReasons) : r ≠ .domain ∧ r ≠ .allowlist := by
  rcases hr with rfl | rfl <;> exact ⟨by decide, by decide⟩

/-- No fee of a statement is held for another reason. -/
theorem StatementEntry.due_of_notMem (hr : r ∉ feeReasons) (entry : StatementEntry A) :
    entry.due r y = 0 := by
  have hne : r ≠ .aggregation ∧ r ≠ .delivery := not_or.mp hr
  rw [entry.due_eq, if_neg (fun h => hne.1 h.1), if_neg (fun h => hne.2 h.1)]

/-- Every account has on hold what is due. -/
def Solvent (cfg : Config A X T₁ T₂) (s : State A X T₁ T₂ S M) : Prop :=
  ∀ r ∈ feeReasons, ∀ y, s.due r y ≤ (cfg.book s.chain).held r y

/-- How replacing a stored domain changes what is due. -/
theorem State.due_replace {d : ℕ} {D D' : DomainEntry A T₁ T₂ S M}
    (hlookup : s.domains.lookup d = some D) (hdomains : s'.domains = s.domains.insert d D') :
    s'.due r y + D.due r y = s.due r y + D'.due r y := by
  rw [State.due, hdomains]
  exact Finmap.total_insert_of_lookup D' hlookup

/-- Nothing is due for a domain without statements. -/
theorem State.due_insert_le {d : ℕ} {D : DomainEntry A T₁ T₂ S M} (hD : D.due r y = 0)
    (hdomains : s'.domains = s.domains.insert d D) : s'.due r y ≤ s.due r y := by
  have htotal := Finmap.total_insert (fun _ D => DomainEntry.due r y D) s.domains d D
  rw [State.due, hdomains, State.due]
  omega

theorem State.due_erase_le {d : ℕ} (hdomains : s'.domains = s.domains.erase d) :
    s'.due r y ≤ s.due r y := by
  have htotal := Finmap.total_erase (fun _ D => DomainEntry.due r y D) s.domains d
  rw [State.due, hdomains, State.due]
  omega

namespace Solvent

/-- Nothing more is due and nothing less is on hold. -/
theorem of_le (h : Solvent cfg s) (hdue : ∀ r y, s'.due r y ≤ s.due r y)
    (hheld : ∀ r ∈ feeReasons, ∀ y,
      (cfg.book s'.chain).held r y = (cfg.book s.chain).held r y) : Solvent cfg s' := by
  intro r hr y
  calc s'.due r y
      ≤ s.due r y := hdue r y
    _ ≤ (cfg.book s.chain).held r y := h r hr y
    _ = (cfg.book s'.chain).held r y := (hheld r hr y).symm

/-- A stored domain changes, and what is due for it changes no more than what is on hold. -/
theorem replace {d : ℕ} {D D' : DomainEntry A T₁ T₂ S M} (h : Solvent cfg s)
    (hlookup : s.domains.lookup d = some D) (hdomains : s'.domains = s.domains.insert d D')
    (hbalance : ∀ r ∈ feeReasons, ∀ y, D'.due r y + (cfg.book s.chain).held r y ≤
      D.due r y + (cfg.book s'.chain).held r y) : Solvent cfg s' := by
  intro r hr y
  have hreplace := State.due_replace (r := r) (y := y) hlookup hdomains
  have hsolvent := h r hr y
  have hchange := hbalance r hr y
  omega

/-- A stored domain changes, but neither its aggregations nor the balances. -/
theorem replace_same {d : ℕ} {D D' : DomainEntry A T₁ T₂ S M} (h : Solvent cfg s)
    (hlookup : s.domains.lookup d = some D) (hdomains : s'.domains = s.domains.insert d D')
    (hnext : D'.next = D.next) (hqueue : D'.shouldPublish = D.shouldPublish)
    (hheld : ∀ r ∈ feeReasons, ∀ y,
      (cfg.book s'.chain).held r y = (cfg.book s.chain).held r y) : Solvent cfg s' := by
  refine h.replace hlookup hdomains fun r hr y => ?_
  rw [due_congr hnext hqueue, hheld r hr y]

/-- Every successful call keeps the accounts solvent. -/
theorem effect (hcfg : cfg.Lawful) (hrep : Represented s) (h : Solvent cfg s)
    (heffect : Effect cfg s c s') : Solvent cfg s' := by
  cases heffect with
  | initialized => exact h
  | skipped _ hchain =>
      refine h.of_le (fun _ _ => le_rfl) fun r _ y => ?_
      rcases hchain with rfl | ⟨D, a, e, hreserve⟩
      · rfl
      · show (cfg.book _).held r y = _
        rw [reserveCurrency_error hcfg.currency hreserve]
  | @accepted account _ statement _ _ reserve _ x hlookup hready hroom _ hreserve haccept =>
      -- What becomes due was put on hold just before.
      refine h.replace hlookup rfl fun r _ y => ?_
      have hdue := acceptStatement_due (r := r) (y := y) (hrep.wf _ _ hlookup) hready hroom haccept
      have hheld := holdReserve_held (r := r) (y := y) (cfg.book s.chain) account reserve statement
      rw [← reserveCurrency_ok hcfg.currency hreserve] at hheld
      show _ + _ ≤ _ + (cfg.book x).held r y
      omega
  | @aggregated _ _ _ aggregator _ D' aggregation _ _ hlookup htake =>
      -- No more leaves the hold than is due for the aggregation.
      refine h.replace hlookup rfl fun r _ y => ?_
      have hdue := takeAggregation_due (r := r) (y := y) (hrep.wf _ _ hlookup) htake
      have hheld := settleStatements_held (r := r) (y := y) hcfg.currency aggregator
        D'.delivery.owner aggregation.statements.toList s.chain
      have hsame : (D'.handleHoldState s.submittersAllowlist).1.due r y = D'.due r y := by
        rw [handleHoldState_frame]
        rfl
      rw [hsame, ← hdue, Nat.add_assoc, Nat.add_comm (aggregation.due r y)]
      exact Nat.add_le_add_left hheld _
  | registered _ _ _ hdomain hallowlist hcreate =>
      obtain ⟨-, rfl⟩ := tryCreate_ok hcreate
      refine h.of_le (fun r y => State.due_insert_le ?_ rfl) fun r hr y => ?_
      · simp [DomainEntry.due, AggregationEntry.due]
      · -- The deposits are held for other reasons.
        have hne := feeReasons_ne_deposit hr
        exact (newTicketAllowlist_held_of_ne hcfg hne.2 hallowlist y).trans
          (newTicketDomain_held_of_ne hcfg hne.1 hdomain y)
  | held _ hlookup => exact h.replace_same hlookup rfl rfl rfl fun _ _ _ => rfl
  | unregistered _ hlookup =>
      refine h.of_le (fun r y => State.due_erase_le rfl) fun r hr y => ?_
      have hne := feeReasons_ne_deposit hr
      exact (dropTicket_held_of_ne hcfg.allowlist hne.2 _ _ y).trans
        (dropTicket_held_of_ne hcfg.domain hne.1 _ _ y)
  | feeSet _ hlookup => exact h.replace_same hlookup rfl rfl rfl fun _ _ _ => rfl
  | allowlisted _ hlookup _ _ _ hcount =>
      refine h.replace_same hlookup rfl ?_ ?_ fun r hr y =>
        changeFootprintCount_held_of_ne hcfg (feeReasons_ne_deposit hr).2 hcount y
      all_goals rw [changeFootprintCount_frame hcount]
  | submittersRemoved _ hlookup _ _ _ hcount =>
      refine h.replace_same hlookup rfl ?_ ?_ fun r hr y =>
        changeFootprintCount_held_of_ne hcfg (feeReasons_ne_deposit hr).2 hcount y
      all_goals rw [handleHoldState_frame, changeFootprintCount_frame hcount]

theorem genesis (x : X) : Solvent cfg (.genesis x : State A X T₁ T₂ S M) := by
  intro r _ y
  simp [State.due, State.genesis]

end Solvent

/-- After every run in which nobody else touches the fees on hold, the accounts are solvent. -/
theorem solvent_run (hcfg : cfg.Lawful) (hrep : Represented s) (h : Solvent cfg s)
    (steps : List (Step cfg feeReasons)) : Solvent cfg (run s steps) := by
  apply effect_induction hrep h
  · intro s c s' _ hrep h heffect
    exact h.effect hcfg hrep heffect
  · intro s e h
    exact h.of_le (fun _ _ => le_rfl) fun r hr y => e.keeps s.chain r hr y

theorem Reachable.solvent (hcfg : cfg.Lawful) (h : Reachable cfg feeReasons s) :
    Solvent cfg s := by
  obtain ⟨x, steps, rfl⟩ := h
  exact solvent_run hcfg (Represented.genesis x) (Solvent.genesis x) steps

/-- In every run every account has on hold, under both reasons, at least the reserves of its
pending statements in all domains. -/
theorem aggregation_solvency (hcfg : cfg.Lawful) (x : X) (steps : List (Step cfg feeReasons))
    (y : A) :
    let s : State A X T₁ T₂ S M := run (.genesis x) steps
    s.due .aggregation y ≤ (cfg.book s.chain).held .aggregation y ∧
      s.due .delivery y ≤ (cfg.book s.chain).held .delivery y := by
  intro s
  have hsolvent : Solvent cfg s :=
    solvent_run hcfg (Represented.genesis x) (Solvent.genesis x) steps
  exact ⟨hsolvent .aggregation (.inl rfl) y, hsolvent .delivery (.inr rfl) y⟩

/-- Root registers a domain for aggregations of two statements, account `1` submits one, and then
somebody spends and freezes everything that is free. -/
def sampleSpending : List (Step sampleConfig feeReasons) :=
  [.call (.registerDomain .root 2 none .untrusted .untrusted ⟨.none, 10, 4⟩ (some 7)),
    .call (.onProofVerified (some 1) (some 0) (Vector.replicate 32 0)),
    .environment ⟨fun b => { b with free := fun _ => 0, frozen := fun _ => 1000 },
      fun _ _ _ _ => rfl⟩]

theorem aggregation_solvency_sample :
    let s : State ℕ (Book ℕ HoldReason) ℕ ℕ 4 2 := run (.genesis sampleBook) sampleSpending
    (s.due .aggregation 1 = 10 ∧ s.due .delivery 1 = 7) ∧
      s.due .aggregation 1 ≤ (sampleConfig.book s.chain).held .aggregation 1 ∧
      s.due .delivery 1 ≤ (sampleConfig.book s.chain).held .delivery 1 :=
  ⟨by decide, aggregation_solvency sampleConfig_lawful sampleBook sampleSpending 1⟩

end ZkVerify.Aggregate
