import ZkVerify.Aggregate.Callback

/-!
# When a proof is accepted

The callback `on_proof_verified` has no error result and nothing rolls it back, so it
has to be atomic by itself.  It checks the domain and the submitter before it touches a
balance, and when the second of its two holds fails it releases the first.

`DomainEntry.Admits` collects the conditions under which a proof is accepted.  If they hold,
one entry is appended to the pending statements of the domain and both fees are held;
otherwise the storage and all balances are as before.  `onProofVerified_all_or_nothing`
states this for every reachable state in which no domain misses its owner.
-/

namespace ZkVerify.Aggregate

open Frame DomainEntry

variable {A X T₁ T₂ : Type} {S M : ℕ}

/-! ## The fees of a statement -/

/-- The fees of one statement, as `reserve_currency` computes them. -/
def DomainEntry.feeReserve (cfg : Config A X T₁ T₂) (D : DomainEntry A T₁ T₂ S M) (x : X) :
    Reserve :=
  let estimated := estimatePublishAggregationFee cfg D.maxAggregationSize x
  { aggregate := saturatingAdd u128Max estimated ((cfg.computePublisherTip estimated).getD 0) /
      D.next.size
    delivery := D.delivery.totalFee / D.next.size }

/-- Both fees can be held, one after the other. -/
def CanHold (cfg : Config A X T₁ T₂) (account : A) (reserve : Reserve) (x : X) : Prop :=
  ∃ x₁ x₂, cfg.hold.hold .aggregation account reserve.aggregate x = .ok x₁ ∧
    cfg.hold.hold .delivery account reserve.delivery x₁ = .ok x₂

variable {cfg : Config A X T₁ T₂} {D : DomainEntry A T₁ T₂ S M} {account : A} {x x' : X}

/-- What is reserved are the fees of the statement, and they were held one after the other. -/
theorem reserveCurrency_reserve {reserve : Reserve}
    (h : D.reserveCurrency cfg account x = .ok (.ok reserve, x')) :
    reserve = D.feeReserve cfg x ∧ CanHold cfg account (D.feeReserve cfg x) x := by
  have hsize : D.next.size ≠ 0 := reserveCurrency_size h
  unfold reserveCurrency at h
  simp only [if_neg hsize] at h
  split at h
  · cases h
  · rename_i x₁ hfirst
    split at h
    · rename_i x₂ hsecond
      cases h
      exact ⟨rfl, x₁, x', hfirst, hsecond⟩
    · split at h <;> cases h

/-- If both fees can be held, they are reserved. -/
theorem reserveCurrency_of_canHold (hsize : D.next.size ≠ 0)
    (h : CanHold cfg account (D.feeReserve cfg x) x) :
    ∃ x', D.reserveCurrency cfg account x = .ok (.ok (D.feeReserve cfg x), x') := by
  obtain ⟨x₁, x₂, hfirst, hsecond⟩ := h
  refine ⟨x₂, ?_⟩
  simp only [feeReserve] at hfirst hsecond
  unfold reserveCurrency
  simp only [if_neg hsize, hfirst, hsecond]
  rfl

/-! ## The pending statements -/

namespace DomainEntry

/-- The statements that are pending in the aggregation with the id `a`. -/
def pendingEntries (D : DomainEntry A T₁ T₂ S M) (a : ℕ) : List (StatementEntry A) :=
  if D.next.id = a then D.next.statements.toList
  else (D.shouldPublish.get a).elim [] fun aggregation => aggregation.statements.toList

/-- The aggregation that starts next has no statements yet, in the queue or elsewhere. -/
theorem WF.pendingEntries_of_later (hwf : D.WF) {a : ℕ} (hne : a ≠ D.next.id)
    (ha : a = D.next.id + 1 ∨ a = 0) (hpos : 0 < D.next.id) : D.pendingEntries a = [] := by
  have hnone : D.shouldPublish.get a = none := by
    cases hget : D.shouldPublish.get a with
    | none => rfl
    | some aggregation =>
        have hqueued := (hwf.queued a aggregation hget).2.1
        rcases hwf.ids with ⟨-, hlt⟩ | ⟨hzero, -⟩
        · have := hlt a aggregation hget
          omega
        · omega
  rw [pendingEntries, if_neg (Ne.symm hne), hnone, Option.elim_none]

/-- An accepted statement is appended to the pending statements of the next aggregation. -/
theorem acceptStatement_pendingEntries [DecidableEq A] {D' : DomainEntry A T₁ T₂ S M}
    {rows : Finset (ℕ × A)} {reserve : Reserve} {statement : H256} {events : List Event}
    (hwf : D.WF) (hready : D.state = .ready) (hroom : D.canAddStatement = true)
    (h : D.acceptStatement rows account reserve statement = .ok (D', events)) (a : ℕ) :
    D'.pendingEntries a =
      if a = D.next.id then D.pendingEntries a ++ [⟨account, reserve, statement⟩]
      else D.pendingEntries a := by
  have hpos := hwf.next_id_pos_of_ready hready
  obtain ⟨next, hid, -, hlist, ⟨-, rfl, -⟩ | ⟨-, queue, hqueue, rfl, -⟩⟩ :=
    acceptStatement_ok hwf hready hroom h
  · -- The aggregation is still the next one.
    by_cases ha : a = D.next.id
    · subst ha
      simp [pendingEntries, hid, hlist]
    · simp [pendingEntries, hid, Ne.symm ha, ha]
  · -- It went to the queue, and a new one was started.
    have hnext : (D.enqueue next queue).next.id = D.next.id + 1 ∨
        (D.enqueue next queue).next.id = 0 := by
      rw [← hid]
      exact (advance_next_id { D with next := next }).imp And.left And.left
    have hempty : (D.enqueue next queue).next.statements.toList = [] := advance_next_statements _
    have hget : (D.enqueue next queue).shouldPublish = queue := rfl
    by_cases ha : a = D.next.id
    · subst ha
      have hmoved : (D.enqueue next queue).next.id ≠ D.next.id := by omega
      rw [if_pos rfl, pendingEntries, if_neg hmoved, hget, BoundedMap.get_of_insert_self hqueue,
        pendingEntries, if_pos rfl]
      exact hlist
    · rw [if_neg ha]
      by_cases hstarted : (D.enqueue next queue).next.id = a
      · rw [pendingEntries, if_pos hstarted, hempty]
        exact (hwf.pendingEntries_of_later ha (hstarted ▸ hnext) hpos).symm
      · rw [pendingEntries, if_neg hstarted, hget, BoundedMap.get_of_insert_ne hqueue ha,
          pendingEntries, if_neg (Ne.symm ha)]

/-! ## Who may add a proof -/

/-- The rules of the domain, which is stored under `d`, allow the account to add proofs. -/
def Authorizes (D : DomainEntry A T₁ T₂ S M) (d : ℕ) (rows : Finset (ℕ × A)) (account : A) :
    Prop :=
  match D.proofRules with
  | .untrusted => True
  | .onlyOwner => D.owner = .account account
  | .onlyAllowlisted => (d, account) ∈ rows

/-- A domain that does not miss its owner decides who is authorized. -/
theorem isAuthorizedToAddProof_eq [DecidableEq A] {d : ℕ} (hid : D.id = d)
    (h : ¬ D.OwnerMissing) (rows : Finset (ℕ × A)) (account : A) :
    ∃ authorized, D.isAuthorizedToAddProof rows account = .ok authorized ∧
      (authorized = true ↔ D.Authorizes d rows account) := by
  subst hid
  unfold isAuthorizedToAddProof Authorizes
  cases hrules : D.proofRules with
  | untrusted => exact ⟨true, rfl, by simp⟩
  | onlyAllowlisted => exact ⟨_, rfl, decide_eq_true_iff⟩
  | onlyOwner =>
      cases howner : D.owner with
      | manager => exact absurd ⟨hrules, howner⟩ h
      | account owner =>
          refine ⟨_, rfl, ?_⟩
          simp [eq_comm]

/-- The conditions under which a proof of the account is accepted: the domain is ready and has room,
the account may add proofs, and it can pay both fees. -/
structure Admits (cfg : Config A X T₁ T₂) (D : DomainEntry A T₁ T₂ S M) (d : ℕ)
    (rows : Finset (ℕ × A)) (account : A) (x : X) : Prop where
  ready : D.state = .ready
  room : D.canAddStatement = true
  authorized : D.Authorizes d rows account
  funds : CanHold cfg account (D.feeReserve cfg x) x

end DomainEntry

/-! ## The callback on one domain -/

section callback

variable [DecidableEq A] {kept : Set HoldReason} {s : State A X T₁ T₂ S M} {d : ℕ}

/-- A proof that is admitted is accepted. -/
theorem onDomainProof_of_admits (hwf : D.WF) (hid : D.id = d)
    (hadmits : D.Admits cfg d s.submittersAllowlist account s.chain) (howner : ¬ D.OwnerMissing)
    (statement : H256) :
    ∃ D' events x', D.reserveCurrency cfg account s.chain =
        .ok (.ok (D.feeReserve cfg s.chain), x') ∧
      D.acceptStatement s.submittersAllowlist account (D.feeReserve cfg s.chain) statement =
        .ok (D', events) ∧
      onDomainProof cfg account d statement D s =
        .ok { s.deposit (.newProof statement d D.next.id :: events) with
          domains := s.domains.insert d D', chain := x' } := by
  have hsize : D.next.size ≠ 0 := by
    rw [hwf.next_size]
    exact hwf.size_pos.ne'
  obtain ⟨x', hreserve⟩ := reserveCurrency_of_canHold hsize hadmits.funds
  obtain ⟨authorized, hauthorized, hiff⟩ :=
    isAuthorizedToAddProof_eq hid howner s.submittersAllowlist account
  obtain rfl : authorized = true := hiff.mpr hadmits.authorized
  obtain ⟨D', events, haccept⟩ : ∃ D' events, D.acceptStatement s.submittersAllowlist account
      (D.feeReserve cfg s.chain) statement = .ok (D', events) := by
    obtain ⟨next, -, -, -, ⟨-, haccept⟩ | ⟨-, queue, -, haccept⟩⟩ :=
      acceptStatement_eq hwf hadmits.ready hadmits.room s.submittersAllowlist account
        (D.feeReserve cfg s.chain) statement
    · exact ⟨_, _, haccept⟩
    · exact ⟨_, _, haccept⟩
  refine ⟨D', events, x', hreserve, haccept, ?_⟩
  unfold onDomainProof
  simp only [hadmits.ready, ne_eq, not_true, if_false, hadmits.room, Bool.true_eq_false,
    hauthorized, ok_bind, hreserve, haccept]
  rfl

/-- A proof that is not admitted is answered with the cause, and no balance is moved. -/
theorem onDomainProof_of_not_admits (hF : cfg.hold.Lawful) (hwf : D.WF) (hid : D.id = d)
    (hadmits : ¬ D.Admits cfg d s.submittersAllowlist account s.chain) (howner : ¬ D.OwnerMissing)
    (statement : H256) :
    ∃ cause x', onDomainProof cfg account d statement D s =
        .ok { s.deposit [.cannotAggregate statement cause] with chain := x' } ∧
      cfg.book x' = cfg.book s.chain := by
  unfold onDomainProof
  by_cases hready : D.state = .ready
  · rw [if_neg (not_not.mpr hready)]
    by_cases hroom : D.canAddStatement = true
    · rw [if_neg (by simp [hroom])]
      obtain ⟨authorized, hauthorized, hiff⟩ :=
        isAuthorizedToAddProof_eq hid howner s.submittersAllowlist account
      rw [hauthorized, ok_bind]
      cases authorized with
      | false => exact ⟨_, _, rfl, rfl⟩
      | true =>
          have hsize : D.next.size ≠ 0 := by
            rw [hwf.next_size]
            exact hwf.size_pos.ne'
          obtain ⟨result, x', hreserve, hbook⟩ := reserveCurrency_spec hF hsize account s.chain
          rw [if_neg (by simp), hreserve, ok_bind]
          cases result with
          | error e => exact ⟨_, _, rfl, hbook⟩
          | ok reserve =>
              have hfunds := (reserveCurrency_reserve hreserve).2
              exact absurd ⟨hready, hroom, hiff.mp rfl, hfunds⟩ hadmits
    · rw [if_pos (by simpa using hroom)]
      exact ⟨_, _, rfl, rfl⟩
  · rw [if_pos hready]
    exact ⟨_, _, rfl, rfl⟩

/-! ## All or nothing -/

/-- A new proof is announced. -/
def AnnouncesProof (events : List Event) : Prop :=
  ∃ statement d a, .newProof statement d a ∈ events

/-- The domain `d` is stored and admits a proof of the account. -/
def Admitted (cfg : Config A X T₁ T₂) (s : State A X T₁ T₂ S M) (account : A) (d : ℕ) : Prop :=
  ∃ D, s.domains.lookup d = some D ∧ D.Admits cfg d s.submittersAllowlist account s.chain

/-- The proof was added to the domain `d`: one entry is appended to the pending statements of the
aggregation `a`, and both fees are held. -/
structure Added (cfg : Config A X T₁ T₂) (s s' : State A X T₁ T₂ S M) (account : A) (d a : ℕ)
    (D : DomainEntry A T₁ T₂ S M) (statement : H256) : Prop where
  pending : ∃ D', s'.domains = s.domains.insert d D' ∧ D.Moved D' ∧
    ∀ id, D'.pendingEntries id =
      if id = a then D.pendingEntries id ++ [⟨account, D.feeReserve cfg s.chain, statement⟩]
      else D.pendingEntries id
  allowlist : s'.submittersAllowlist = s.submittersAllowlist
  aggregation : (cfg.book s'.chain).held .aggregation account =
    (cfg.book s.chain).held .aggregation account + (D.feeReserve cfg s.chain).aggregate
  delivery : (cfg.book s'.chain).held .delivery account =
    (cfg.book s.chain).held .delivery account + (D.feeReserve cfg s.chain).delivery

/-- Nothing but the events changed: the domains, the allowlist and all balances are as before. -/
structure Untouched (cfg : Config A X T₁ T₂) (s s' : State A X T₁ T₂ S M) : Prop where
  domains : s'.domains = s.domains
  allowlist : s'.submittersAllowlist = s.submittersAllowlist
  free : ∀ y, (cfg.book s'.chain).free y = (cfg.book s.chain).free y
  held : ∀ r y, (cfg.book s'.chain).held r y = (cfg.book s.chain).held r y

omit [DecidableEq A] in
theorem Untouched.of_book {s' : State A X T₁ T₂ S M} (hdomains : s'.domains = s.domains)
    (hallowlist : s'.submittersAllowlist = s.submittersAllowlist)
    (hbook : cfg.book s'.chain = cfg.book s.chain) : Untouched cfg s s' := by
  refine ⟨hdomains, hallowlist, ?_, ?_⟩
  · intro y
    rw [hbook]
  · intro r y
    rw [hbook]

theorem newProof_notMem_of_accept {D' : DomainEntry A T₁ T₂ S M} {rows : Finset (ℕ × A)}
    {reserve : Reserve} {statement statement' : H256} {events : List Event} {d a : ℕ} (hwf : D.WF)
    (hready : D.state = .ready) (hroom : D.canAddStatement = true)
    (h : D.acceptStatement rows account reserve statement = .ok (D', events)) :
    .newProof statement' d a ∉ events := by
  obtain ⟨next, -, -, -, ⟨-, -, rfl⟩ | ⟨-, queue, -, -, rfl⟩⟩ :=
    acceptStatement_ok hwf hready hroom h
  · exact List.not_mem_nil
  · unfold enqueueEvents advanceEvents
    split <;> split <;> simp

/-- In every reachable state in which no domain misses its owner the callback returns.  It announces
a new proof exactly if the domain admits it, and then one entry is appended and both fees are held;
otherwise nothing changes, whichever check or hold failed. -/
theorem onProofVerified_all_or_nothing (hF : cfg.hold.Lawful) (hs : Reachable cfg kept s)
    (howners : OwnersPresent s) (account : A) (d : ℕ) (statement : H256) :
    ∃ s' new, onProofVerified cfg (some account) (some d) statement s = .ok s' ∧
      s'.events = s.events ++ new ∧
      (AnnouncesProof new ↔ Admitted cfg s account d) ∧
      (∀ statement' d' a, .newProof statement' d' a ∈ new →
        statement' = statement ∧ d' = d ∧
          ∃ D, s.domains.lookup d = some D ∧ Added cfg s s' account d a D statement) ∧
      (¬ AnnouncesProof new → Untouched cfg s s') := by
  cases hlookup : s.domains.lookup d with
  | none =>
      have hrefused : ¬ Admitted cfg s account d := by
        rintro ⟨D, hD, -⟩
        rw [hlookup] at hD
        cases hD
      refine ⟨s.deposit [.cannotAggregate statement (.domainNotRegistered d)], _, ?_, rfl, ?_, ?_,
        ?_⟩
      · simp only [onProofVerified, hlookup]
      · simp [AnnouncesProof, hrefused]
      · simp
      · intro _
        exact Untouched.of_book rfl rfl rfl
  | some D =>
      have hwf := hs.represented.wf d D hlookup
      have hid := hs.represented.id_eq d D hlookup
      have howner := howners d D hlookup
      have hcall : onProofVerified cfg (some account) (some d) statement s =
          onDomainProof cfg account d statement D s := by
        simp only [onProofVerified, hlookup]
      have hadmitted : Admitted cfg s account d ↔
          D.Admits cfg d s.submittersAllowlist account s.chain := by
        constructor
        · rintro ⟨D₁, hD₁, h⟩
          rw [hlookup, Option.some.injEq] at hD₁
          exact hD₁ ▸ h
        · intro h
          exact ⟨D, hlookup, h⟩
      rw [hcall, hadmitted]
      by_cases hadmits : D.Admits cfg d s.submittersAllowlist account s.chain
      · obtain ⟨D', events, x', hreserve, haccept, hok⟩ :=
          onDomainProof_of_admits hwf hid hadmits howner statement
        have hbook := reserveCurrency_ok hF hreserve
        refine ⟨_, _, hok, rfl, ?_, ?_, ?_⟩
        · simp only [hadmits, iff_true]
          exact ⟨statement, d, D.next.id, List.mem_cons_self⟩
        · intro statement' d' a hmem
          rcases List.mem_cons.mp hmem with heq | hmem
          · cases heq
            refine ⟨rfl, rfl, D, rfl, ⟨D', rfl, ?_, ?_⟩, rfl, ?_, ?_⟩
            · exact acceptStatement_moved hwf hadmits.ready hadmits.room haccept
            · exact acceptStatement_pendingEntries hwf hadmits.ready hadmits.room haccept
            · rw [hbook]
              simp [holdReserve]
            · rw [hbook]
              simp [holdReserve]
          · exact absurd hmem
              (newProof_notMem_of_accept hwf hadmits.ready hadmits.room haccept)
        · intro hquiet
          exact absurd ⟨statement, d, D.next.id, List.mem_cons_self⟩ hquiet
      · obtain ⟨cause, x', hok, hbook⟩ :=
          onDomainProof_of_not_admits hF hwf hid hadmits howner statement
        refine ⟨_, _, hok, rfl, ?_, ?_, ?_⟩
        · simp [AnnouncesProof, hadmits]
        · simp
        · intro _
          exact Untouched.of_book rfl rfl hbook

end callback

/-- The manager registers a domain for everybody. -/
def sampleOpenDomain : List (Step sampleConfig ∅) :=
  [.call (.registerDomain .root 2 none .untrusted .untrusted ⟨.none, 10, 4⟩ (some 7))]

theorem onProofVerified_all_or_nothing_sample :
    let s : State ℕ (Book ℕ HoldReason) ℕ ℕ 4 2 := run (.genesis sampleBook) sampleOpenDomain
    Admitted sampleConfig s 1 0 ∧
      ∃ s', onProofVerified sampleConfig (some 1) (some 0) (Vector.replicate 32 0) s = .ok s' ∧
        ∃ D, s.domains.lookup 0 = some D ∧
          Added sampleConfig s s' 1 0 1 D (Vector.replicate 32 0) := by
  intro s
  have howners : OwnersPresent s :=
    ownersPresent_run (Represented.genesis _) (by simp [OwnersPresent, State.genesis]) _
      (by simp [sampleOpenDomain, Call.registersOwnerMissing])
  obtain ⟨s', new, hok, hevents, hiff, hadded, -⟩ :=
    onProofVerified_all_or_nothing sampleConfig_lawful.currency ⟨sampleBook, sampleOpenDomain, rfl⟩
      howners 1 0 (Vector.replicate 32 0)
  have hdeposited : (onProofVerified sampleConfig (some 1) (some 0) (Vector.replicate 32 0)
      s).toOption.map State.events =
        some (s.events ++ [.newProof (Vector.replicate 32 0) 0 1]) := by
    decide
  rw [hok] at hdeposited
  have hnew : new = [.newProof (Vector.replicate 32 0) 0 1] :=
    List.append_cancel_left (hevents.symm.trans (Option.some.inj hdeposited))
  have hmem : .newProof (Vector.replicate 32 0) 0 1 ∈ new := by
    rw [hnew]
    exact List.mem_singleton_self _
  exact ⟨hiff.mp ⟨_, _, _, hmem⟩, s', hok, (hadded _ _ _ hmem).2.2⟩

end ZkVerify.Aggregate
