import ZkVerify.Aggregate.Run

/-!
# What a successful operation does

`Effect cfg s c s'` lists, one constructor for each way in which an operation can
succeed, what the call `c` found in the state `s` and what it made of it.
`effect_of_dispatch` is the only place where the operations are taken apart; every
invariant of the pallet is proved by cases on `Effect`.
-/

namespace ZkVerify.Aggregate

open Frame

variable {A X T₁ T₂ : Type} {S M : ℕ} [DecidableEq A]

/-- The ways in which a call can succeed. -/
inductive Effect (cfg : Config A X T₁ T₂) (s : State A X T₁ T₂ S M) :
    Call A → State A X T₁ T₂ S M → Prop
  /-- The proof is not aggregated; at most an attempt to hold the fees was undone. -/
  | skipped {account : Option A} {domainId : Option ℕ} {statement : H256} {events : List Event}
      {x : X} (hevents : ∀ e ∈ events, ∃ cause, e = .cannotAggregate statement cause)
      (hchain : x = s.chain ∨ ∃ (D : DomainEntry A T₁ T₂ S M) (a : A) (e : DispatchError Error),
        D.reserveCurrency cfg a s.chain = .ok (.error e, x)) :
      Effect cfg s (.onProofVerified account domainId statement)
        { s.deposit events with chain := x }
  /-- The proof is aggregated. -/
  | accepted {account : A} {d : ℕ} {statement : H256} {D D' : DomainEntry A T₁ T₂ S M}
      {reserve : Reserve} {events : List Event} {x : X}
      (hlookup : s.domains.lookup d = some D) (hready : D.state = .ready)
      (hroom : D.canAddStatement = true)
      (hauthorized : D.isAuthorizedToAddProof s.submittersAllowlist account = .ok true)
      (hreserve : D.reserveCurrency cfg account s.chain = .ok (.ok reserve, x))
      (haccept : D.acceptStatement s.submittersAllowlist account reserve statement =
        .ok (D', events)) :
      Effect cfg s (.onProofVerified (some account) (some d) statement)
        { s.deposit (.newProof statement d D.next.id :: events) with
          domains := s.domains.insert d D', chain := x }
  /-- An aggregation is published. -/
  | aggregated {origin : RawOrigin A} {d a : ℕ} {aggregator : User A}
      {D D' : DomainEntry A T₁ T₂ S M} {aggregation : AggregationEntry A S}
      {popped : List Event}
      (horigin : User.fromOrigin cfg origin = .ok aggregator)
      (hlookup : s.domains.lookup d = some D)
      (htake : D.takeAggregation a = .ok (some aggregation, D', popped))
      (hrules : D'.aggregateRules.canUserAggregateIt aggregator D'.owner D'.delivery.owner
        aggregation = true)
      (hdispatch : cfg.dispatchAggregation d a (aggregation.computeReceipt cfg.merkleRoot)
        (D'.handleHoldState s.submittersAllowlist).1.delivery.data.destination
        (D'.handleHoldState s.submittersAllowlist).1.delivery.data.fee
        (D'.handleHoldState s.submittersAllowlist).1.delivery.owner
        (aggregation.statements.toList.foldl
          (settleStatement cfg aggregator D'.delivery.owner) s.chain) = .ok ()) :
      Effect cfg s (.aggregate origin d a)
        { s.deposit (popped ++ (D'.handleHoldState s.submittersAllowlist).2 ++
            [.newAggregationReceipt d a (aggregation.computeReceipt cfg.merkleRoot)]) with
          domains := s.domains.insert d (D'.handleHoldState s.submittersAllowlist).1
          published := s.published ++ [(d, aggregation)]
          chain := aggregation.statements.toList.foldl
            (settleStatement cfg aggregator D'.delivery.owner) s.chain }
  /-- A domain is registered. -/
  | registered {origin : RawOrigin A} {aggregationSize : ℕ} {queueSize : Option ℕ}
      {aggregateRules : AggregateSecurityRules} {proofRules : ProofSecurityRules}
      {delivery : Delivery} {deliveryOwner : Option A} {caller : User A} {owner : A}
      {ticketDomain : Option T₁} {ticketAllowlist : Option (CountableTicket T₂)} {x x' : X}
      {D : DomainEntry A T₁ T₂ S M}
      (horigin : User.fromOrigin cfg origin = .ok caller)
      (howner : (deliveryOwner <|> caller.account?) = some owner)
      (hid : s.nextDomainId < u32Max)
      (hdomain : newTicketDomain cfg S M caller aggregationSize (queueSize.getD M)
        delivery.destination s.chain = .ok (ticketDomain, x))
      (hallowlist : newTicketAllowlist cfg caller proofRules x = .ok (ticketAllowlist, x'))
      (hcreate : DomainEntry.tryCreate s.nextDomainId caller 1 aggregationSize (queueSize.getD M)
        aggregateRules proofRules ticketDomain ticketAllowlist ⟨owner, delivery⟩ = .ok D) :
      Effect cfg s (.registerDomain origin aggregationSize queueSize aggregateRules proofRules
          delivery deliveryOwner)
        { s.deposit [.newDomain s.nextDomainId] with
          domains := s.domains.insert s.nextDomainId D
          nextDomainId := s.nextDomainId + 1
          chain := x' }
  /-- A domain is put on hold. -/
  | held {origin : RawOrigin A} {d : ℕ} {owner : User A} {D : DomainEntry A T₁ T₂ S M}
      (horigin : User.fromOrigin cfg origin = .ok owner)
      (hlookup : s.domains.lookup d = some D) (hhandle : owner.canHandleDomain D = true)
      (hready : D.state = .ready) :
      Effect cfg s (.holdDomain origin d)
        { s.deposit [(D.updateHoldState s.submittersAllowlist).stateChangedEvent] with
          domains := s.domains.insert d (D.updateHoldState s.submittersAllowlist) }
  /-- A domain is removed. -/
  | unregistered {origin : RawOrigin A} {d : ℕ} {owner : User A} {D : DomainEntry A T₁ T₂ S M}
      (horigin : User.fromOrigin cfg origin = .ok owner)
      (hlookup : s.domains.lookup d = some D) (hhandle : owner.canHandleDomain D = true)
      (hremovable : D.state = .removable) :
      Effect cfg s (.unregisterDomain origin d)
        { s.deposit [.domainStateChanged D.id .removed] with
          domains := s.domains.erase d
          chain := dropTicket cfg.considerationAllowList (owner.account? <|> D.owner.account?)
            (D.ticketAllowlist.map CountableTicket.ticket)
            (dropTicket cfg.considerationDomain (owner.account? <|> D.owner.account?)
              D.ticketDomain s.chain) }
  /-- The delivery fee of a domain is changed. -/
  | feeSet {origin : RawOrigin A} {d fee ownerTip : ℕ} {owner : User A}
      {D : DomainEntry A T₁ T₂ S M}
      (horigin : User.fromOrigin cfg origin = .ok owner)
      (hlookup : s.domains.lookup d = some D)
      (hset : owner.canSetTotalDeliveryFee D = true) :
      Effect cfg s (.setTotalDeliveryFee origin d fee ownerTip)
        { s with
          domains := s.domains.insert d { D with
            delivery := (D.delivery.setFee fee).setOwnerTip ownerTip } }
  /-- Submitters are added to the allowlist of a domain. -/
  | allowlisted {origin : RawOrigin A} {d : ℕ} {submitters : BoundedVec A u32Max} {owner : User A}
      {D D' : DomainEntry A T₁ T₂ S M} {x : X}
      (horigin : User.fromOrigin cfg origin = .ok owner)
      (hlookup : s.domains.lookup d = some D) (hhandle : owner.canHandleDomain D = true)
      (hready : D.state = .ready) (hrules : D.proofRules = .onlyAllowlisted)
      (hcount : D.increaseFootprintCount cfg (saturatedInto u64Max
        (DomainEntry.insertRows D.id s.submittersAllowlist submitters.toList).2) s.chain =
          .ok (D', x)) :
      Effect cfg s (.allowlistProofSubmitters origin d submitters)
        { s with
          domains := s.domains.insert d D'
          submittersAllowlist :=
            (DomainEntry.insertRows D.id s.submittersAllowlist submitters.toList).1
          chain := x }
  /-- Submitters are removed from the allowlist of a domain. -/
  | submittersRemoved {origin : RawOrigin A} {d : ℕ} {submitters : BoundedVec A u32Max}
      {owner : User A} {D D' : DomainEntry A T₁ T₂ S M} {rows : Finset (ℕ × A)} {x : X}
      (horigin : User.fromOrigin cfg origin = .ok owner)
      (hlookup : s.domains.lookup d = some D) (hhandle : owner.canHandleDomain D = true)
      (hrules : D.proofRules = .onlyAllowlisted)
      (hrows : rows = (DomainEntry.removeRows D.id s.submittersAllowlist submitters.toList).1)
      (hcount : D.decreaseFootprintCount cfg (saturatedInto u64Max
        (DomainEntry.removeRows D.id s.submittersAllowlist submitters.toList).2) s.chain =
          .ok (D', x)) :
      Effect cfg s (.removeProofSubmitters origin d submitters)
        { s.deposit (D'.handleHoldState rows).2 with
          domains := s.domains.insert d (D'.handleHoldState rows).1
          submittersAllowlist := rows
          chain := x }
  /-- A new block starts. -/
  | initialized : Effect cfg s .onInitialize { s with published := [] }

variable {cfg : Config A X T₁ T₂} {s s' : State A X T₁ T₂ S M}

/-! ## The callback -/

private theorem effect_of_onDomainProof {account : A} {d : ℕ} {statement : H256}
    {D : DomainEntry A T₁ T₂ S M} (hlookup : s.domains.lookup d = some D)
    (h : onDomainProof cfg account d statement D s = .ok s') :
    Effect cfg s (.onProofVerified (some account) (some d) statement) s' := by
  have hskip : ∀ cause, ∀ e ∈ [Event.cannotAggregate statement cause],
      ∃ cause, e = Event.cannotAggregate statement cause :=
    fun cause e he => ⟨cause, List.mem_singleton.mp he⟩
  unfold onDomainProof at h
  split at h
  · cases h
    exact .skipped (hskip _) (.inl rfl)
  · rename_i hready
    split at h
    · cases h
      exact .skipped (hskip _) (.inl rfl)
    · rename_i hroom
      obtain ⟨authorized, hauthorized, h⟩ := seq_eq_ok.mp h
      cases authorized with
      | false =>
          cases h
          exact .skipped (hskip _) (.inl rfl)
      | true =>
          obtain ⟨⟨result, x⟩, hreserve, h⟩ := seq_eq_ok.mp h
          cases result with
          | error e =>
              cases h
              exact .skipped (hskip _) (.inr ⟨D, account, e, hreserve⟩)
          | ok reserve =>
              obtain ⟨⟨D', events⟩, haccept, h⟩ := seq_eq_ok.mp h
              cases h
              exact .accepted hlookup (not_not.mp hready) (by simpa using hroom) hauthorized
                hreserve haccept

private theorem effect_of_onProofVerified {account : Option A} {domainId : Option ℕ}
    {statement : H256} (h : onProofVerified cfg account domainId statement s = .ok s') :
    Effect cfg s (.onProofVerified account domainId statement) s' := by
  have hskip : ∀ cause, ∀ e ∈ [Event.cannotAggregate statement cause],
      ∃ cause, e = Event.cannotAggregate statement cause :=
    fun cause e he => ⟨cause, List.mem_singleton.mp he⟩
  cases account with
  | none =>
      cases h
      exact .skipped (hskip _) (.inl rfl)
  | some account =>
      cases domainId with
      | none =>
          cases h
          have hnone : Effect cfg s (.onProofVerified (some account) none statement)
              { s.deposit [] with chain := s.chain } := .skipped (by simp) (.inl rfl)
          simpa [State.deposit] using hnone
      | some d =>
          simp only [onProofVerified] at h
          split at h
          · cases h
            exact .skipped (hskip _) (.inl rfl)
          · rename_i D hlookup
            exact effect_of_onDomainProof hlookup h

/-! ## The dispatchables -/

private theorem effect_of_aggregate {origin : RawOrigin A} {d a : ℕ} {info : PostDispatchInfo}
    (h : aggregate cfg origin d a s = .ok (s', info)) :
    Effect cfg s (.aggregate origin d a) s' := by
  unfold aggregate at h
  obtain ⟨aggregator, horigin, h⟩ := seq_eq_ok.mp h
  obtain ⟨D, hlookup, h⟩ := seq_eq_ok.mp h
  obtain ⟨⟨taken, D', popped⟩, htake, h⟩ := seq_eq_ok.mp h
  obtain ⟨aggregation, htaken, h⟩ := seq_eq_ok.mp h
  obtain ⟨_, hrules, h⟩ := seq_eq_ok.mp h
  obtain ⟨_, hdispatch, h⟩ := seq_eq_ok.mp h
  cases h
  rw [okOr_eq_ok] at hlookup htaken
  subst htaken
  exact .aggregated horigin hlookup (unwind_eq_ok.mp htake) (ensure_eq_ok.mp hrules)
    (raise_eq_ok.mp hdispatch)

private theorem effect_of_registerDomain {origin : RawOrigin A} {aggregationSize : ℕ}
    {queueSize : Option ℕ} {aggregateRules : AggregateSecurityRules}
    {proofRules : ProofSecurityRules} {delivery : Delivery} {deliveryOwner : Option A}
    {info : PostDispatchInfo}
    (h : registerDomain cfg origin aggregationSize queueSize aggregateRules proofRules delivery
      deliveryOwner s = .ok (s', info)) :
    Effect cfg s (.registerDomain origin aggregationSize queueSize aggregateRules proofRules
      delivery deliveryOwner) s' := by
  unfold registerDomain at h
  obtain ⟨caller, horigin, h⟩ := seq_eq_ok.mp h
  obtain ⟨_, _, h⟩ := seq_eq_ok.mp h
  obtain ⟨owner, howner, h⟩ := seq_eq_ok.mp h
  obtain ⟨_, _, h⟩ := seq_eq_ok.mp h
  obtain ⟨⟨ticketDomain, x⟩, hdomain, h⟩ := seq_eq_ok.mp h
  obtain ⟨⟨ticketAllowlist, x'⟩, hallowlist, h⟩ := seq_eq_ok.mp h
  obtain ⟨D, hcreate, h⟩ := seq_eq_ok.mp h
  obtain ⟨nextId, hnext, h⟩ := seq_eq_ok.mp h
  cases h
  rw [unwind_eq_ok, okOr_eq_ok, checkedAdd_eq_some] at hnext
  obtain ⟨hid, rfl⟩ := hnext
  exact .registered horigin (okOr_eq_ok.mp howner) hid (raise_eq_ok.mp hdomain)
    (raise_eq_ok.mp hallowlist) hcreate

private theorem effect_of_holdDomain {origin : RawOrigin A} {d : ℕ} {info : PostDispatchInfo}
    (h : holdDomain cfg origin d s = .ok (s', info)) :
    Effect cfg s (.holdDomain origin d) s' := by
  unfold holdDomain at h
  obtain ⟨owner, horigin, h⟩ := seq_eq_ok.mp h
  obtain ⟨D, hlookup, h⟩ := seq_eq_ok.mp h
  obtain ⟨_, hhandle, h⟩ := seq_eq_ok.mp h
  obtain ⟨_, hready, h⟩ := seq_eq_ok.mp h
  cases h
  exact .held horigin (okOr_eq_ok.mp hlookup) (ensure_eq_ok.mp hhandle)
    (of_decide_eq_true (ensure_eq_ok.mp hready))

private theorem effect_of_unregisterDomain {origin : RawOrigin A} {d : ℕ}
    {info : PostDispatchInfo} (h : unregisterDomain cfg origin d s = .ok (s', info)) :
    Effect cfg s (.unregisterDomain origin d) s' := by
  unfold unregisterDomain at h
  obtain ⟨owner, horigin, h⟩ := seq_eq_ok.mp h
  obtain ⟨D, hlookup, h⟩ := seq_eq_ok.mp h
  obtain ⟨_, hhandle, h⟩ := seq_eq_ok.mp h
  obtain ⟨_, hremovable, h⟩ := seq_eq_ok.mp h
  cases h
  exact .unregistered horigin (okOr_eq_ok.mp hlookup) (ensure_eq_ok.mp hhandle)
    (of_decide_eq_true (ensure_eq_ok.mp hremovable))

private theorem effect_of_setTotalDeliveryFee {origin : RawOrigin A} {d fee ownerTip : ℕ}
    {info : PostDispatchInfo}
    (h : setTotalDeliveryFee cfg origin d fee ownerTip s = .ok (s', info)) :
    Effect cfg s (.setTotalDeliveryFee origin d fee ownerTip) s' := by
  unfold setTotalDeliveryFee at h
  obtain ⟨owner, horigin, h⟩ := seq_eq_ok.mp h
  obtain ⟨D, hlookup, h⟩ := seq_eq_ok.mp h
  obtain ⟨_, hset, h⟩ := seq_eq_ok.mp h
  cases h
  exact .feeSet horigin (okOr_eq_ok.mp hlookup) (ensure_eq_ok.mp hset)

private theorem effect_of_allowlistProofSubmitters {origin : RawOrigin A} {d : ℕ}
    {submitters : BoundedVec A u32Max} {info : PostDispatchInfo}
    (h : allowlistProofSubmitters cfg origin d submitters.toList s = .ok (s', info)) :
    Effect cfg s (.allowlistProofSubmitters origin d submitters) s' := by
  unfold allowlistProofSubmitters at h
  obtain ⟨owner, horigin, h⟩ := seq_eq_ok.mp h
  obtain ⟨D, hlookup, h⟩ := seq_eq_ok.mp h
  obtain ⟨_, hhandle, h⟩ := seq_eq_ok.mp h
  obtain ⟨_, hready, h⟩ := seq_eq_ok.mp h
  obtain ⟨⟨D', rows, x⟩, hadd, h⟩ := seq_eq_ok.mp h
  cases h
  rw [raise_eq_ok] at hadd
  obtain ⟨_, hrules, hadd⟩ := seq_eq_ok.mp hadd
  obtain ⟨⟨D', x⟩, hcount, hadd⟩ := seq_eq_ok.mp hadd
  cases hadd
  exact .allowlisted horigin (okOr_eq_ok.mp hlookup) (ensure_eq_ok.mp hhandle)
    (of_decide_eq_true (ensure_eq_ok.mp hready)) (of_decide_eq_true (ensure_eq_ok.mp hrules)) hcount

private theorem effect_of_removeProofSubmitters {origin : RawOrigin A} {d : ℕ}
    {submitters : BoundedVec A u32Max} {info : PostDispatchInfo}
    (h : removeProofSubmitters cfg origin d submitters.toList s = .ok (s', info)) :
    Effect cfg s (.removeProofSubmitters origin d submitters) s' := by
  unfold removeProofSubmitters at h
  obtain ⟨owner, horigin, h⟩ := seq_eq_ok.mp h
  obtain ⟨D, hlookup, h⟩ := seq_eq_ok.mp h
  obtain ⟨_, hhandle, h⟩ := seq_eq_ok.mp h
  obtain ⟨⟨D', rows, x⟩, hremove, h⟩ := seq_eq_ok.mp h
  cases h
  rw [raise_eq_ok] at hremove
  obtain ⟨_, hrules, hremove⟩ := seq_eq_ok.mp hremove
  obtain ⟨⟨D', x⟩, hcount, hremove⟩ := seq_eq_ok.mp hremove
  cases hremove
  exact .submittersRemoved horigin (okOr_eq_ok.mp hlookup) (ensure_eq_ok.mp hhandle)
    (of_decide_eq_true (ensure_eq_ok.mp hrules)) rfl hcount

/-- A call that succeeds has one of the listed effects. -/
theorem effect_of_dispatch {c : Call A} {info : PostDispatchInfo}
    (h : dispatch cfg c s = .ok (s', info)) : Effect cfg s c s' := by
  cases c with
  | onProofVerified account domainId statement =>
      obtain ⟨s₁, hcallback, h⟩ := seq_eq_ok.mp h
      cases h
      exact effect_of_onProofVerified (unwind_eq_ok.mp hcallback)
  | aggregate origin d a => exact effect_of_aggregate h
  | registerDomain origin size queue rules proofRules delivery owner =>
      exact effect_of_registerDomain h
  | holdDomain origin d => exact effect_of_holdDomain h
  | unregisterDomain origin d => exact effect_of_unregisterDomain h
  | setTotalDeliveryFee origin d fee tip => exact effect_of_setTotalDeliveryFee h
  | allowlistProofSubmitters origin d submitters => exact effect_of_allowlistProofSubmitters h
  | removeProofSubmitters origin d submitters => exact effect_of_removeProofSubmitters h
  | onInitialize =>
      cases h
      exact .initialized

end ZkVerify.Aggregate
