import ZkVerify.Aggregate.Domain

/-!
# The operations of the aggregate pallet

The storage of the pallet and its operations: the callback `on_proof_verified`, the
hook `on_initialize` and the seven dispatchables.  `State.events` is the list of all
events deposited since genesis.

A dispatchable that returns an error is rolled back as a whole, so its model returns
no state in that case.  The callback is not rolled back: it has no error result, and
it only panics or returns a state.
-/

namespace ZkVerify.Aggregate

open Frame

/-- The storage of the pallet, the chain state outside of it and the events so far. -/
structure State (A X T₁ T₂ : Type) (S M : ℕ) where
  nextDomainId : ℕ
  domains : Finmap fun _ : ℕ => DomainEntry A T₁ T₂ S M
  submittersAllowlist : Finset (ℕ × A)
  published : List (ℕ × AggregationEntry A S)
  events : List Event
  chain : X

variable {A X T₁ T₂ : Type} {S M : ℕ}

/-- `deposit_event`, for a list of events. -/
def State.deposit (s : State A X T₁ T₂ S M) (events : List Event) : State A X T₁ T₂ S M :=
  { s with events := s.events ++ events }

/-- The storage before the first operation. -/
def State.genesis (x : X) : State A X T₁ T₂ S M :=
  { nextDomainId := 0, domains := ∅, submittersAllowlist := ∅, published := [], events := [],
    chain := x }

/-- The result of a dispatchable. -/
abbrev DispatchResult (A X T₁ T₂ : Type) (S M : ℕ) :=
  Except (Abort Error Panic) (State A X T₁ T₂ S M × PostDispatchInfo)

/-! ## Callers -/

namespace User

/-- `User::from_origin`. -/
def fromOrigin (cfg : Config A X T₁ T₂) (origin : RawOrigin A) :
    Except (Abort Error Panic) (User A) :=
  if cfg.managerOrigin origin then .ok .manager
  else
    match origin with
    | .signed a => .ok (.account a)
    | _ => .error (.of .badOrigin)

/-- `User::is_manager`. -/
def isManager : User A → Bool
  | .manager => true
  | .account _ => false

/-- `User::can_create_domain`: with the only destination there is, everybody can. -/
def canCreateDomain (_user : User A) (_destination : Destination) : Bool := true

/-- `User::pays`. -/
def pays : User A → Pays
  | .manager => .no
  | .account _ => .yes

/-- `User::post_info`. -/
def postInfo (user : User A) (actualWeight : Option Weight) : PostDispatchInfo :=
  ⟨actualWeight, user.pays⟩

variable [DecidableEq A]

/-- `User::can_handle_domain`. -/
def canHandleDomain (user : User A) (domain : DomainEntry A T₁ T₂ S M) : Bool :=
  match user with
  | .account _ => decide (domain.owner = user)
  | .manager => true

/-- `User::can_set_total_delivery_fee`. -/
def canSetTotalDeliveryFee (user : User A) (domain : DomainEntry A T₁ T₂ S M) : Bool :=
  match user with
  | .account a => decide (domain.owner = user) || decide (domain.delivery.owner = a)
  | .manager => true

end User

/-- `AggregateSecurityRules::can_user_aggregate_it`. -/
def AggregateSecurityRules.canUserAggregateIt [DecidableEq A] (rules : AggregateSecurityRules)
    (aggregator domainOwner : User A) (deliveryOwner : A) (aggregation : AggregationEntry A S) :
    Bool :=
  let isOwnerAuth := decide (aggregator.account? = some deliveryOwner) ||
    decide (aggregator = domainOwner) || aggregator.isManager
  match rules with
  | .untrusted => true
  | .onlyOwner => isOwnerAuth
  | .onlyOwnerUncompleted => aggregation.completed || isOwnerAuth

/-! ## Settling the fees -/

/-- `handle_held_funds`: pay the amount out of the hold to `dest`, or release it when there is no
destination or the transfer fails. -/
def handleHeldFunds (cfg : Config A X T₁ T₂) (reason : HoldReason) (account : A) (dest : Option A)
    (amount : ℕ) (x : X) : X :=
  let transfer := dest.bind fun dest =>
    (cfg.hold.transferOnHold reason account dest amount .bestEffort .free .polite x).toOption
  match transfer with
  -- Also when less than `amount` was moved.
  | some (_, x') => x'
  | none =>
      match cfg.hold.release reason account amount .bestEffort x with
      | .ok (_, x') => x'
      | .error _ => x

/-- What `aggregate` does for one statement. -/
def settleStatement (cfg : Config A X T₁ T₂) (aggregator : User A) (deliveryOwner : A) (x : X)
    (s : StatementEntry A) : X :=
  let x := handleHeldFunds cfg .aggregation s.account aggregator.account? s.reserve.aggregate x
  handleHeldFunds cfg .delivery s.account (some deliveryOwner) s.reserve.delivery x

/-- `t.drop(o)` in `unregister_domain`; its result is ignored. -/
def dropTicket {T : Type} (consideration : Consideration A X T (DispatchError Error))
    (payer : Option A) (ticket : Option T) (x : X) : X :=
  match payer, ticket with
  | some o, some t =>
      match consideration.drop t o x with
      | .ok x' => x'
      | .error _ => x
  | _, _ => x

/-! ## Registering a domain -/

/-- `Domain::try_create`. -/
def DomainEntry.tryCreate (id : ℕ) (owner : User A)
    (nextAggregationId maxAggregationSize publishQueueSize : ℕ)
    (aggregateRules : AggregateSecurityRules) (proofRules : ProofSecurityRules)
    (ticketDomain : Option T₁) (ticketAllowlist : Option (CountableTicket T₂))
    (delivery : DeliveryParams A) : Except (Abort Error Panic) (DomainEntry A T₁ T₂ S M) :=
  if maxAggregationSize = 0 ∨ publishQueueSize = 0 ∨ S < maxAggregationSize ∨
      M < publishQueueSize then
    .error (.of (.module .invalidDomainParams))
  else
    unwind (DomainEntry.create id owner nextAggregationId maxAggregationSize publishQueueSize
      aggregateRules proofRules ticketDomain ticketAllowlist delivery)

/-- The deposit for the storage of a new domain; the manager pays none. -/
def newTicketDomain (cfg : Config A X T₁ T₂) (S M : ℕ) (caller : User A)
    (aggregationSize queueSize : ℕ) (destination : Destination) (x : X) :
    Except (DispatchError Error) (Option T₁ × X) :=
  match caller.account? with
  | none => .ok (none, x)
  | some a => do
      let (ticket, x) ← cfg.considerationDomain.new a
        ⟨1, cfg.encodedSizes.computeDomain S M aggregationSize queueSize destination⟩ x
      return (some ticket, x)

/-- The deposit for the empty allowlist of a new domain. -/
def newTicketAllowlist (cfg : Config A X T₁ T₂) (caller : User A) (proofRules : ProofSecurityRules)
    (x : X) : Except (DispatchError Error) (Option (CountableTicket T₂) × X) :=
  if proofRules = .onlyAllowlisted then
    match caller.account? with
    | none => .ok (none, x)
    | some a => do
        let (ticket, x) ← cfg.considerationAllowList.new a ⟨0, 0⟩ x
        return (some ⟨ticket, 0⟩, x)
  else .ok (none, x)

/-- `register_domain`. -/
def registerDomain (cfg : Config A X T₁ T₂) (origin : RawOrigin A) (aggregationSize : ℕ)
    (queueSize : Option ℕ) (aggregateRules : AggregateSecurityRules)
    (proofRules : ProofSecurityRules) (delivery : Delivery) (deliveryOwner : Option A)
    (s : State A X T₁ T₂ S M) : DispatchResult A X T₁ T₂ S M := do
  let caller ← User.fromOrigin cfg origin
  ensure (caller.canCreateDomain delivery.destination) (.of .badOrigin)
  let deliveryOwner ←
    okOr (deliveryOwner <|> caller.account?) (.of (.module .missedDeliveryOwnership))
  let id := s.nextDomainId
  ensure (decide (id ≠ u32Max)) (.of (.module .invalidDomainParams))
  let queueSize := queueSize.getD M
  -- The tickets are paid before the parameters are checked; an error rolls them back.
  let (ticketDomain, x) ← raise
    (newTicketDomain cfg S M caller aggregationSize queueSize delivery.destination s.chain)
  let (ticketAllowlist, x) ← raise (newTicketAllowlist cfg caller proofRules x)
  let domain ← DomainEntry.tryCreate id caller 1 aggregationSize queueSize aggregateRules proofRules
    ticketDomain ticketAllowlist ⟨deliveryOwner, delivery⟩
  let nextId ← unwind (okOr (checkedAdd u32Max id 1) .domainIdOverflow)
  return ({ s.deposit [.newDomain id] with
    domains := s.domains.insert id domain, nextDomainId := nextId, chain := x },
    caller.postInfo none)

/-! ## Changing a domain -/

variable [DecidableEq A]

/-- `hold_domain`. -/
def holdDomain (cfg : Config A X T₁ T₂) (origin : RawOrigin A) (domainId : ℕ)
    (s : State A X T₁ T₂ S M) : DispatchResult A X T₁ T₂ S M := do
  let owner ← User.fromOrigin cfg origin
  let domain ← okOr (s.domains.lookup domainId) (.of (.module .unknownDomainId))
  ensure (owner.canHandleDomain domain) (.of .badOrigin)
  ensure (decide (domain.state = .ready)) (.of (.module .invalidDomainState))
  let updated := domain.updateHoldState s.submittersAllowlist
  return ({ s.deposit [updated.stateChangedEvent] with
    domains := s.domains.insert domainId updated }, owner.postInfo none)

/-- `unregister_domain`. -/
def unregisterDomain (cfg : Config A X T₁ T₂) (origin : RawOrigin A) (domainId : ℕ)
    (s : State A X T₁ T₂ S M) : DispatchResult A X T₁ T₂ S M := do
  let owner ← User.fromOrigin cfg origin
  let domain ← okOr (s.domains.lookup domainId) (.of (.module .unknownDomainId))
  ensure (owner.canHandleDomain domain) (.of .badOrigin)
  ensure (decide (domain.state = .removable)) (.of (.module .invalidDomainState))
  -- Unless the manager unregisters the domain, the caller is the owner.
  let payer := owner.account? <|> domain.owner.account?
  let x := dropTicket cfg.considerationDomain payer domain.ticketDomain s.chain
  let x := dropTicket cfg.considerationAllowList payer
    (domain.ticketAllowlist.map CountableTicket.ticket) x
  return ({ s.deposit [.domainStateChanged domain.id .removed] with
    domains := s.domains.erase domainId, chain := x }, owner.postInfo none)

/-- `set_total_delivery_fee`. -/
def setTotalDeliveryFee (cfg : Config A X T₁ T₂) (origin : RawOrigin A) (domainId fee ownerTip : ℕ)
    (s : State A X T₁ T₂ S M) : DispatchResult A X T₁ T₂ S M := do
  let owner ← User.fromOrigin cfg origin
  let domain ← okOr (s.domains.lookup domainId) (.of (.module .unknownDomainId))
  ensure (owner.canSetTotalDeliveryFee domain) (.of .badOrigin)
  let delivery := (domain.delivery.setFee fee).setOwnerTip ownerTip
  return ({ s with domains := s.domains.insert domainId { domain with delivery := delivery } },
    .default)

/-- `allowlist_proof_submitters`. -/
def allowlistProofSubmitters (cfg : Config A X T₁ T₂) (origin : RawOrigin A) (domainId : ℕ)
    (submitters : List A) (s : State A X T₁ T₂ S M) : DispatchResult A X T₁ T₂ S M := do
  let owner ← User.fromOrigin cfg origin
  let domain ← okOr (s.domains.lookup domainId) (.of (.module .unknownDomainId))
  ensure (owner.canHandleDomain domain) (.of .badOrigin)
  ensure (decide (domain.state = .ready)) (.of (.module .invalidDomainParams))
  let (domain, rows, x) ←
    raise (domain.tryAddSubmitters cfg s.submittersAllowlist submitters s.chain)
  return ({ s with
    domains := s.domains.insert domainId domain, submittersAllowlist := rows, chain := x },
    .default)

/-- `remove_proof_submitters`. -/
def removeProofSubmitters (cfg : Config A X T₁ T₂) (origin : RawOrigin A) (domainId : ℕ)
    (submitters : List A) (s : State A X T₁ T₂ S M) : DispatchResult A X T₁ T₂ S M := do
  let owner ← User.fromOrigin cfg origin
  let domain ← okOr (s.domains.lookup domainId) (.of (.module .unknownDomainId))
  ensure (owner.canHandleDomain domain) (.of .badOrigin)
  let (domain, rows, x) ←
    raise (domain.tryRemoveSubmitters cfg s.submittersAllowlist submitters s.chain)
  let (domain, events) := domain.handleHoldState rows
  return ({ s.deposit events with
    domains := s.domains.insert domainId domain, submittersAllowlist := rows, chain := x },
    .default)

/-! ## Adding and publishing statements -/

/-- The part of `on_proof_verified` after the fees are held: append the statement, queue the
aggregation it completes, re-evaluate the state. -/
def DomainEntry.acceptStatement (domain : DomainEntry A T₁ T₂ S M) (rows : Finset (ℕ × A))
    (account : A) (reserve : Reserve) (statement : H256) :
    Except Panic (DomainEntry A T₁ T₂ S M × List Event) := do
  let (toPublish, domain, popped) ← domain.appendStatement account reserve statement
  let (domain, completed) ← match toPublish with
    | some aggregation => domain.availableAggregation aggregation
    | none => .ok (domain, [])
  let (domain, changed) := domain.handleHoldState rows
  return (domain, popped ++ completed ++ changed)

/-- `on_proof_verified` on a registered domain. -/
def onDomainProof (cfg : Config A X T₁ T₂) (account : A) (domainId : ℕ) (statement : H256)
    (domain : DomainEntry A T₁ T₂ S M) (s : State A X T₁ T₂ S M) :
    Except Panic (State A X T₁ T₂ S M) :=
  let skip := fun cause => s.deposit [.cannotAggregate statement cause]
  if domain.state ≠ .ready then .ok (skip (.invalidDomainState domainId domain.state))
  else if domain.canAddStatement = false then .ok (skip (.domainStorageFull domainId))
  else do
    if (← domain.isAuthorizedToAddProof s.submittersAllowlist account) = false then
      return skip .unauthorizedUser
    match ← domain.reserveCurrency cfg account s.chain with
    -- The callback has no error result: what was written stays.
    | (.error _, x) => return { skip .insufficientFunds with chain := x }
    | (.ok reserve, x) =>
        let (accepted, events) ←
          domain.acceptStatement s.submittersAllowlist account reserve statement
        return { s.deposit (.newProof statement domainId domain.next.id :: events) with
          domains := s.domains.insert domainId accepted, chain := x }

/-- `on_proof_verified`. -/
def onProofVerified (cfg : Config A X T₁ T₂) (account : Option A) (domainId : Option ℕ)
    (statement : H256) (s : State A X T₁ T₂ S M) : Except Panic (State A X T₁ T₂ S M) :=
  match account, domainId with
  | none, _ => .ok (s.deposit [.cannotAggregate statement .noAccount])
  | some _, none => .ok s
  | some account, some domainId =>
      match s.domains.lookup domainId with
      | none => .ok (s.deposit [.cannotAggregate statement (.domainNotRegistered domainId)])
      | some domain => onDomainProof cfg account domainId statement domain s

/-- `aggregate`. -/
def aggregate (cfg : Config A X T₁ T₂) (origin : RawOrigin A) (domainId aggregationId : ℕ)
    (s : State A X T₁ T₂ S M) : DispatchResult A X T₁ T₂ S M := do
  let aggregator ← User.fromOrigin cfg origin
  let domain ← okOr (s.domains.lookup domainId)
    (.error ⟨⟨some cfg.weightInfo.aggregateOnInvalidDomain, .yes⟩, .module .unknownDomainId⟩)
  let (taken, domain, popped) ← unwind (domain.takeAggregation aggregationId)
  let aggregation ← okOr taken
    (.error ⟨⟨some cfg.weightInfo.aggregateOnInvalidId, .yes⟩, .module .invalidAggregationId⟩)
  ensure (domain.aggregateRules.canUserAggregateIt aggregator domain.owner domain.delivery.owner
    aggregation) (.of .badOrigin)
  let root := aggregation.computeReceipt cfg.merkleRoot
  -- The fees are settled one statement after the other, and no failure stops the loop.
  let x := aggregation.statements.toList.foldl
    (settleStatement cfg aggregator domain.delivery.owner) s.chain
  let (domain, changed) := domain.handleHoldState s.submittersAllowlist
  raise (cfg.dispatchAggregation domainId aggregationId root domain.delivery.data.destination
    domain.delivery.data.fee domain.delivery.owner x)
  let weight := (cfg.weightInfo.aggregate aggregation.statements.toList.length).add
    (cfg.dispatchWeight domain.delivery.data.destination)
  return ({ s.deposit
      (popped ++ changed ++ [.newAggregationReceipt domainId aggregationId root]) with
    domains := s.domains.insert domainId domain
    published := s.published ++ [(domainId, aggregation)]
    chain := x }, aggregator.postInfo (some weight))

/-- `on_initialize`: the published aggregations are kept for one block. -/
def onInitialize (s : State A X T₁ T₂ S M) : State A X T₁ T₂ S M := { s with published := [] }

end ZkVerify.Aggregate
