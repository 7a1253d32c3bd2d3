import ZkVerify.Frame.Holds
import ZkVerify.Aggregate.Data

/-!
# What a domain does

The methods of `Domain<T>` in `pallets/aggregate/src/lib.rs`, together with the
configuration they read.  A method that writes the domain returns the new domain,
and one that deposits events returns them in the order in which they are deposited.
The rows of `SubmittersAllowlist` are a finite set of pairs of a domain id and an
account.

The chain state outside the pallet is `X`.  It is read by the fee estimation and
written by the currency and by the two considerations.
-/

namespace ZkVerify.Aggregate

open Frame

/-! ## Configuration -/

/-- The reasons for which the pallet holds balances. -/
inductive HoldReason
  | aggregation
  | domain
  | delivery
  | allowlist
deriving DecidableEq, Repr

/-- The errors of the pallet. -/
inductive Error
  | unknownDomainId
  | invalidAggregationId
  | invalidDomainParams
  | invalidDomainState
  | missedDeliveryOwnership
  | nextAggregationIdUnavailable
deriving DecidableEq, Repr

/-- The weights the pallet reads in its calls. -/
structure WeightInfo where
  aggregate : ℕ → Weight
  aggregateOnInvalidDomain : Weight
  aggregateOnInvalidId : Weight

/-- The configuration of the pallet, for accounts `A`, a chain state `X` and tickets `T₁`, `T₂`. -/
structure Config (A X T₁ T₂ : Type) where
  managerOrigin : RawOrigin A → Bool
  hold : Fungible A HoldReason X (DispatchError Error)
  considerationDomain : Consideration A X T₁ (DispatchError Error)
  considerationAllowList : Consideration A X T₂ (DispatchError Error)
  estimateCallFee : Weight → X → ℕ
  computePublisherTip : ℕ → Option ℕ
  weightInfo : WeightInfo
  dispatchAggregation :
    ℕ → ℕ → H256 → Destination → ℕ → A → X → Except (DispatchError Error) Unit
  dispatchWeight : Destination → Weight
  merkleRoot : List H256 → H256
  encodedSizes : EncodedSizes

/-! ## Events -/

/-- Why a verified proof was not aggregated. -/
inductive CannotAggregateCause
  | noAccount
  | domainNotRegistered (domainId : ℕ)
  | domainStorageFull (domainId : ℕ)
  | insufficientFunds
  | invalidDomainState (domainId : ℕ) (state : DomainState)
  | unauthorizedUser
deriving DecidableEq, Repr

/-- The events of the pallet. -/
inductive Event
  | newDomain (id : ℕ)
  | domainStateChanged (id : ℕ) (state : DomainState)
  | newProof (statement : H256) (domainId aggregationId : ℕ)
  | aggregationComplete (domainId aggregationId : ℕ)
  | newAggregationReceipt (domainId aggregationId : ℕ) (receipt : H256)
  | cannotAggregate (statement : H256) (cause : CannotAggregateCause)
  | domainFull (domainId : ℕ)
deriving DecidableEq

/-- `estimate_publish_aggregation_fee`. -/
def estimatePublishAggregationFee {A X T₁ T₂ : Type} (cfg : Config A X T₁ T₂) (size : ℕ) (x : X) :
    ℕ :=
  cfg.estimateCallFee (cfg.weightInfo.aggregate size) x

namespace DomainEntry

variable {A X T₁ T₂ : Type} {S M : ℕ}

/-! ## Reserving the fees -/

/-- `reserve_currency`: hold the fees of one statement, both or none.  The chain state is
returned with an error too, because the caller does not roll back. -/
def reserveCurrency (cfg : Config A X T₁ T₂) (domain : DomainEntry A T₁ T₂ S M) (account : A)
    (x : X) : Except Panic (Except (DispatchError Error) Reserve × X) :=
  let estimated := estimatePublishAggregationFee cfg domain.maxAggregationSize x
  if domain.next.size = 0 then .error .divisionByZero
  else
    let aggregate :=
      saturatingAdd u128Max estimated ((cfg.computePublisherTip estimated).getD 0) /
        domain.next.size
    let totalFee := domain.delivery.totalFee / domain.next.size
    match cfg.hold.hold .aggregation account aggregate x with
    | .error e => .ok (.error e, x)
    | .ok x₁ =>
        match cfg.hold.hold .delivery account totalFee x₁ with
        | .ok x₂ => .ok (.ok ⟨aggregate, totalFee⟩, x₂)
        | .error e =>
            -- The first hold is undone; `expect` panics if this fails.
            match cfg.hold.release .aggregation account aggregate .exact x₁ with
            | .ok (_, x₂) => .ok (.error e, x₂)
            | .error _ => .error .heldAmountNotReleased

/-! ## Moving aggregations -/

/-- `emit_state_changed_event`. -/
def stateChangedEvent (domain : DomainEntry A T₁ T₂ S M) : Event :=
  .domainStateChanged domain.id domain.state

/-- `pop_next_aggregation`: take the next aggregation if it has statements and start a new one.
When the ids are used up the domain goes on hold with a dummy aggregation. -/
def popNextAggregation (domain : DomainEntry A T₁ T₂ S M) :
    Except Panic (Option (AggregationEntry A S) × DomainEntry A T₁ T₂ S M × List Event) :=
  if domain.next.statements.toList = [] then .ok (none, domain, [])
  else do
    match ← domain.next.createNext domain.next.size with
    | some newAggregation => return (some domain.next, { domain with next := newAggregation }, [])
    | none =>
        -- `checked_add` on the id overflows.
        let held := { domain with state := .hold }
        let dummy ← AggregationEntry.create 0 domain.next.size
        return (some domain.next, { held with next := dummy }, [held.stateChangedEvent])

/-- `take_aggregation`. -/
def takeAggregation (domain : DomainEntry A T₁ T₂ S M) (id : ℕ) :
    Except Panic (Option (AggregationEntry A S) × DomainEntry A T₁ T₂ S M × List Event) :=
  if domain.next.id = id then domain.popNextAggregation
  else .ok (domain.shouldPublish.get id,
    { domain with shouldPublish := domain.shouldPublish.remove id }, [])

/-- `is_next_aggregation_complete`. -/
def isNextAggregationComplete (domain : DomainEntry A T₁ T₂ S M) : Bool :=
  decide (domain.next.size ≤ domain.next.statements.toList.length)

/-- `append_statement`: the completed aggregation, if this statement completes it. -/
def appendStatement (domain : DomainEntry A T₁ T₂ S M) (account : A) (reserve : Reserve)
    (statement : H256) :
    Except Panic (Option (AggregationEntry A S) × DomainEntry A T₁ T₂ S M × List Event) := do
  let statements ←
    okOr (domain.next.statements.tryPush ⟨account, reserve, statement⟩) .appendToFullAggregation
  let appended := { domain with next := { domain.next with statements := statements } }
  if appended.isNextAggregationComplete then appended.popNextAggregation
  else return (none, appended, [])

/-- `available_aggregation`: queue a completed aggregation. -/
def availableAggregation (domain : DomainEntry A T₁ T₂ S M) (aggregation : AggregationEntry A S) :
    Except Panic (DomainEntry A T₁ T₂ S M × List Event) := do
  let shouldPublish ←
    okOr (domain.shouldPublish.tryInsert aggregation.id aggregation) .publishQueueFull
  let full := if domain.publishQueueSize ≤ shouldPublish.length then [.domainFull domain.id] else []
  return ({ domain with shouldPublish := shouldPublish },
    .aggregationComplete domain.id aggregation.id :: full)

/-! ## The deposit for the allowlist -/

/-- The part `increase_footprint_count` and `decrease_footprint_count` share: a domain of the
manager has no ticket, any other pays for the new count. -/
def changeFootprintCount (cfg : Config A X T₁ T₂) (recount : ℕ → Option ℕ)
    (domain : DomainEntry A T₁ T₂ S M) (x : X) :
    Except (DispatchError Error) (DomainEntry A T₁ T₂ S M × X) :=
  match domain.owner.account?, domain.ticketAllowlist with
  | none, _ => .ok (domain, x)
  | some _, none => .ok (domain, x)
  | some owner, some ⟨ticket, count⟩ => do
      let count ← okOr (recount count) (.module .invalidDomainParams)
      let (ticket, x) ← cfg.considerationAllowList.update ticket owner ⟨count, 0⟩ x
      return ({ domain with ticketAllowlist := some ⟨ticket, count⟩ }, x)

/-- `increase_footprint_count`. -/
def increaseFootprintCount (cfg : Config A X T₁ T₂) (domain : DomainEntry A T₁ T₂ S M)
    (amount : ℕ) (x : X) : Except (DispatchError Error) (DomainEntry A T₁ T₂ S M × X) :=
  domain.changeFootprintCount cfg (checkedAdd u32Max · (saturatedInto u32Max amount)) x

/-- `decrease_footprint_count`. -/
def decreaseFootprintCount (cfg : Config A X T₁ T₂) (domain : DomainEntry A T₁ T₂ S M)
    (amount : ℕ) (x : X) : Except (DispatchError Error) (DomainEntry A T₁ T₂ S M × X) :=
  domain.changeFootprintCount cfg (checkedSub · (saturatedInto u32Max amount)) x

variable [DecidableEq A]

/-! ## The hold state -/

/-- `is_allowlist_empty`. -/
def isAllowlistEmpty (domain : DomainEntry A T₁ T₂ S M) (rows : Finset (ℕ × A)) : Bool :=
  decide (domain.proofRules ≠ .onlyAllowlisted) || decide (rows.filter (·.1 = domain.id) = ∅)

/-- `update_hold_state`. -/
def updateHoldState (domain : DomainEntry A T₁ T₂ S M) (rows : Finset (ℕ × A)) :
    DomainEntry A T₁ T₂ S M :=
  { domain with
    state :=
      if domain.shouldPublish.length = 0 ∧ domain.next.statements.toList = [] ∧
          domain.isAllowlistEmpty rows then
        .removable
      else .hold }

/-- `handle_hold_state`: re-evaluate the state of a domain that is not ready. -/
def handleHoldState (domain : DomainEntry A T₁ T₂ S M) (rows : Finset (ℕ × A)) :
    DomainEntry A T₁ T₂ S M × List Event :=
  if domain.state = .ready then (domain, [])
  else
    let updated := domain.updateHoldState rows
    if domain.state = updated.state then (updated, []) else (updated, [updated.stateChangedEvent])

/-! ## The allowlist -/

/-- `is_authorized_to_add_proof`. -/
def isAuthorizedToAddProof (domain : DomainEntry A T₁ T₂ S M) (rows : Finset (ℕ × A))
    (account : A) : Except Panic Bool :=
  match domain.proofRules with
  | .untrusted => .ok true
  | .onlyOwner =>
      match domain.owner.account? with
      | some owner => .ok (decide (account = owner))
      -- The manager's domains have no owner account, and `expect` panics.
      | none => .error .domainWithoutOwner
  | .onlyAllowlisted => .ok (decide ((domain.id, account) ∈ rows))

/-- Insert one row and count it if it was not there. -/
def insertRow (id : ℕ) (acc : Finset (ℕ × A) × ℕ) (submitter : A) : Finset (ℕ × A) × ℕ :=
  if (id, submitter) ∈ acc.1 then acc else (insert (id, submitter) acc.1, acc.2 + 1)

/-- Remove one row and count it if it was there. -/
def removeRow (id : ℕ) (acc : Finset (ℕ × A) × ℕ) (submitter : A) : Finset (ℕ × A) × ℕ :=
  if (id, submitter) ∈ acc.1 then (acc.1.erase (id, submitter), acc.2 + 1) else acc

/-- Insert the submitters one after the other and count those that were not there.  The source's
iterator is lazy: each row is looked up after the rows before it were written. -/
def insertRows (id : ℕ) (rows : Finset (ℕ × A)) (submitters : List A) : Finset (ℕ × A) × ℕ :=
  submitters.foldl (insertRow id) (rows, 0)

/-- Remove the submitters one after the other and count those that were there. -/
def removeRows (id : ℕ) (rows : Finset (ℕ × A)) (submitters : List A) : Finset (ℕ × A) × ℕ :=
  submitters.foldl (removeRow id) (rows, 0)

/-- `add_submitters`. -/
def addSubmitters (cfg : Config A X T₁ T₂) (domain : DomainEntry A T₁ T₂ S M)
    (rows : Finset (ℕ × A)) (submitters : List A) (x : X) :
    Except (DispatchError Error) (DomainEntry A T₁ T₂ S M × Finset (ℕ × A) × X) := do
  let (rows, count) := insertRows domain.id rows submitters
  let (domain, x) ← domain.increaseFootprintCount cfg (saturatedInto u64Max count) x
  return (domain, rows, x)

/-- `remove_submitters`. -/
def removeSubmitters (cfg : Config A X T₁ T₂) (domain : DomainEntry A T₁ T₂ S M)
    (rows : Finset (ℕ × A)) (submitters : List A) (x : X) :
    Except (DispatchError Error) (DomainEntry A T₁ T₂ S M × Finset (ℕ × A) × X) := do
  let (rows, count) := removeRows domain.id rows submitters
  let (domain, x) ← domain.decreaseFootprintCount cfg (saturatedInto u64Max count) x
  return (domain, rows, x)

/-- `try_add_submitters`. -/
def tryAddSubmitters (cfg : Config A X T₁ T₂) (domain : DomainEntry A T₁ T₂ S M)
    (rows : Finset (ℕ × A)) (submitters : List A) (x : X) :
    Except (DispatchError Error) (DomainEntry A T₁ T₂ S M × Finset (ℕ × A) × X) := do
  ensure (decide (domain.proofRules = .onlyAllowlisted)) (.module .invalidDomainParams)
  domain.addSubmitters cfg rows submitters x

/-- `try_remove_submitters`. -/
def tryRemoveSubmitters (cfg : Config A X T₁ T₂) (domain : DomainEntry A T₁ T₂ S M)
    (rows : Finset (ℕ × A)) (submitters : List A) (x : X) :
    Except (DispatchError Error) (DomainEntry A T₁ T₂ S M × Finset (ℕ × A) × X) := do
  ensure (decide (domain.proofRules = .onlyAllowlisted)) (.module .invalidDomainParams)
  domain.removeSubmitters cfg rows submitters x

end DomainEntry

end ZkVerify.Aggregate
