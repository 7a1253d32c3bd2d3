import ZkVerify.Frame.Prelude
import ZkVerify.Frame.Collections
import ZkVerify.Frame.Bytes

/-!
# The data of the aggregate pallet

The types of `pallets/aggregate/src/data.rs` and the functions defined next to
them.  `S` is the largest aggregation (`Config::AggregationSize`) and `M` the
longest queue of unpublished aggregations (`Config::MaxPendingPublishQueueSize`);
they bound the collections in the types, as they do in the source.  `A` is the
account type, a balance is a `u128`, and the two ticket types are parameters.

A function of the source that can panic returns an `Except Panic`, with one
constructor of `Panic` for every `assert!`, `expect` and division that the pallet
executes.
-/

namespace ZkVerify.Aggregate

open Frame

/-- The places where the pallet can panic. -/
inductive Panic
  /-- `assert!` in `AggregationEntry::new`. -/
  | aggregationSizeOutOfBound
  /-- First `assert!` in `DomainEntry::create`. -/
  | maxAggregationSizeOutOfBound
  /-- Second `assert!` in `DomainEntry::create`. -/
  | publishQueueSizeOutOfBound
  /-- Division by `next.size` in `reserve_currency`. -/
  | divisionByZero
  /-- `expect` on the release in `reserve_currency`. -/
  | heldAmountNotReleased
  /-- `expect` on the push in `append_statement`. -/
  | appendToFullAggregation
  /-- `expect` on the insertion in `available_aggregation`. -/
  | publishQueueFull
  /-- `expect` on the owner account in `is_authorized_to_add_proof`. -/
  | domainWithoutOwner
  /-- `expect` on the next domain id in `register_domain`. -/
  | domainIdOverflow
deriving DecidableEq, Repr

/-! ## Statements -/

/-- The balances held for one statement. -/
structure Reserve where
  aggregate : ℕ
  delivery : ℕ
deriving DecidableEq, Repr

/-- A statement and the account that pays for it. -/
structure StatementEntry (A : Type) where
  account : A
  reserve : Reserve
  statement : H256
deriving DecidableEq

/-! ## Aggregations -/

/-- An aggregation: the statements collected so far and the number that completes it. -/
structure AggregationEntry (A : Type) (S : ℕ) where
  id : ℕ
  size : ℕ
  statements : BoundedVec (StatementEntry A) S
deriving DecidableEq

namespace AggregationEntry

variable {A : Type} {S : ℕ}

/-- `AggregationEntry::new`. -/
def new (id size : ℕ) (statements : BoundedVec (StatementEntry A) S) :
    Except Panic (AggregationEntry A S) :=
  if size ≤ S then .ok ⟨id, size, statements⟩ else .error .aggregationSizeOutOfBound

/-- `AggregationEntry::create`: an aggregation without statements. -/
def create (id size : ℕ) : Except Panic (AggregationEntry A S) :=
  new id size BoundedVec.empty

/-- `AggregationEntry::create_next`: `None` when there is no next id. -/
def createNext (aggregation : AggregationEntry A S) (size : ℕ) :
    Except Panic (Option (AggregationEntry A S)) :=
  match checkedAdd u64Max aggregation.id 1 with
  | some nextId => do return some (← create nextId size)
  | none => .ok none

/-- `AggregationEntry::space_left`. -/
def spaceLeft (aggregation : AggregationEntry A S) : ℕ :=
  aggregation.size - aggregation.statements.toList.length

/-- `AggregationEntry::completed`. -/
def completed (aggregation : AggregationEntry A S) : Bool :=
  decide (aggregation.spaceLeft = 0)

/-- The hashes of the statements, in the order of their arrival. -/
def hashes (aggregation : AggregationEntry A S) : List H256 :=
  aggregation.statements.toList.map StatementEntry.statement

/-- `AggregationEntry::compute_receipt`, over the Merkle root of a list of leaves. -/
def computeReceipt (merkleRoot : List H256 → H256) (aggregation : AggregationEntry A S) : H256 :=
  merkleRoot aggregation.hashes

end AggregationEntry

/-! ## Domains -/

/-- The state of a domain. -/
inductive DomainState
  | ready
  | hold
  | removable
  | removed
deriving DecidableEq, Repr

/-- Who may call `aggregate` on a domain. -/
inductive AggregateSecurityRules
  | untrusted
  | onlyOwner
  | onlyOwnerUncompleted
deriving DecidableEq, Repr

/-- Who may add proofs to a domain. -/
inductive ProofSecurityRules
  | untrusted
  | onlyOwner
  | onlyAllowlisted
deriving DecidableEq, Repr

/-- Where aggregations are delivered. -/
inductive Destination
  | none
deriving DecidableEq, Repr

/-- How an aggregation is delivered and what it costs. -/
structure Delivery where
  destination : Destination
  fee : ℕ
  ownerTip : ℕ
deriving DecidableEq, Repr

/-- `Delivery::total_fee`: a plain `u128` sum. -/
def Delivery.totalFee (delivery : Delivery) : ℕ :=
  wrappingAdd u128Max delivery.fee delivery.ownerTip

/-- The delivery of a domain and the account that is paid for it. -/
structure DeliveryParams (A : Type) where
  owner : A
  data : Delivery
deriving DecidableEq

namespace DeliveryParams

variable {A : Type}

/-- `DeliveryParams::set_fee`. -/
def setFee (params : DeliveryParams A) (fee : ℕ) : DeliveryParams A :=
  { params with data := { params.data with fee := fee } }

/-- `DeliveryParams::set_owner_tip`. -/
def setOwnerTip (params : DeliveryParams A) (tip : ℕ) : DeliveryParams A :=
  { params with data := { params.data with ownerTip := tip } }

/-- `DeliveryParams::total_fee`. -/
def totalFee (params : DeliveryParams A) : ℕ := params.data.totalFee

end DeliveryParams

/-- A ticket and the number of items it pays for. -/
structure CountableTicket (T : Type) where
  ticket : T
  count : ℕ
deriving DecidableEq

/-- The owner of a domain or the caller of an operation. -/
inductive User (A : Type)
  | account (a : A)
  | manager
deriving DecidableEq

/-- `User::account`. -/
def User.account? {A : Type} : User A → Option A
  | .account a => some a
  | .manager => none

/-- The data stored for a domain. -/
structure DomainEntry (A T₁ T₂ : Type) (S M : ℕ) where
  id : ℕ
  owner : User A
  state : DomainState
  next : AggregationEntry A S
  maxAggregationSize : ℕ
  shouldPublish : BoundedMap ℕ (AggregationEntry A S) M
  publishQueueSize : ℕ
  ticketDomain : Option T₁
  ticketAllowlist : Option (CountableTicket T₂)
  aggregateRules : AggregateSecurityRules
  proofRules : ProofSecurityRules
  delivery : DeliveryParams A

namespace DomainEntry

variable {A T₁ T₂ : Type} {S M : ℕ}

/-- `DomainEntry::create`. -/
def create (id : ℕ) (owner : User A) (nextAggregationId maxAggregationSize publishQueueSize : ℕ)
    (aggregateRules : AggregateSecurityRules) (proofRules : ProofSecurityRules)
    (ticketDomain : Option T₁) (ticketAllowlist : Option (CountableTicket T₂))
    (delivery : DeliveryParams A) : Except Panic (DomainEntry A T₁ T₂ S M) :=
  if ¬ maxAggregationSize ≤ S then .error .maxAggregationSizeOutOfBound
  else if ¬ publishQueueSize ≤ M then .error .publishQueueSizeOutOfBound
  else do
    let next ← AggregationEntry.create nextAggregationId maxAggregationSize
    return {
      id, owner, state := .ready, next, maxAggregationSize, shouldPublish := BoundedMap.empty,
      publishQueueSize, aggregateRules, proofRules, ticketDomain, ticketAllowlist, delivery }

/-- `DomainEntry::can_add_statement`: there is room for one more aggregation in the queue, or
for more than one statement in the next aggregation. -/
def canAddStatement (domain : DomainEntry A T₁ T₂ S M) : Bool :=
  decide (0 < domain.publishQueueSize - domain.shouldPublish.length) ||
    decide (1 < domain.next.spaceLeft)

end DomainEntry

/-! ## Encoded sizes

The size a domain's deposit is computed from.  `usize` has 32 bits in the runtime. -/

/-- The `MaxEncodedLen` of the types the pallet is configured with. -/
structure EncodedSizes where
  account : ℕ
  ticketDomain : ℕ
  ticketAllowlist : ℕ

namespace EncodedSizes

/-- `MaxEncodedLen` of `StatementEntry`. -/
def statement (sizes : EncodedSizes) : ℕ := sizes.account + (16 + 16) + 32

/-- `MaxEncodedLen` of the bounded vector of statements. -/
def statements (sizes : EncodedSizes) (S : ℕ) : ℕ :=
  saturatingAdd u32Max (compactLen S) (saturatingMul u32Max S sizes.statement)

/-- `MaxEncodedLen` of `AggregationEntry`. -/
def aggregation (sizes : EncodedSizes) (S : ℕ) : ℕ :=
  saturatingAdd u32Max (8 + 4) (sizes.statements S)

/-- `MaxEncodedLen` of the bounded map of unpublished aggregations. -/
def shouldPublish (sizes : EncodedSizes) (S M : ℕ) : ℕ :=
  saturatingAdd u32Max (saturatingMul u32Max M (saturatingAdd u32Max 8 (sizes.aggregation S)))
    (compactLen M)

/-- `MaxEncodedLen` of `Destination`. -/
def destinationMax : ℕ := 1

/-- The encoded size of a destination. -/
def destination : Destination → ℕ
  | .none => 1

/-- `MaxEncodedLen` of `DomainEntry`: id, owner, state, next, size, queue, queue size, tickets,
rules, delivery. -/
def domain (sizes : EncodedSizes) (S M : ℕ) : ℕ :=
  let fixed := 4 + (1 + sizes.account) + 1 + 4 + 4 + (1 + sizes.ticketDomain) +
    (1 + (sizes.ticketAllowlist + 4)) + 1 + 1 + (sizes.account + (destinationMax + 16 + 16))
  saturatingAdd u32Max (saturatingAdd u32Max fixed (sizes.aggregation S))
    (sizes.shouldPublish S M)

/-- `AggregationEntry::compute_encoded_size`. -/
def computeAggregation (sizes : EncodedSizes) (S size : ℕ) : ℕ :=
  let dynSize := saturatingAdd u32Max (compactLen S) (saturatingMul u32Max size sizes.statement)
  saturatingAdd u32Max (sizes.aggregation S - sizes.statements S) dynSize

/-- `DomainEntry::compute_encoded_size`. -/
def computeDomain (sizes : EncodedSizes) (S M maxAggregationSize publishQueueSize : ℕ)
    (dest : Destination) : ℕ :=
  let aggregationSize := sizes.computeAggregation S maxAggregationSize
  let fixed := sizes.domain S M - sizes.aggregation S - sizes.shouldPublish S M - destinationMax
  saturatingAdd u32Max
    (saturatingAdd u32Max (saturatingAdd u32Max fixed (destination dest)) aggregationSize)
    (saturatingAdd u32Max
      (saturatingMul u32Max publishQueueSize (saturatingAdd u32Max 8 aggregationSize))
      (compactLen M))

end EncodedSizes

end ZkVerify.Aggregate
