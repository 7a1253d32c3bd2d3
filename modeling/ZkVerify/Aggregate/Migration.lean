import ZkVerify.Frame.Enumerate
import ZkVerify.Frame.Weights
import ZkVerify.Aggregate.Solvency

/-!
# The migration of the domains

In version 3 of the storage a domain could be delivered to another chain.  The migration to version
4 drains the domains and inserts them again, without their destination.  Everything else of a
domain is kept: its aggregations and what is on hold for their statements, its rules, its tickets
and the fees of its delivery.

So the invariants of the pallet that do not read the destination hold after the migration if they
held before: `represented_upgrade`, and `due_upgrade` for what has to be on hold.
-/

namespace ZkVerify.Aggregate

open Frame

/-! ## The storage of version 3 -/

namespace V3

inductive BoundedStateMachine
  | evm (id : UInt32)
  | polkadot (id : UInt32)
  | kusama (id : UInt32)
  | substrate (id : Vector UInt8 4)
  | tendermint (id : Vector UInt8 4)
deriving DecidableEq

structure HyperbridgeDispatchParameters where
  destinationChain : BoundedStateMachine
  destinationModule : Vector UInt8 20
  timeout : UInt64
deriving DecidableEq

inductive Destination
  | none
  | hyperbridge (params : HyperbridgeDispatchParameters)
deriving DecidableEq

structure Delivery where
  destination : Destination
  fee : ℕ
  ownerTip : ℕ
deriving DecidableEq

structure DeliveryParams (A : Type) where
  owner : A
  data : Delivery
deriving DecidableEq

structure DomainEntry (A T₁ T₂ : Type) (S M : ℕ) where
  id : ℕ
  owner : User A
  state : DomainState
  next : AggregationEntry A S
  maxAggregationSize : ℕ
  shouldPublish : BoundedMap ℕ (AggregationEntry A S) M
  publishQueueSize : ℕ
  ticketDomain : Option T₁
  ticketAllowlist : Option (CountableTicket T₂)
  aggregateRules : AggregateSecurityRules
  proofRules : ProofSecurityRules
  delivery : DeliveryParams A

/-- The storage of the pallet. -/
structure State (A X T₁ T₂ : Type) (S M : ℕ) where
  nextDomainId : ℕ
  domains : Finmap fun _ : ℕ => DomainEntry A T₁ T₂ S M
  submittersAllowlist : Finset (ℕ × A)
  published : List (ℕ × AggregationEntry A S)
  events : List Event
  chain : X

end V3

variable {A X T₁ T₂ : Type} {S M : ℕ}

/-! ## The migration -/

/-- `From<v3::Delivery>`. -/
def V3.Delivery.into (delivery : V3.Delivery) : Aggregate.Delivery :=
  { destination := .none, fee := delivery.fee, ownerTip := delivery.ownerTip }

/-- `From<v3::DeliveryParams>`. -/
def V3.DeliveryParams.into (params : V3.DeliveryParams A) : Aggregate.DeliveryParams A :=
  { owner := params.owner, data := params.data.into }

/-- `From<v3::Domain>`. -/
def V3.DomainEntry.into (domain : V3.DomainEntry A T₁ T₂ S M) :
    Aggregate.DomainEntry A T₁ T₂ S M where
  id := domain.id
  owner := domain.owner
  state := domain.state
  next := domain.next
  maxAggregationSize := domain.maxAggregationSize
  shouldPublish := domain.shouldPublish
  publishQueueSize := domain.publishQueueSize
  ticketDomain := domain.ticketDomain
  ticketAllowlist := domain.ticketAllowlist
  aggregateRules := domain.aggregateRules
  proofRules := domain.proofRules
  delivery := domain.delivery.into

/-- `on_runtime_upgrade`, on the domains in the order in which they are drained. -/
def V3.State.onRuntimeUpgrade (dbWeight : RuntimeDbWeight)
    (oldStorage : List (ℕ × V3.DomainEntry A T₁ T₂ S M)) (s : V3.State A X T₁ T₂ S M) :
    Aggregate.State A X T₁ T₂ S M × Weight :=
  let converted := oldStorage.map fun entry => (entry.1, entry.2.into)
  ({ nextDomainId := s.nextDomainId
     domains := insertAll converted
     submittersAllowlist := s.submittersAllowlist
     published := s.published
     events := s.events
     chain := s.chain },
    dbWeight.readsWrites oldStorage.length (oldStorage.length + converted.length))

/-! ## What is kept -/

/-- The storage was in order: `Represented`, for domains of version 3. -/
structure V3.Represented (s : V3.State A X T₁ T₂ S M) : Prop where
  id_eq : ∀ d D, s.domains.lookup d = some D → D.id = d
  id_lt : ∀ d D, s.domains.lookup d = some D → d < s.nextDomainId
  wf : ∀ d D, s.domains.lookup d = some D → D.into.WF

section

variable {s : V3.State A X T₁ T₂ S M} {oldStorage : List (ℕ × V3.DomainEntry A T₁ T₂ S M)}
  (horder : Enumerates oldStorage s.domains) (dbWeight : RuntimeDbWeight)

include horder

theorem lookup_upgrade (d : ℕ) :
    (s.onRuntimeUpgrade dbWeight oldStorage).1.domains.lookup d =
      (s.domains.lookup d).map V3.DomainEntry.into :=
  horder.lookup_insertAll_map V3.DomainEntry.into d

/-- A domain after the migration was there before. -/
theorem exists_of_lookup_upgrade {d : ℕ} {D' : DomainEntry A T₁ T₂ S M}
    (h : (s.onRuntimeUpgrade dbWeight oldStorage).1.domains.lookup d = some D') :
    ∃ D, s.domains.lookup d = some D ∧ D.into = D' := by
  rwa [lookup_upgrade horder, Option.map_eq_some_iff] at h

theorem represented_upgrade (h : V3.Represented s) :
    Represented (s.onRuntimeUpgrade dbWeight oldStorage).1 := by
  constructor <;> intro d D' hlookup <;>
    obtain ⟨D, hD, rfl⟩ := exists_of_lookup_upgrade horder dbWeight hlookup
  · exact h.id_eq d D hD
  · exact h.id_lt d D hD
  · exact h.wf d D hD

end

variable [DecidableEq A]

/-- What `y` had to have on hold for all pending statements. -/
def V3.State.due (r : HoldReason) (y : A) (s : V3.State A X T₁ T₂ S M) : ℕ :=
  s.domains.total fun _ D => D.into.due r y

/-- The same is due as before. -/
theorem due_upgrade {s : V3.State A X T₁ T₂ S M}
    {oldStorage : List (ℕ × V3.DomainEntry A T₁ T₂ S M)}
    (horder : Enumerates oldStorage s.domains) (dbWeight : RuntimeDbWeight) (r : HoldReason)
    (y : A) : (s.onRuntimeUpgrade dbWeight oldStorage).1.due r y = s.due r y :=
  Finmap.total_of_lookup_map (lookup_upgrade horder dbWeight) _

end ZkVerify.Aggregate
