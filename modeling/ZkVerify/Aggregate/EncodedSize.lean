import ZkVerify.Frame.Codec
import ZkVerify.Aggregate.Funds
import ZkVerify.Aggregate.Lifecycle

/-!
# The size of a stored domain

The owner of a domain pays for the storage of `compute_encoded_size` bytes.  This file
encodes a domain as it is stored and compares the length with that size.

`compute_encoded_size` subtracts the longest encodings of the collections from the
longest encoding of a domain and adds those for the sizes of the domain at hand, all with
saturating operations.  When the longest encoding of a domain fits `usize` none of them
saturates, and what remains is `plainDomain`.  The encoding of a domain is not longer,
since its collections keep to its sizes (`DomainEntry.WF`).
-/

namespace ZkVerify.Aggregate

open Frame DomainEntry

variable {A X T₁ T₂ : Type} {S M : ℕ}

/-! ## Encodings -/

/-- The encodings of the types the pallet is configured with. -/
structure Encoders (A T₁ T₂ : Type) where
  account : A → Bytes
  ticketDomain : T₁ → Bytes
  ticketAllowlist : T₂ → Bytes

/-- `MaxEncodedLen` bounds the encodings. -/
structure Encoders.Bounded (E : Encoders A T₁ T₂) (sizes : EncodedSizes) : Prop where
  account : ∀ a, (E.account a).length ≤ sizes.account
  ticketDomain : ∀ ticket, (E.ticketDomain ticket).length ≤ sizes.ticketDomain
  ticketAllowlist : ∀ ticket, (E.ticketAllowlist ticket).length ≤ sizes.ticketAllowlist

def Reserve.encode (reserve : Reserve) : Bytes :=
  littleEndian 16 reserve.aggregate ++ littleEndian 16 reserve.delivery

def DomainState.encode : DomainState → Bytes
  | .ready => [0]
  | .hold => [1]
  | .removable => [2]
  | .removed => [3]

def AggregateSecurityRules.encode : AggregateSecurityRules → Bytes
  | .untrusted => [0]
  | .onlyOwner => [1]
  | .onlyOwnerUncompleted => [2]

def ProofSecurityRules.encode : ProofSecurityRules → Bytes
  | .untrusted => [0]
  | .onlyOwner => [1]
  | .onlyAllowlisted => [2]

def Destination.encode : Destination → Bytes
  | .none => [0]

def Delivery.encode (delivery : Delivery) : Bytes :=
  delivery.destination.encode ++ littleEndian 16 delivery.fee ++ littleEndian 16 delivery.ownerTip

section

variable (E : Encoders A T₁ T₂)

def StatementEntry.encode (entry : StatementEntry A) : Bytes :=
  E.account entry.account ++ entry.reserve.encode ++ hashBytes entry.statement

def AggregationEntry.encode (aggregation : AggregationEntry A S) : Bytes :=
  littleEndian 8 aggregation.id ++ littleEndian 4 aggregation.size ++
    encodeSeq (StatementEntry.encode E) aggregation.statements.toList

def User.encode : User A → Bytes
  | .account a => 0 :: E.account a
  | .manager => [1]

def CountableTicket.encode (ticket : CountableTicket T₂) : Bytes :=
  E.ticketAllowlist ticket.ticket ++ littleEndian 4 ticket.count

def DeliveryParams.encode (params : DeliveryParams A) : Bytes :=
  E.account params.owner ++ params.data.encode

/-- The queue of a domain, in the order of the ids. -/
def encodeShouldPublish (queue : BoundedMap ℕ (AggregationEntry A S) M) : Bytes :=
  encodeSeq (fun entry => littleEndian 8 entry.1 ++ entry.2.encode E) queue.entries

/-- A domain as it is stored, field after field. -/
def DomainEntry.encode (domain : DomainEntry A T₁ T₂ S M) : Bytes :=
  littleEndian 4 domain.id ++ domain.owner.encode E ++ domain.state.encode ++
    domain.next.encode E ++ littleEndian 4 domain.maxAggregationSize ++
    encodeShouldPublish E domain.shouldPublish ++ littleEndian 4 domain.publishQueueSize ++
    encodeOption E.ticketDomain domain.ticketDomain ++
    encodeOption (CountableTicket.encode E) domain.ticketAllowlist ++
    domain.aggregateRules.encode ++ domain.proofRules.encode ++ domain.delivery.encode E

end

@[simp] theorem length_encode_reserve (reserve : Reserve) : reserve.encode.length = 32 := by
  simp [Reserve.encode]

@[simp] theorem length_encode_state (state : DomainState) : state.encode.length = 1 := by
  cases state <;> rfl

@[simp] theorem length_encode_aggregateRules (rules : AggregateSecurityRules) :
    rules.encode.length = 1 := by
  cases rules <;> rfl

@[simp] theorem length_encode_proofRules (rules : ProofSecurityRules) :
    rules.encode.length = 1 := by
  cases rules <;> rfl

@[simp] theorem length_encode_destination (dest : Destination) :
    dest.encode.length = EncodedSizes.destination dest := by
  cases dest
  rfl

@[simp] theorem length_encode_delivery (delivery : Delivery) :
    delivery.encode.length = EncodedSizes.destination delivery.destination + 16 + 16 := by
  simp [Delivery.encode]

/-! ## Sizes without saturation -/

namespace EncodedSizes

variable (sizes : EncodedSizes)

/-- The longest encoding of an aggregation of the given size. -/
def plainAggregation (S size : ℕ) : ℕ := 8 + 4 + (compactLen S + size * sizes.statement)

/-- The longest encoding of a queue of aggregations of the given size. -/
def plainShouldPublish (S M size queue : ℕ) : ℕ :=
  queue * (8 + sizes.plainAggregation S size) + compactLen M

/-- The longest encoding of what is neither a collection nor the destination. -/
def plainFixed : ℕ :=
  4 + (1 + sizes.account) + 1 + 4 + 4 + (1 + sizes.ticketDomain) +
    (1 + (sizes.ticketAllowlist + 4)) + 1 + 1 + (sizes.account + (16 + 16))

/-- The longest encoding of a domain with the given sizes and destination. -/
def plainDomain (S M size queue : ℕ) (dest : Destination) : ℕ :=
  sizes.plainFixed + destination dest + sizes.plainAggregation S size +
    sizes.plainShouldPublish S M size queue

/-- The longest encoding of a domain fits `usize`. -/
def Fits (S M : ℕ) : Prop := sizes.plainDomain S M S M .none ≤ u32Max

instance (S M : ℕ) : Decidable (sizes.Fits S M) :=
  inferInstanceAs (Decidable (sizes.plainDomain S M S M .none ≤ u32Max))

/-- The operations of `AggregationEntry::compute_encoded_size` do not saturate. -/
structure AggregationUnsaturated (S size : ℕ) : Prop where
  items : size * sizes.statement ≤ u32Max
  dynSize : compactLen S + size * sizes.statement ≤ u32Max
  withoutStatements : sizes.statements S ≤ sizes.aggregation S
  total : sizes.aggregation S - sizes.statements S + (compactLen S + size * sizes.statement) ≤
    u32Max

/-- The operations of `DomainEntry::compute_encoded_size` do not saturate. -/
structure DomainUnsaturated (S M size queue : ℕ) (dest : Destination) : Prop where
  aggregation : sizes.AggregationUnsaturated S size
  withoutNext : sizes.aggregation S ≤ sizes.domain S M
  withoutQueue : sizes.shouldPublish S M ≤ sizes.domain S M - sizes.aggregation S
  withoutDestination :
    destinationMax ≤ sizes.domain S M - sizes.aggregation S - sizes.shouldPublish S M
  withDestination : sizes.domain S M - sizes.aggregation S - sizes.shouldPublish S M -
    destinationMax + destination dest ≤ u32Max
  withNext : sizes.domain S M - sizes.aggregation S - sizes.shouldPublish S M - destinationMax +
    destination dest + sizes.computeAggregation S size ≤ u32Max
  entry : 8 + sizes.computeAggregation S size ≤ u32Max
  entries : queue * (8 + sizes.computeAggregation S size) ≤ u32Max
  withLength : queue * (8 + sizes.computeAggregation S size) + compactLen M ≤ u32Max
  total : sizes.domain S M - sizes.aggregation S - sizes.shouldPublish S M - destinationMax +
    destination dest + sizes.computeAggregation S size +
    (queue * (8 + sizes.computeAggregation S size) + compactLen M) ≤ u32Max

variable {sizes} {size size' queue queue' : ℕ}

theorem plainAggregation_mono (S : ℕ) (h : size ≤ size') :
    sizes.plainAggregation S size ≤ sizes.plainAggregation S size' := by
  have hitems := Nat.mul_le_mul_right sizes.statement h
  unfold plainAggregation
  omega

theorem plainShouldPublish_mono (S M : ℕ) (hsize : size ≤ size') (hqueue : queue ≤ queue') :
    sizes.plainShouldPublish S M size queue ≤ sizes.plainShouldPublish S M size' queue' := by
  apply Nat.add_le_add_right
  apply Nat.mul_le_mul hqueue
  exact Nat.add_le_add_left (plainAggregation_mono S hsize) 8

theorem plainDomain_mono (S M : ℕ) (hsize : size ≤ size') (hqueue : queue ≤ queue')
    (dest : Destination) :
    sizes.plainDomain S M size queue dest ≤ sizes.plainDomain S M size' queue' dest := by
  apply Nat.add_le_add
  · exact Nat.add_le_add_left (plainAggregation_mono S hsize) _
  · exact plainShouldPublish_mono S M hsize hqueue

/-- A domain within the bounds of the pallet fits `usize` if the largest one does. -/
theorem Fits.plainDomain_le (h : sizes.Fits S M) (hsize : size ≤ S) (hqueue : queue ≤ M)
    (dest : Destination) : sizes.plainDomain S M size queue dest ≤ u32Max := by
  cases dest
  exact (plainDomain_mono S M hsize hqueue .none).trans h

namespace Fits

theorem statements_eq (h : sizes.Fits S M) :
    sizes.statements S = compactLen S + S * sizes.statement := by
  unfold Fits plainDomain plainAggregation at h
  unfold statements
  rw [saturatingMul_of_le (by omega), saturatingAdd_of_le (by omega)]

theorem aggregation_eq (h : sizes.Fits S M) :
    sizes.aggregation S = sizes.plainAggregation S S := by
  have hstatements := h.statements_eq
  unfold Fits plainDomain plainAggregation at h
  rw [aggregation, hstatements, saturatingAdd_of_le (by omega), plainAggregation]

theorem shouldPublish_eq (h : sizes.Fits S M) :
    sizes.shouldPublish S M = sizes.plainShouldPublish S M S M := by
  have haggregation := h.aggregation_eq
  unfold Fits plainDomain plainShouldPublish plainFixed at h
  rw [shouldPublish, haggregation, saturatingAdd_of_le (a := 8) (by omega),
    saturatingMul_of_le (by omega), saturatingAdd_of_le (by omega), plainShouldPublish]

theorem domain_eq (h : sizes.Fits S M) :
    sizes.domain S M = sizes.plainFixed + destinationMax + sizes.plainAggregation S S +
      sizes.plainShouldPublish S M S M := by
  have hle : sizes.plainFixed + destinationMax + sizes.plainAggregation S S +
      sizes.plainShouldPublish S M S M ≤ u32Max := h
  have hfixed : 4 + (1 + sizes.account) + 1 + 4 + 4 + (1 + sizes.ticketDomain) +
      (1 + (sizes.ticketAllowlist + 4)) + 1 + 1 + (sizes.account + (destinationMax + 16 + 16)) =
        sizes.plainFixed + destinationMax := by
    unfold plainFixed
    omega
  have hnext : sizes.plainFixed + destinationMax + sizes.plainAggregation S S ≤ u32Max :=
    (Nat.le_add_right _ _).trans hle
  rw [domain, h.aggregation_eq, h.shouldPublish_eq, hfixed, saturatingAdd_of_le hnext,
    saturatingAdd_of_le hle]

/-- What a domain has besides its collections and its destination. -/
theorem domain_sub_eq (h : sizes.Fits S M) :
    sizes.domain S M - sizes.aggregation S - sizes.shouldPublish S M - destinationMax =
      sizes.plainFixed := by
  rw [h.domain_eq, h.aggregation_eq, h.shouldPublish_eq]
  omega

theorem aggregation_sub_eq (h : sizes.Fits S M) :
    sizes.aggregation S - sizes.statements S = 8 + 4 := by
  rw [h.aggregation_eq, h.statements_eq, plainAggregation]
  omega

theorem aggregationUnsaturated (h : sizes.Fits S M) (hsize : size ≤ S) :
    sizes.AggregationUnsaturated S size := by
  have hle := h.plainDomain_le hsize le_rfl .none
  unfold plainDomain plainAggregation at hle
  refine ⟨by omega, by omega, ?_, ?_⟩
  · rw [h.aggregation_eq, h.statements_eq]
    exact Nat.le_add_left _ _
  · rw [h.aggregation_sub_eq]
    omega

theorem computeAggregation_eq (h : sizes.Fits S M) (hsize : size ≤ S) :
    sizes.computeAggregation S size = sizes.plainAggregation S size := by
  have hplain := h.aggregationUnsaturated hsize
  rw [computeAggregation, saturatingMul_of_le hplain.items, saturatingAdd_of_le hplain.dynSize,
    saturatingAdd_of_le hplain.total, h.aggregation_sub_eq, plainAggregation]

theorem domainUnsaturated (h : sizes.Fits S M) (hsize : size ≤ S) (hqueue : queue ≤ M)
    (dest : Destination) : sizes.DomainUnsaturated S M size queue dest := by
  have hle := h.plainDomain_le hsize hqueue dest
  have haggregation := h.computeAggregation_eq hsize
  have hsub := h.domain_sub_eq
  have hfixed : 8 ≤ sizes.plainFixed := by
    unfold plainFixed
    omega
  unfold plainDomain plainShouldPublish at hle
  constructor
  case aggregation => exact h.aggregationUnsaturated hsize
  case withoutNext =>
    rw [h.domain_eq, h.aggregation_eq]
    omega
  case withoutQueue =>
    rw [h.domain_eq, h.aggregation_eq, h.shouldPublish_eq]
    omega
  case withoutDestination =>
    rw [h.domain_eq, h.aggregation_eq, h.shouldPublish_eq]
    omega
  -- The rest are parts of the sum `plainDomain`.
  all_goals
    simp only [hsub, haggregation]
    omega

theorem computeDomain_eq (h : sizes.Fits S M) (hsize : size ≤ S) (hqueue : queue ≤ M)
    (dest : Destination) :
    sizes.computeDomain S M size queue dest = sizes.plainDomain S M size queue dest := by
  have hplain := h.domainUnsaturated hsize hqueue dest
  rw [computeDomain, saturatingAdd_of_le hplain.withDestination,
    saturatingAdd_of_le hplain.withNext, saturatingAdd_of_le hplain.entry,
    saturatingMul_of_le hplain.entries, saturatingAdd_of_le hplain.withLength,
    saturatingAdd_of_le hplain.total, h.domain_sub_eq, h.computeAggregation_eq hsize, plainDomain,
    plainShouldPublish]

end Fits

end EncodedSizes

/-! ## The encoding of a domain -/

section

variable {E : Encoders A T₁ T₂} {sizes : EncodedSizes}

namespace Encoders.Bounded

theorem statement (hE : E.Bounded sizes) (entry : StatementEntry A) :
    (entry.encode E).length ≤ sizes.statement := by
  have haccount := hE.account entry.account
  simp only [StatementEntry.encode, EncodedSizes.statement, List.length_append,
    length_encode_reserve, hashBytes, Vector.length_toList]
  omega

theorem aggregation (hE : E.Bounded sizes) {aggregation : AggregationEntry A S} {size : ℕ}
    (hlength : aggregation.statements.toList.length ≤ size) (hsize : size ≤ S) :
    (aggregation.encode E).length ≤ sizes.plainAggregation S size := by
  have hitems : (encodeSeq (StatementEntry.encode E) aggregation.statements.toList).length ≤
      compactLen S + size * sizes.statement :=
    length_encodeSeq_le hlength hsize fun entry _ => hE.statement entry
  simp only [AggregationEntry.encode, EncodedSizes.plainAggregation, List.length_append,
    length_littleEndian]
  omega

theorem shouldPublish (hE : E.Bounded sizes) {queue : BoundedMap ℕ (AggregationEntry A S) M}
    {size length : ℕ} (hlength : queue.length ≤ length) (hM : length ≤ M) (hsize : size ≤ S)
    (hitems : ∀ k aggregation, queue.get k = some aggregation →
      aggregation.statements.toList.length ≤ size) :
    (encodeShouldPublish E queue).length ≤ sizes.plainShouldPublish S M size length := by
  have hentries : ∀ entry ∈ queue.entries,
      (littleEndian 8 entry.1 ++ entry.2.encode E).length ≤ 8 + sizes.plainAggregation S size := by
    intro entry hentry
    have hle := hE.aggregation (hitems _ _ (BoundedMap.mem_entries.mp hentry)) hsize
    rw [List.length_append, length_littleEndian]
    omega
  have hle := length_encodeSeq_le (queue.length_entries_le.trans hlength) hM hentries
  rw [encodeShouldPublish, EncodedSizes.plainShouldPublish, Nat.add_comm]
  exact hle

theorem user (hE : E.Bounded sizes) (user : User A) :
    (user.encode E).length ≤ 1 + sizes.account := by
  cases user with
  | account a =>
      have haccount := hE.account a
      simp only [User.encode, List.length_cons]
      omega
  | manager => exact Nat.le_add_right 1 sizes.account

theorem countableTicket (hE : E.Bounded sizes) (ticket : CountableTicket T₂) :
    (ticket.encode E).length ≤ sizes.ticketAllowlist + 4 := by
  rw [CountableTicket.encode, List.length_append, length_littleEndian]
  exact Nat.add_le_add_right (hE.ticketAllowlist ticket.ticket) 4

/-- A well formed domain has at most the bytes that its sizes and its destination admit. -/
theorem domain (hE : E.Bounded sizes) {D : DomainEntry A T₁ T₂ S M} (hwf : D.WF) :
    (D.encode E).length ≤ sizes.plainDomain S M D.maxAggregationSize D.publishQueueSize
      D.delivery.data.destination := by
  have howner := hE.user D.owner
  have hnext := hE.aggregation hwf.next_length.le hwf.size_le
  have hqueue := hE.shouldPublish hwf.queue_length hwf.queue_le hwf.size_le
    fun k aggregation hget => (hwf.queued k aggregation hget).2.2.2.le
  have hdomain := length_encodeOption_le hE.ticketDomain D.ticketDomain
  have hallowlist := length_encodeOption_le hE.countableTicket D.ticketAllowlist
  have hdelivery := hE.account D.delivery.owner
  simp only [DomainEntry.encode, EncodedSizes.plainDomain, EncodedSizes.plainFixed,
    DeliveryParams.encode, List.length_append, length_littleEndian, length_encode_state,
    length_encode_aggregateRules, length_encode_proofRules, length_encode_delivery]
  omega

end Encoders.Bounded

end

/-! ## The deposit -/

/-- An account that owns a domain bought its ticket for the computed size. -/
def DomainEntry.StoragePaid (cfg : Config A X T₁ T₂) (D : DomainEntry A T₁ T₂ S M) : Prop :=
  ∀ a, D.owner = .account a → ∃ ticket x x', D.ticketDomain = some ticket ∧
    cfg.considerationDomain.new a ⟨1, cfg.encodedSizes.computeDomain S M D.maxAggregationSize
      D.publishQueueSize D.delivery.data.destination⟩ x = .ok (ticket, x')

variable {cfg : Config A X T₁ T₂} {kept : Set HoldReason} {s s' : State A X T₁ T₂ S M} {c : Call A}

theorem DomainEntry.Moved.storagePaid {D D' : DomainEntry A T₁ T₂ S M} (hmoved : D.Moved D')
    (h : D.StoragePaid cfg) : D'.StoragePaid cfg := by
  unfold StoragePaid at h ⊢
  rwa [hmoved.owner, hmoved.ticketDomain, hmoved.maxAggregationSize, hmoved.publishQueueSize,
    hmoved.delivery]

/-- A domain is registered against a deposit for its computed size. -/
theorem storagePaid_of_register {id next size queue : ℕ} {caller : User A} {owner : A}
    {aggregateRules : AggregateSecurityRules} {proofRules : ProofSecurityRules}
    {delivery : Delivery} {ticketDomain : Option T₁}
    {ticketAllowlist : Option (CountableTicket T₂)} {x x' : X} {D : DomainEntry A T₁ T₂ S M}
    (hticket : newTicketDomain cfg S M caller size queue delivery.destination x =
      .ok (ticketDomain, x'))
    (hcreate : tryCreate id caller next size queue aggregateRules proofRules ticketDomain
      ticketAllowlist ⟨owner, delivery⟩ = .ok D) : D.StoragePaid cfg := by
  obtain ⟨-, rfl⟩ := tryCreate_ok hcreate
  rintro a rfl
  obtain ⟨⟨ticket, x₁⟩, hnew, hticket⟩ := seq_eq_ok.mp hticket
  cases hticket
  exact ⟨ticket, x, x', rfl, hnew⟩

variable [DecidableEq A]

/-- No call changes what was paid for. -/
theorem effect_storagePaid (hrep : Represented s)
    (h : ∀ d D, s.domains.lookup d = some D → D.StoragePaid cfg) (heffect : Effect cfg s c s') :
    ∀ d D, s'.domains.lookup d = some D → D.StoragePaid cfg := by
  intro d D' hlookup'
  cases stored_of_effect hrep heffect hlookup' with
  | kept D hlookup hupdated =>
      have hpaid := h d D hlookup
      cases hupdated with
      | moved hmoved => exact hmoved.storagePaid hpaid
      | repriced _ _ _ _ _ hdelivery =>
          subst hdelivery
          exact hpaid
      | recounted ticket hmoved =>
          -- The ticket for the rows is not the one for the storage.
          have hrecounted : StoragePaid cfg { D with ticketAllowlist := ticket } := hpaid
          exact hmoved.storagePaid hrecounted
  | registered _ _ _ hticket hcreate => exact storagePaid_of_register hticket hcreate

theorem Reachable.storagePaid (hs : Reachable cfg kept s) :
    ∀ d D, s.domains.lookup d = some D → D.StoragePaid cfg := by
  obtain ⟨x, steps, rfl⟩ := hs
  refine effect_induction (P := fun s => ∀ d D, s.domains.lookup d = some D → D.StoragePaid cfg)
    (Represented.genesis x) ?_ ?_ ?_
  · intro d D hlookup
    simp [State.genesis] at hlookup
  · intro s c s' _ hrep h heffect
    exact effect_storagePaid hrep h heffect
  · intro s e h
    exact h

/-- The sizes in the runtime: an account has 32 bytes, and a ticket is a balance. -/
def runtimeSizes : EncodedSizes := ⟨32, 16, 16⟩

/-- `AggregateMaxSize`. -/
def aggregateMaxSize : ℕ := 128

/-- `AggregateQueueSize`. -/
def aggregateQueueSize : ℕ := 16

/-- Suppose that the longest encoding of a domain fits `usize`, as it does in the runtime.  In every
reachable state a domain is encoded in at most the bytes that its owner paid for at registration.
For sizes within the bounds of the pallet no operation of `compute_encoded_size` saturates, the
result grows with the sizes, and at the bounds it is the longest encoding of a domain. -/
theorem deposit_covers_domain {E : Encoders A T₁ T₂} (hE : E.Bounded cfg.encodedSizes)
    (hfits : cfg.encodedSizes.Fits S M) (hs : Reachable cfg kept s) :
    (∀ d D, s.domains.lookup d = some D →
      (D.encode E).length ≤ cfg.encodedSizes.computeDomain S M D.maxAggregationSize
        D.publishQueueSize D.delivery.data.destination ∧ D.StoragePaid cfg) ∧
      (∀ size queue dest, size ≤ S → queue ≤ M →
        cfg.encodedSizes.DomainUnsaturated S M size queue dest) ∧
      (∀ size size' queue queue' dest, size ≤ size' → size' ≤ S → queue ≤ queue' → queue' ≤ M →
        cfg.encodedSizes.computeDomain S M size queue dest ≤
          cfg.encodedSizes.computeDomain S M size' queue' dest) ∧
      (∀ dest, EncodedSizes.destination dest = EncodedSizes.destinationMax →
        cfg.encodedSizes.computeDomain S M S M dest = cfg.encodedSizes.domain S M) ∧
      runtimeSizes.Fits aggregateMaxSize aggregateQueueSize := by
  refine ⟨?_, ?_, ?_, ?_, by decide⟩
  · intro d D hlookup
    have hwf := hs.represented.wf d D hlookup
    rw [hfits.computeDomain_eq hwf.size_le hwf.queue_le]
    exact ⟨hE.domain hwf, hs.storagePaid d D hlookup⟩
  · intro size queue dest hsize hqueue
    exact hfits.domainUnsaturated hsize hqueue dest
  · intro size size' queue queue' dest hsize hS hqueue hM
    rw [hfits.computeDomain_eq (hsize.trans hS) (hqueue.trans hM), hfits.computeDomain_eq hS hM]
    exact EncodedSizes.plainDomain_mono S M hsize hqueue dest
  · intro dest hdest
    rw [hfits.computeDomain_eq le_rfl le_rfl, hfits.domain_eq, EncodedSizes.plainDomain, hdest]

/-- The sizes of the pallet's tests. -/
example : (⟨8, 24, 24⟩ : EncodedSizes).computeDomain 64 16 32 8 .none = 21046 := by decide

/-- An account is encoded as one word, and so is a ticket. -/
def sampleEncoders : Encoders ℕ ℕ ℕ := ⟨littleEndian 32, littleEndian 16, littleEndian 16⟩

theorem sampleEncoders_bounded : sampleEncoders.Bounded sampleConfig.encodedSizes where
  account a := (length_littleEndian 32 a).le
  ticketDomain ticket := (length_littleEndian 16 ticket).le
  ticketAllowlist ticket := (length_littleEndian 16 ticket).le

/-- A domain of an account, with two statements on their way to the second aggregation. -/
def sampleStored : List (Step sampleConfig ∅) :=
  [.call (.registerDomain (.signed 3) 2 (some 2) .untrusted .untrusted ⟨.none, 10, 4⟩ none),
    .call (.onProofVerified (some 1) (some 0) (Vector.replicate 32 0)),
    .call (.onProofVerified (some 2) (some 0) (Vector.replicate 32 1)),
    .call (.onProofVerified (some 1) (some 0) (Vector.replicate 32 2))]

theorem deposit_covers_domain_sample :
    let s : State ℕ (Book ℕ HoldReason) ℕ ℕ aggregateMaxSize aggregateQueueSize :=
      run (.genesis sampleBook) sampleStored
    ∃ D, s.domains.lookup 0 = some D ∧ D.maxAggregationSize = 2 ∧ D.publishQueueSize = 2 ∧
      (D.encode sampleEncoders).length ≤
        runtimeSizes.computeDomain aggregateMaxSize aggregateQueueSize 2 2 .none := by
  intro s
  have hstored : ∃ D ∈ s.domains.lookup 0, D.maxAggregationSize = 2 ∧ D.publishQueueSize = 2 := by
    decide
  obtain ⟨D, hlookup, hsize, hqueue⟩ := hstored
  have hcovers := deposit_covers_domain (s := s) sampleEncoders_bounded (by decide)
    ⟨sampleBook, sampleStored, rfl⟩
  refine ⟨D, hlookup, hsize, hqueue, ?_⟩
  have hle := (hcovers.1 0 D hlookup).1
  rw [hsize, hqueue] at hle
  exact hle

end ZkVerify.Aggregate
