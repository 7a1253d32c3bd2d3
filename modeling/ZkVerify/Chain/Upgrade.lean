import ZkVerify.Aggregate.Migration
import ZkVerify.Chain.Deposits
import ZkVerify.Verifiers.UltrahonkMigration

/-!
# The runtime upgrade

`Unreleased` are the migrations of the next release.  Three of them change the storage of the
pallets: the domains lose their destination, the ultrahonk keys become legacy keys, and all keys of
the TEE verifier are thrown away, because their format has changed, and the deposits for them are
given back.

The last one is the delicate one.  The deposits of all settlement pallets are held under one
reason, an error of a ticket that is dropped is only logged, and the tickets are gone in any case.
If one could not be dropped, its deposit would stay on hold for ever.  `dropTickets_spec` shows that
this does not happen: before every ticket, what is on hold covers the tickets that are left.

`upgrade_preserves` is about the whole: the new chain starts with all invariants that a chain from
the empty storage has, and keeps them.
-/

namespace ZkVerify.Chain

open Frame

/-! ## The storage before the upgrade -/

/-- `v1::OldVk` of the TEE verifier. -/
structure OldTeeVk where
  tcbResponse : ByteVec
  certificates : ByteVec

/-- The verification keys before the upgrade. -/
@[reducible] def Settlement.OldVk : Settlement → Type
  | .other .ultrahonk => Vector UInt8 Verifiers.Ultrahonk.vkSizeV0_84
  | .other .tee => OldTeeVk
  | k => k.Vk

/-- The storage of all pallets before the upgrade. -/
structure OldState (A X T T₁ T₂ : Type) where
  settlement : (k : Settlement) → Verifiers.State A k.OldVk Unit T
  aggregate : Aggregate.V3.State A X T₁ T₂ aggregateMaxSize aggregateQueueSize

variable {A X C T T₁ T₂ : Type} [DecidableEq A]

/-- The orders in which the maps are drained. -/
structure Drains (old : OldState A X T T₁ T₂) where
  domains :
    List (ℕ × Aggregate.V3.DomainEntry A T₁ T₂ aggregateMaxSize aggregateQueueSize)
  ultrahonkVks : List (H256 × Verifiers.VkEntry (Vector UInt8 Verifiers.Ultrahonk.vkSizeV0_84))
  teeVks : List (H256 × Verifiers.VkEntry OldTeeVk)
  teeTickets : List ((A × H256) × T)
  domains_order : Enumerates domains old.aggregate.domains
  ultrahonkVks_order : Enumerates ultrahonkVks (old.settlement (.other .ultrahonk)).vks
  teeVks_order : Enumerates teeVks (old.settlement (.other .tee)).vks
  teeTickets_order : Enumerates teeTickets (old.settlement (.other .tee)).tickets

/-! ## The migrations -/

/-- The entry of a legacy key for an entry without a version. -/
def migrateUltrahonkEntry
    (entry : Verifiers.VkEntry (Vector UInt8 Verifiers.Ultrahonk.vkSizeV0_84)) :
    Verifiers.VkEntry Verifiers.Ultrahonk.VersionedVk :=
  ⟨.legacy entry.vk, entry.refCount⟩

/-- `on_runtime_upgrade` of the ultrahonk verifier, on the entries of the map. -/
def migrateUltrahonk (dbWeight : RuntimeDbWeight)
    (vks : List (H256 × Verifiers.VkEntry (Vector UInt8 Verifiers.Ultrahonk.vkSizeV0_84))) :
    (Finmap fun _ : H256 => Verifiers.VkEntry Verifiers.Ultrahonk.VersionedVk) × Weight :=
  (insertAll (vks.map fun entry => (entry.1, migrateUltrahonkEntry entry.2)),
    dbWeight.readsWrites vks.length (saturatingMul u64Max vks.length 2))

/-- Drop a ticket; an error is only logged. -/
def dropTicket (cfg : Config A X C T T₁ T₂) (x : X) (entry : (A × H256) × T) : X :=
  match cfg.vkRegistration.drop entry.2 entry.1.1 x with
  | .ok x' => x'
  | .error _ => x

/-- `on_runtime_upgrade` of the TEE verifier, which empties both maps. -/
def migrateTee (cfg : Config A X C T T₁ T₂) (dbWeight : RuntimeDbWeight)
    (vks : List (H256 × Verifiers.VkEntry OldTeeVk)) (tickets : List ((A × H256) × T)) (x : X) :
    X × Weight :=
  (tickets.foldl (dropTicket cfg) x,
    dbWeight.readsWrites (vks.length + tickets.length) (vks.length + tickets.length))

/-- The migrations of the pallets in `Unreleased`. -/
def upgrade (cfg : Config A X C T T₁ T₂) (dbWeight : RuntimeDbWeight) (old : OldState A X T T₁ T₂)
    (drains : Drains old) : State A X T T₁ T₂ × Weight :=
  let aggregate := old.aggregate.onRuntimeUpgrade dbWeight drains.domains
  let ultrahonk := migrateUltrahonk dbWeight drains.ultrahonkVks
  let tee := migrateTee cfg dbWeight drains.teeVks drains.teeTickets aggregate.1.chain
  ({ settlement := fun
      | .other .ultrahonk =>
          let s := old.settlement (.other .ultrahonk)
          { disabled := s.disabled, vks := ultrahonk.1, tickets := s.tickets, events := s.events,
            chain := () }
      | .other .tee =>
          let s := old.settlement (.other .tee)
          { disabled := s.disabled, vks := ∅, tickets := ∅, events := s.events, chain := () }
      | .groth16 => old.settlement .groth16
      | .other .fflonk => old.settlement (.other .fflonk)
      | .other .ultraplonk => old.settlement (.other .ultraplonk)
      | .other .ezkl => old.settlement (.other .ezkl)
      | .other .risc0 => old.settlement (.other .risc0)
      | .other .sp1 => old.settlement (.other .sp1)
      | .other .plonky2 => old.settlement (.other .plonky2)
     aggregate := { aggregate.1 with chain := tee.1 } },
    (aggregate.2.saturatingAdd ultrahonk.2).saturatingAdd tee.2)

variable {cfg : Config A X C T T₁ T₂} {old : OldState A X T T₁ T₂}

/-! ## The tickets of the TEE verifier -/

/-- Whatever the order of the tickets is, each of them is dropped, and every account gets back what
its tickets add up to. -/
theorem dropTickets_spec (hcfg : cfg.Lawful) {entries : List ((A × H256) × T)}
    {tickets : Finmap fun _ : A × H256 => T} (horder : Enumerates entries tickets) {rest : A → ℕ}
    {x : X} (hbacked : Backed ((cfg.balances.book x).held .commonVerifiers) rest tickets
      (ticketShare cfg)) :
    (cfg.balances.book x).Repaid .commonVerifiers
      (cfg.balances.book (entries.foldl (dropTicket cfg) x))
      fun y => tickets.total (ticketShare cfg y) := by
  induction entries generalizing tickets x with
  | nil =>
      rw [horder.eq_empty]
      simpa using Book.Repaid.refl .commonVerifiers (cfg.balances.book x)
  | cons entry entries ih =>
      obtain ⟨⟨who, hash⟩, t⟩ := entry
      obtain ⟨hlookup, hrest⟩ := horder.cons
      have hle : cfg.vkRegistration.amount t ≤
          (cfg.balances.book x).held .commonVerifiers who := by
        simpa [ticketShare] using hbacked.share_le hlookup who
      obtain ⟨x', hdrop⟩ := hcfg.vkRegistration.drop_succeeds hle
      have hbook := hcfg.vkRegistration.drop_ok hdrop
      rw [min_eq_left hle] at hbook
      have hstep : (cfg.balances.book x).Repaid .commonVerifiers (cfg.balances.book x')
          fun y => ticketShare cfg y (who, hash) t := by
        rw [hbook]
        exact Book.repaid_release hle
      -- What is left on hold covers what is left of the tickets.
      have hall := hstep.trans (ih hrest (hbacked.erase hlookup hstep.held))
      have htotal : ∀ y, ticketShare cfg y (who, hash) t +
          (tickets.erase (who, hash)).total (ticketShare cfg y) =
            tickets.total (ticketShare cfg y) := fun y => by
        rw [Nat.add_comm, Finmap.total_erase_of_lookup hlookup]
      rw [List.foldl_cons, dropTicket, hdrop]
      simpa only [htotal] using hall

/-! ## What was in order stays in order -/

/-- The hash of a key before the upgrade. -/
def Config.oldVkHash (cfg : Config A X C T T₁ T₂) : (k : Settlement) → k.OldVk → H256
  | .other .ultrahonk, vk => cfg.hashing .sha2_256 vk.toList
  | .other .tee, vk =>
      cfg.hashing .keccak256 (encodeVec vk.tcbResponse ++ encodeVec vk.certificates)
  | .groth16, vk => (cfg.verifier .groth16).vkHash vk
  | .other .fflonk, vk => (cfg.verifier (.other .fflonk)).vkHash vk
  | .other .ultraplonk, vk => (cfg.verifier (.other .ultraplonk)).vkHash vk
  | .other .ezkl, vk => (cfg.verifier (.other .ezkl)).vkHash vk
  | .other .risc0, vk => (cfg.verifier (.other .risc0)).vkHash vk
  | .other .sp1, vk => (cfg.verifier (.other .sp1)).vkHash vk
  | .other .plonky2, vk => (cfg.verifier (.other .plonky2)).vkHash vk

/-- The storage is in order before the upgrade: the registries count their tickets and store the
keys under their hashes, the deposits of all settlement pallets are on hold, and so are the fees of
the pending statements of all domains. -/
structure OldState.InOrder (cfg : Config A X C T T₁ T₂) (old : OldState A X T T₁ T₂) : Prop where
  counted : ∀ k, RefCounted Verifiers.VkEntry.refCount (old.settlement k).tickets
    (old.settlement k).vks
  hashed : ∀ k h entry, (old.settlement k).vks.lookup h = some entry →
    cfg.oldVkHash k entry.vk = h
  held : ∀ y, (cfg.balances.book old.aggregate.chain).held .commonVerifiers y =
    ∑ k, (old.settlement k).tickets.total (ticketShare cfg y)
  represented : Aggregate.V3.Represented old.aggregate
  solvent : ∀ r ∈ Aggregate.feeReasons, ∀ y,
    old.aggregate.due r y ≤ (cfg.balances.book old.aggregate.chain).held (.aggregate r) y

section

variable (dbWeight : RuntimeDbWeight) (drains : Drains old)

theorem lookup_migrateUltrahonk (h : H256) :
    (migrateUltrahonk dbWeight drains.ultrahonkVks).1.lookup h =
      ((old.settlement (.other .ultrahonk)).vks.lookup h).map migrateUltrahonkEntry :=
  drains.ultrahonkVks_order.lookup_insertAll_map migrateUltrahonkEntry h

/-- On the storage itself the migration of the ultrahonk keys is the one on its entries. -/
theorem migrateUltrahonk_raw {m : Finmap fun _ : H256 => Verifiers.Ultrahonk.OldVkEntry}
    {raw : Verifiers.Ultrahonk.RawMap}
    (hstored : Verifiers.Ultrahonk.Stores Verifiers.Ultrahonk.OldVkEntry.encode m raw)
    (hm : ∀ h, (old.settlement (.other .ultrahonk)).vks.lookup h =
      (m.lookup h).map fun entry => ⟨entry.vk, entry.refCount.toNat⟩) :
    ∃ raw' weight processed,
      Verifiers.Ultrahonk.onRuntimeUpgrade dbWeight (raw.keys.card + 1) raw =
        some (raw', weight, processed) ∧
      ∀ h, ((raw'.lookup (Verifiers.Ultrahonk.rawKey h)).bind
          Verifiers.Ultrahonk.NewVkEntry.decode).map Verifiers.Ultrahonk.NewVkEntry.toVkEntry =
        (migrateUltrahonk dbWeight drains.ultrahonkVks).1.lookup h := by
  have hfuel : m.keys.card < raw.keys.card + 1 := Nat.lt_succ_of_le hstored.card_eq.ge
  obtain ⟨raw', weight, processed, hrun, -, -, hlookup, -⟩ :=
    hstored.onRuntimeUpgrade_eq_some dbWeight hfuel
  refine ⟨raw', weight, processed, hrun, fun h => ?_⟩
  rw [hlookup, lookup_migrateUltrahonk, hm]
  cases m.lookup h with
  | none => rfl
  | some entry =>
      simp only [Option.map_some, Option.bind_some, Verifiers.Ultrahonk.NewVkEntry.decode_encode]
      rfl

/-- The registries after the upgrade. -/
theorem registered_upgrade (hold : old.InOrder cfg) (k : Settlement) :
    Verifiers.Registered (cfg.verifiers k) ((upgrade cfg dbWeight old drains).1.view k) := by
  cases k with
  | groth16 => exact ⟨hold.counted .groth16, hold.hashed .groth16⟩
  | other kind =>
      cases kind with
      | fflonk => exact ⟨hold.counted (.other .fflonk), hold.hashed (.other .fflonk)⟩
      | ultraplonk => exact ⟨hold.counted (.other .ultraplonk), hold.hashed (.other .ultraplonk)⟩
      | ezkl => exact ⟨hold.counted (.other .ezkl), hold.hashed (.other .ezkl)⟩
      | risc0 => exact ⟨hold.counted (.other .risc0), hold.hashed (.other .risc0)⟩
      | sp1 => exact ⟨hold.counted (.other .sp1), hold.hashed (.other .sp1)⟩
      | plonky2 => exact ⟨hold.counted (.other .plonky2), hold.hashed (.other .plonky2)⟩
      | ultrahonk =>
          have hlookup := lookup_migrateUltrahonk dbWeight drains
          refine ⟨(hold.counted (.other .ultrahonk)).of_lookup_map hlookup fun _ => rfl, ?_⟩
          intro h entry hentry
          -- A legacy key has the hash that it had without a version.
          obtain ⟨entry', hentry', rfl⟩ := Option.map_eq_some_iff.mp ((hlookup h).symm.trans hentry)
          exact hold.hashed (.other .ultrahonk) h entry' hentry'
      | tee =>
          refine ⟨.empty, fun h entry hentry => ?_⟩
          exact absurd hentry (by simp [upgrade, State.view])

/-- A pallet other than the TEE verifier keeps its tickets. -/
theorem tickets_upgrade {k : Settlement} (hk : k ≠ .other .tee) :
    ((upgrade cfg dbWeight old drains).1.view k).tickets = (old.settlement k).tickets := by
  cases k with
  | groth16 => rfl
  | other kind =>
      cases kind with
      | tee => exact absurd rfl hk
      | fflonk | ultraplonk | ultrahonk | ezkl | risc0 | sp1 | plonky2 => rfl

theorem repaid_upgrade (hcfg : cfg.Lawful) (hold : old.InOrder cfg) :
    (cfg.balances.book old.aggregate.chain).Repaid .commonVerifiers
      (cfg.balances.book (upgrade cfg dbWeight old drains).1.aggregate.chain)
      fun y => (old.settlement (.other .tee)).tickets.total (ticketShare cfg y) := by
  have hbacked : Backed ((cfg.balances.book old.aggregate.chain).held .commonVerifiers)
      (fun y => ∑ k ∈ Finset.univ.erase (.other .tee),
        (old.settlement k).tickets.total (ticketShare cfg y))
      (old.settlement (.other .tee)).tickets (ticketShare cfg) := by
    intro y
    rw [hold.held, Nat.add_comm]
    exact (Finset.add_sum_erase _ _ (Finset.mem_univ _)).symm
  exact dropTickets_spec hcfg drains.teeTickets_order hbacked

/-- What is on hold after the upgrade are the deposits for the tickets that are left. -/
theorem vkHeld_upgrade (hcfg : cfg.Lawful) (hold : old.InOrder cfg) :
    VkHeld cfg (upgrade cfg dbWeight old drains).1 := by
  intro y
  have hrepaid := (repaid_upgrade dbWeight drains hcfg hold).held y
  have hbefore := hold.held y
  rw [← Finset.add_sum_erase _ _ (Finset.mem_univ (.other .tee))] at hbefore
  have hother : (upgrade cfg dbWeight old drains).1.otherDeposits cfg (.other .tee) y =
      ∑ k ∈ Finset.univ.erase (.other .tee),
        (old.settlement k).tickets.total (ticketShare cfg y) := by
    refine Finset.sum_congr rfl fun k hk => ?_
    rw [State.settlementDeposit, tickets_upgrade dbWeight drains (Finset.ne_of_mem_erase hk)]
  have htee : ((upgrade cfg dbWeight old drains).1.view (.other .tee)).tickets = ∅ := rfl
  rw [State.vkDeposits_eq (.other .tee), hother, htee, Finmap.total_empty]
  omega

/-- The fees of the pending statements are still on hold. -/
theorem solvent_upgrade (hcfg : cfg.Lawful) (hold : old.InOrder cfg) :
    Aggregate.Solvent cfg.aggregate (upgrade cfg dbWeight old drains).1.aggregate := by
  intro r hr y
  have hdue : (upgrade cfg dbWeight old drains).1.aggregate.due r y = old.aggregate.due r y :=
    Aggregate.due_upgrade drains.domains_order dbWeight r y
  have hheld := (repaid_upgrade dbWeight drains hcfg hold).others (.aggregate r) (by simp) y
  rw [hdue]
  exact (hold.solvent r hr y).trans hheld.ge

theorem represented_upgrade (hold : old.InOrder cfg) :
    Aggregate.Represented (upgrade cfg dbWeight old drains).1.aggregate :=
  (Aggregate.represented_upgrade drains.domains_order dbWeight hold.represented).of_domains_eq rfl
    rfl

end

/-- The upgrade of a chain that is in order, whatever the order in which its maps are drained.
All keys and tickets of the TEE verifier are gone, and every account has the deposits for them back,
with nothing else moved.  The domains are what they were, without their destinations.  Every
ultrahonk key is a legacy key under the hash that it had, with the count that it had, and the
migration on the encoded storage leaves just these entries.  From then on, in every run, the
deposits on hold are those of the tickets, the registries count their tickets and store the keys
under their hashes, the domains satisfy their invariant and the fees of their pending statements are
on hold. -/
theorem upgrade_preserves (hcfg : cfg.Lawful) (hold : old.InOrder cfg)
    (dbWeight : RuntimeDbWeight) (drains : Drains old) {kept : Set RuntimeHoldReason}
    (hkept : .commonVerifiers ∈ kept) (hfees : ∀ r ∈ Aggregate.feeReasons, .aggregate r ∈ kept) :
    let s := (upgrade cfg dbWeight old drains).1
    ((s.view (.other .tee)).vks = ∅ ∧ (s.view (.other .tee)).tickets = ∅ ∧
      (cfg.balances.book old.aggregate.chain).Repaid .commonVerifiers
        (cfg.balances.book s.aggregate.chain)
        fun y => (old.settlement (.other .tee)).tickets.total (ticketShare cfg y)) ∧
    (∀ d, s.aggregate.domains.lookup d =
      (old.aggregate.domains.lookup d).map Aggregate.V3.DomainEntry.into) ∧
    (∀ h, (s.view (.other .ultrahonk)).vks.lookup h =
      ((old.settlement (.other .ultrahonk)).vks.lookup h).map fun entry =>
        ⟨.legacy entry.vk, entry.refCount⟩) ∧
    (∀ m raw, Verifiers.Ultrahonk.Stores Verifiers.Ultrahonk.OldVkEntry.encode m raw →
      (∀ h, (old.settlement (.other .ultrahonk)).vks.lookup h =
        (m.lookup h).map fun entry => ⟨entry.vk, entry.refCount.toNat⟩) →
      ∃ raw' weight processed,
        Verifiers.Ultrahonk.onRuntimeUpgrade dbWeight (raw.keys.card + 1) raw =
          some (raw', weight, processed) ∧
        ∀ h, ((raw'.lookup (Verifiers.Ultrahonk.rawKey h)).bind
            Verifiers.Ultrahonk.NewVkEntry.decode).map Verifiers.Ultrahonk.NewVkEntry.toVkEntry =
          (s.view (.other .ultrahonk)).vks.lookup h) ∧
    ∀ steps : List (Step cfg kept),
      VkHeld cfg (run s steps) ∧
      (∀ k, Verifiers.Registered (cfg.verifiers k) ((run s steps).view k)) ∧
      Aggregate.Represented (run s steps).aggregate ∧
      Aggregate.Solvent cfg.aggregate (run s steps).aggregate := by
  intro s
  refine ⟨⟨rfl, rfl, repaid_upgrade dbWeight drains hcfg hold⟩,
    Aggregate.lookup_upgrade drains.domains_order dbWeight,
    lookup_migrateUltrahonk dbWeight drains, fun m raw => migrateUltrahonk_raw dbWeight drains,
    fun steps => ?_⟩
  have hwatched : ∀ r ∈ Aggregate.feeReasons, RuntimeHoldReason.aggregate r ∈ kept ∧
      cfg.LeavesAlone (.aggregate r) := fun r hr => ⟨hfees r hr, hcfg.leavesAlone r⟩
  obtain ⟨steps', hsteps⟩ := aggregate_run hwatched s steps
  have hrep : Aggregate.Represented s.aggregate := represented_upgrade dbWeight drains hold
  refine ⟨(vkHeld_upgrade dbWeight drains hcfg hold).run hcfg hkept steps, fun k => ?_, ?_, ?_⟩
  · obtain ⟨steps', hsteps⟩ := view_run k s steps
    rw [hsteps]
    exact Verifiers.registered_run (registered_upgrade dbWeight drains hold k) steps'
  · rw [hsteps]
    exact Aggregate.represented_run hrep steps'
  · rw [hsteps]
    exact Aggregate.solvent_run hcfg.aggregate hrep (solvent_upgrade dbWeight drains hcfg hold)
      steps'

/-- A key of the TEE verifier with nothing in it. -/
def sampleOldTeeVk : OldTeeVk := ⟨.empty, .empty⟩

def sampleOldTeeHash : H256 := sampleConfig.oldVkHash (.other .tee) sampleOldTeeVk

/-- An ultrahonk key of zeros. -/
def sampleOldUltrahonkVk : Vector UInt8 Verifiers.Ultrahonk.vkSizeV0_84 := .replicate _ 0

def sampleOldUltrahonkHash : H256 :=
  sampleConfig.oldVkHash (.other .ultrahonk) sampleOldUltrahonkVk

/-- A domain of the manager for another chain. -/
def sampleOldDomain : Aggregate.V3.DomainEntry ℕ ℕ ℕ aggregateMaxSize aggregateQueueSize where
  id := 0
  owner := .manager
  state := .ready
  next := ⟨1, 2, .empty⟩
  maxAggregationSize := 2
  shouldPublish := .empty
  publishQueueSize := 1
  ticketDomain := none
  ticketAllowlist := none
  aggregateRules := .untrusted
  proofRules := .untrusted
  delivery := ⟨5, ⟨.hyperbridge ⟨.evm 1, .replicate 20 0, 60⟩, 10, 4⟩⟩

/-- Account `2` has registered a key of the TEE verifier for a deposit of `40`, and account `3` an
ultrahonk key for a deposit of `25`. -/
def sampleOld : OldState ℕ (Book ℕ RuntimeHoldReason) ℕ ℕ ℕ where
  settlement
    | .other .tee =>
        { disabled := none, vks := (∅ : Finmap _).insert sampleOldTeeHash ⟨sampleOldTeeVk, 1⟩,
          tickets := (∅ : Finmap _).insert (2, sampleOldTeeHash) 40, events := [], chain := () }
    | .other .ultrahonk =>
        { disabled := none,
          vks := (∅ : Finmap _).insert sampleOldUltrahonkHash ⟨sampleOldUltrahonkVk, 1⟩,
          tickets := (∅ : Finmap _).insert (3, sampleOldUltrahonkHash) 25, events := [],
          chain := () }
    | _ => .genesis ()
  aggregate :=
    { nextDomainId := 1, domains := (∅ : Finmap _).insert 0 sampleOldDomain,
      submittersAllowlist := ∅, published := [], events := [],
      chain := (sampleBook.hold .commonVerifiers 2 40).hold .commonVerifiers 3 25 }

def sampleDrains : Drains sampleOld where
  domains := [(0, sampleOldDomain)]
  ultrahonkVks := [(sampleOldUltrahonkHash, ⟨sampleOldUltrahonkVk, 1⟩)]
  teeVks := [(sampleOldTeeHash, ⟨sampleOldTeeVk, 1⟩)]
  teeTickets := [((2, sampleOldTeeHash), 40)]
  domains_order := .singleton _ _
  ultrahonkVks_order := .singleton _ _
  teeVks_order := .singleton _ _
  teeTickets_order := .singleton _ _

theorem sampleOldDomain_wf : sampleOldDomain.into.WF where
  size_pos := by decide
  size_le := by decide
  next_size := rfl
  next_length := by decide
  queue_le := by decide
  queue_length := Nat.zero_le 1
  queued k aggregation h := by simp [sampleOldDomain, Aggregate.V3.DomainEntry.into] at h
  ids := .inl ⟨by decide, fun k aggregation h => by
    simp [sampleOldDomain, Aggregate.V3.DomainEntry.into] at h⟩

/-- What is on hold for a single ticket. -/
theorem sample_deposits (who : ℕ) (h : H256) (amount y : ℕ) :
    ((∅ : Finmap fun _ : ℕ × H256 => ℕ).insert (who, h) amount).total
      (ticketShare sampleConfig y) = if who = y then amount else 0 := by
  rw [Finmap.total_insert_of_notMem _ Finmap.notMem_empty, Finmap.total_empty, Nat.zero_add]
  rfl

theorem sampleOld_inOrder : sampleOld.InOrder sampleConfig where
  counted k := by
    cases k with
    | groth16 => exact .empty
    | other kind =>
        cases kind with
        | tee | ultrahonk => exact RefCounted.empty.acquire Finmap.notMem_empty rfl
        | fflonk | ultraplonk | ezkl | risc0 | sp1 | plonky2 => exact .empty
  hashed k := by
    cases k with
    | groth16 => intro h entry hentry; simp [sampleOld, Verifiers.State.genesis] at hentry
    | other kind =>
        cases kind with
        | tee | ultrahonk =>
            refine Finmap.forall_lookup_insert rfl fun h entry _ hentry => ?_
            simp at hentry
        | fflonk | ultraplonk | ezkl | risc0 | sp1 | plonky2 =>
            intro h entry hentry
            simp [sampleOld, Verifiers.State.genesis] at hentry
  held y := by
    have hothers : ∀ k ∈ Finset.univ, k ≠ .other .tee ∧ k ≠ .other .ultrahonk →
        (sampleOld.settlement k).tickets.total (ticketShare sampleConfig y) = 0 := by
      rintro k - ⟨htee, hultrahonk⟩
      cases k with
      | groth16 => exact Finmap.total_empty _
      | other kind =>
          cases kind with
          | tee => exact absurd rfl htee
          | ultrahonk => exact absurd rfl hultrahonk
          | fflonk | ultraplonk | ezkl | risc0 | sp1 | plonky2 => exact Finmap.total_empty _
    have hsum := Finset.sum_eq_add_of_mem (Settlement.other .tee) (.other .ultrahonk)
      (Finset.mem_univ _) (Finset.mem_univ _) (by decide) hothers
    refine Eq.trans ?_ hsum.symm
    rw [sampleOld, sample_deposits, sample_deposits]
    have hlast := Book.held_hold_eq (sampleBook.hold .commonVerifiers 2 40) .commonVerifiers 3 y 25
    have hfirst := Book.held_hold_eq sampleBook .commonVerifiers 2 y 40
    exact hlast.trans (congrArg (· + _) (hfirst.trans (Nat.zero_add _)))
  represented := by
    have hempty : ∀ P : Prop, ∀ d D, (∅ : Finmap fun _ : ℕ => Aggregate.V3.DomainEntry ℕ ℕ ℕ
        aggregateMaxSize aggregateQueueSize).lookup d = some D → P := by
      intro P d D h
      simp at h
    refine ⟨Finmap.forall_lookup_insert rfl fun d D _ => hempty _ d D,
      Finmap.forall_lookup_insert (by decide) fun d D _ => hempty _ d D,
      Finmap.forall_lookup_insert ?_ fun d D _ => hempty _ d D⟩
    exact sampleOldDomain_wf
  solvent r _ y := by
    have hdue : sampleOld.aggregate.due r y = 0 := by
      show Finmap.total _ ((∅ : Finmap _).insert _ _) = _
      rw [Finmap.total_insert_of_notMem _ Finmap.notMem_empty, Finmap.total_empty]
      rfl
    rw [hdue]
    exact Nat.zero_le _

/-- Account `2` has its deposit back, and the key of account `3` is a legacy key. -/
theorem upgrade_preserves_sample :
    let s := (upgrade sampleConfig ⟨25, 100⟩ sampleOld sampleDrains).1
    ((sampleConfig.balances.book sampleOld.aggregate.chain).free 2 = vfy - 40 ∧
      (sampleConfig.balances.book s.aggregate.chain).free 2 = vfy) ∧
    (s.view (.other .ultrahonk)).vks.lookup sampleOldUltrahonkHash =
      some ⟨.legacy sampleOldUltrahonkVk, 1⟩ ∧
    (sampleConfig.balances.book s.aggregate.chain).held .commonVerifiers 3 = 25 := by
  obtain ⟨⟨-, -, hrepaid⟩, -, hlegacy, -⟩ := upgrade_preserves sampleConfig_lawful
    sampleOld_inOrder ⟨25, 100⟩ sampleDrains (Set.mem_univ _) (fun _ _ => Set.mem_univ _)
  refine ⟨⟨rfl, (hrepaid.free 2).trans ?_⟩, (hlegacy _).trans ?_,
    Eq.trans (Nat.add_zero _).symm ((congrArg _ ?_).trans (hrepaid.held 3))⟩
  · rw [sampleOld, sample_deposits]
    rfl
  · rw [sampleOld, Finmap.lookup_insert]
    rfl
  · rw [sampleOld, sample_deposits]
    rfl

end ZkVerify.Chain
