import ZkVerify.Frame.Drain
import ZkVerify.Frame.Weights
import ZkVerify.Verifiers.Binding

/-!
# The migration of the ultrahonk keys

Before there were versions, a registered key was an array of bytes.  The migration turns
every such key into a legacy key and leaves everything else as it is.  It drains the old map
and inserts into the new one, but the two are the same part of the storage, seen with two
encodings.  So the model is one of the storage: raw keys and raw values.

A legacy key is hashed like a key without a version, so that the entries stay where they are
and the tickets for them remain valid.
-/

namespace ZkVerify.Verifiers.Ultrahonk

open Frame

/-! ## Raw storage -/

/-- The part of a storage key after the prefix of the map. -/
abbrev RawKey := List (Fin 256)

/-- The storage of a map. -/
abbrev RawMap := Finmap fun _ : RawKey => Bytes

/-- The raw key of a hash: the hasher is `Identity`. -/
def rawKey (h : H256) : RawKey := (hashBytes h).map UInt8.toFin

/-- `decode` of a raw key. -/
def readKey (k : RawKey) : Option H256 := (readArray 32 (k.map UInt8.ofFin)).map Prod.fst

@[simp] theorem readKey_rawKey (h : H256) : readKey (rawKey h) = some h := by
  have hid : UInt8.ofFin ∘ UInt8.toFin = id := rfl
  have hbytes : (rawKey h).map UInt8.ofFin = h.toList ++ [] := by
    rw [rawKey, List.map_map, hid, List.map_id, List.append_nil, hashBytes]
  rw [readKey, hbytes, readArray_append, Option.map_some]

theorem rawKey_injective : Function.Injective rawKey := fun h h' heq =>
  Option.some.inj (by rw [← readKey_rawKey h, heq, readKey_rawKey])

/-- The storage of the map `m` whose values are encoded with `encode`. -/
structure Stores {E : Type} (encode : E → Bytes) (m : Finmap fun _ : H256 => E) (raw : RawMap) :
    Prop where
  lookup_eq : ∀ h, raw.lookup (rawKey h) = (m.lookup h).map encode
  mem_keys : ∀ k ∈ raw, ∃ h, k = rawKey h

theorem Stores.keys_eq {E : Type} {encode : E → Bytes} {m : Finmap fun _ : H256 => E}
    {raw : RawMap} (h : Stores encode m raw) : raw.keys = m.keys.image rawKey := by
  ext k
  rw [Finset.mem_image, Finmap.mem_keys]
  constructor
  · intro hk
    obtain ⟨hash, rfl⟩ := h.mem_keys k hk
    refine ⟨hash, ?_, rfl⟩
    rw [Finmap.mem_keys, ← Finmap.lookup_isSome]
    rw [← Finmap.lookup_isSome, h.lookup_eq, Option.isSome_map] at hk
    exact hk
  · rintro ⟨hash, hhash, rfl⟩
    rw [← Finmap.lookup_isSome, h.lookup_eq, Option.isSome_map, Finmap.lookup_isSome]
    exact Finmap.mem_keys.mp hhash

theorem Stores.card_eq {E : Type} {encode : E → Bytes} {m : Finmap fun _ : H256 => E}
    {raw : RawMap} (h : Stores encode m raw) : raw.keys.card = m.keys.card := by
  rw [h.keys_eq, Finset.card_image_of_injective _ rawKey_injective]

theorem stores_empty {E : Type} (encode : E → Bytes) : Stores encode ∅ ∅ where
  lookup_eq _ := by simp
  mem_keys _ hk := absurd hk Finmap.notMem_empty

theorem Stores.insert {E : Type} {encode : E → Bytes} {m : Finmap fun _ : H256 => E}
    {raw : RawMap} (h : Stores encode m raw) (hash : H256) (entry : E) :
    Stores encode (m.insert hash entry) (raw.insert (rawKey hash) (encode entry)) where
  lookup_eq hash' := by
    by_cases hhash : hash' = hash
    · rw [hhash, Finmap.lookup_insert, Finmap.lookup_insert, Option.map_some]
    · rw [Finmap.lookup_insert_of_ne _ hhash,
        Finmap.lookup_insert_of_ne _ (rawKey_injective.ne hhash), h.lookup_eq]
  mem_keys k hk := by
    rcases Finmap.mem_insert.mp hk with rfl | hk
    · exact ⟨hash, rfl⟩
    · exact h.mem_keys k hk

/-! ## Entries -/

/-- `v1::OldVkEntry`. -/
structure OldVkEntry where
  vk : Vector UInt8 vkSizeV0_84
  refCount : UInt64

def OldVkEntry.encode (entry : OldVkEntry) : Bytes :=
  entry.vk.toList ++ littleEndian 8 entry.refCount.toNat

/-- Bytes after the entry are ignored. -/
def OldVkEntry.decode (bytes : Bytes) : Option OldVkEntry := do
  let (vk, bytes) ← readArray vkSizeV0_84 bytes
  let (refCount, _) ← readU64 bytes
  return ⟨vk, refCount⟩

@[simp] theorem OldVkEntry.decode_encode (entry : OldVkEntry) :
    decode entry.encode = some entry := by
  have hcount := readU64_append entry.refCount []
  rw [List.append_nil] at hcount
  simp only [decode, encode, readArray_append, hcount, Option.bind_eq_bind, Option.bind_some]
  rfl

/-- `v2::NewVkEntry`. -/
structure NewVkEntry where
  vk : VersionedVk
  refCount : UInt64

def NewVkEntry.encode (entry : NewVkEntry) : Bytes :=
  entry.vk.encode ++ littleEndian 8 entry.refCount.toNat

/-- `decode` of a key, and what follows it. -/
def VersionedVk.decode : Bytes → Option (VersionedVk × Bytes)
  | [] => none
  | tag :: bytes =>
      if tag = 0 then (readArray vkSizeV0_84 bytes).map fun (vk, rest) => (.v0_84 vk, rest)
      else if tag = 1 then (readArray vkSizeV3_0 bytes).map fun (vk, rest) => (.v3_0 vk, rest)
      else if tag = 2 then (readArray vkSizeV0_84 bytes).map fun (vk, rest) => (.legacy vk, rest)
      else none

def NewVkEntry.decode (bytes : Bytes) : Option NewVkEntry := do
  let (vk, bytes) ← VersionedVk.decode bytes
  let (refCount, _) ← readU64 bytes
  return ⟨vk, refCount⟩

theorem VersionedVk.decode_encode (vk : VersionedVk) (rest : Bytes) :
    decode (vk.encode ++ rest) = some (vk, rest) := by
  cases vk <;> simp [decode, encode, readArray_append]

@[simp] theorem NewVkEntry.decode_encode (entry : NewVkEntry) :
    decode entry.encode = some entry := by
  have hcount := readU64_append entry.refCount []
  rw [List.append_nil] at hcount
  simp only [decode, encode, VersionedVk.decode_encode, hcount, Option.bind_eq_bind,
    Option.bind_some]
  rfl

/-- The entry, as the pallet has it. -/
def NewVkEntry.toVkEntry (entry : NewVkEntry) : VkEntry VersionedVk :=
  ⟨entry.vk, entry.refCount.toNat⟩

/-! ## The migration -/

/-- `decode` of an entry of the old map, with its key. -/
def decodeItem (k : RawKey) (raw : Bytes) : Option (H256 × OldVkEntry) := do
  let hash ← readKey k
  let oldEntry ← OldVkEntry.decode raw
  return (hash, oldEntry)

/-- The new entry for an old one. -/
def OldVkEntry.migrate (oldEntry : OldVkEntry) : NewVkEntry :=
  ⟨.legacy oldEntry.vk, oldEntry.refCount⟩

/-- The body of the loop: insert the new entry and count. -/
def migrateItem (item : H256 × OldVkEntry) (raw : RawMap) (count : ℕ) : RawMap × ℕ :=
  (raw.insert (rawKey item.1) item.2.migrate.encode, wrappingAdd u64Max count 1)

/-- `on_runtime_upgrade`: the storage afterwards, the weight and the entries that the loop
processed. -/
def onRuntimeUpgrade (dbWeight : RuntimeDbWeight) (fuel : ℕ) (raw : RawMap) :
    Option (RawMap × Weight × List (H256 × OldVkEntry)) := do
  let (raw, count, processed) ← drainFor decodeItem migrateItem fuel none raw 0
  return (raw, dbWeight.readsWrites count (saturatingMul u64Max count 2), processed)

/-! ## What the migration does -/

section

variable {m : Finmap fun _ : H256 => OldVkEntry} {raw : RawMap}

/-- The old entries, as the iterator reads them. -/
theorem Stores.itemAt_eq (h : Stores OldVkEntry.encode m raw) (hash : H256) :
    itemAt decodeItem raw (rawKey hash) = (m.lookup hash).map fun entry => (hash, entry) := by
  rw [itemAt, h.lookup_eq]
  cases m.lookup hash with
  | none => rfl
  | some entry =>
      simp only [Option.map_some, Option.bind_some, decodeItem, readKey_rawKey,
        OldVkEntry.decode_encode, Option.bind_eq_bind, Option.pure_def]

/-- The loop processes every entry of the map once. -/
theorem Stores.processed (h : Stores OldVkEntry.encode m raw) :
    let processed := raw.keys.sort.filterMap (itemAt decodeItem raw)
    (processed.map Prod.fst).Nodup ∧ processed.length = m.keys.card ∧
      ∀ hash entry, (hash, entry) ∈ processed ↔ m.lookup hash = some entry := by
  intro processed
  -- The raw keys of what is processed are those of the map, in their order.
  have hkeys : processed.map (fun item => rawKey item.1) = raw.keys.sort := by
    have hread : ∀ k ∈ raw.keys.sort,
        (itemAt decodeItem raw k).map (fun item => rawKey item.1) = some k := by
      intro k hk
      rw [Finset.mem_sort, h.keys_eq, Finset.mem_image] at hk
      obtain ⟨hash, hhash, rfl⟩ := hk
      obtain ⟨entry, hentry⟩ := Finmap.mem_iff.mp (Finmap.mem_keys.mp hhash)
      rw [h.itemAt_eq, hentry]
      rfl
    rw [List.map_filterMap, List.filterMap_congr hread, List.filterMap_some]
  refine ⟨?_, ?_, fun hash entry => ?_⟩
  · have hnodup : ((processed.map Prod.fst).map rawKey).Nodup := by
      rw [List.map_map]
      exact hkeys ▸ Finset.sort_nodup _ _
    exact hnodup.of_map _
  · rw [← List.length_map (fun item => rawKey item.1), hkeys, Finset.length_sort, h.card_eq]
  · rw [List.mem_filterMap]
    constructor
    · rintro ⟨k, hk, hitem⟩
      rw [Finset.mem_sort, h.keys_eq, Finset.mem_image] at hk
      obtain ⟨hash', -, rfl⟩ := hk
      rw [h.itemAt_eq, Option.map_eq_some_iff] at hitem
      obtain ⟨entry', hentry', heq⟩ := hitem
      cases heq
      exact hentry'
    · intro hentry
      refine ⟨rawKey hash, ?_, by rw [h.itemAt_eq, hentry]; rfl⟩
      rw [Finset.mem_sort, h.keys_eq]
      exact Finset.mem_image_of_mem _ (Finmap.mem_keys.mpr (Finmap.mem_of_lookup_eq_some hentry))

/-- The count of a loop with `n` rounds. -/
theorem foldl_count (items : List (H256 × OldVkEntry)) (count : ℕ)
    (hle : count + items.length ≤ u64Max) :
    items.foldl (fun count _ => wrappingAdd u64Max count 1) count = count + items.length := by
  induction items generalizing count with
  | nil => rfl
  | cons item items ih =>
      rw [List.length_cons] at hle
      have hadd : wrappingAdd u64Max count 1 = count + 1 := Nat.mod_eq_of_lt (by omega)
      rw [List.foldl_cons, hadd, ih (count + 1) (by omega), List.length_cons]
      omega

/-- A count of writes beyond the greatest word has the same weight as the greatest word. -/
theorem readsWrites_saturatingMul (w : RuntimeDbWeight) (n : ℕ) :
    w.readsWrites n (saturatingMul u64Max n 2) = w.readsWrites n (2 * n) := by
  have hsaturated : saturatingMul u64Max w.write (saturatingMul u64Max n 2) =
      saturatingMul u64Max w.write (2 * n) := by
    unfold saturatingMul
    rw [Nat.mul_comm n 2]
    rcases Nat.le_total (2 * n) u64Max with hle | hge
    · rw [min_eq_left hle]
    · rw [min_eq_right hge]
      rcases Nat.eq_zero_or_pos w.write with hzero | hpos
      · rw [hzero, Nat.zero_mul, Nat.zero_mul]
      · rw [min_eq_right (Nat.le_mul_of_pos_left _ hpos),
          min_eq_right (hge.trans (Nat.le_mul_of_pos_left _ hpos))]
  rw [RuntimeDbWeight.readsWrites, RuntimeDbWeight.writes, hsaturated]
  rfl

/-- The storage after the migration: the same keys, with the new entries. -/
theorem Stores.onRuntimeUpgrade_eq_some (h : Stores OldVkEntry.encode m raw)
    (dbWeight : RuntimeDbWeight) {fuel : ℕ} (hfuel : m.keys.card < fuel) :
    ∃ raw' weight processed,
      onRuntimeUpgrade dbWeight fuel raw = some (raw', weight, processed) ∧
      processed = raw.keys.sort.filterMap (itemAt decodeItem raw) ∧
      (m.keys.card ≤ u64Max →
        weight = dbWeight.readsWrites m.keys.card (2 * m.keys.card)) ∧
      (∀ hash, raw'.lookup (rawKey hash) =
        (m.lookup hash).map fun entry => entry.migrate.encode) ∧
      ∀ k ∈ raw', ∃ hash, k = rawKey hash := by
  have hbody : ∀ k ∈ raw, ∀ value item, decodeItem k value = some item → ∀ raw₁ count,
      migrateItem item raw₁ count =
        (raw₁.insert k item.2.migrate.encode, wrappingAdd u64Max count 1) := by
    intro k hk value item hitem raw₁ count
    obtain ⟨hash, rfl⟩ := h.mem_keys k hk
    simp only [decodeItem, readKey_rawKey, Option.bind_eq_bind, Option.bind_some] at hitem
    obtain ⟨entry, -, hitem⟩ := Option.bind_eq_some_iff.mp hitem
    cases hitem
    rfl
  obtain ⟨raw', processed, hrun, hprocessed, hlookup⟩ :=
    drainFor_eq_some (fun item : H256 × OldVkEntry => item.2.migrate.encode)
      (fun _ count => wrappingAdd u64Max count 1) hbody (h.card_eq ▸ hfuel) 0
  refine ⟨raw', dbWeight.readsWrites (processed.foldl (fun count _ => wrappingAdd u64Max count 1) 0)
    (saturatingMul u64Max (processed.foldl (fun count _ => wrappingAdd u64Max count 1) 0) 2),
    processed, ?_, hprocessed, fun hle => ?_, fun hash => ?_, fun k hk => ?_⟩
  · rw [onRuntimeUpgrade, hrun]
    rfl
  · have hlength : processed.length = m.keys.card := hprocessed ▸ h.processed.2.1
    rw [foldl_count processed 0 (by omega), Nat.zero_add, hlength, readsWrites_saturatingMul]
  · rw [hlookup, h.itemAt_eq, Option.map_map]
    rfl
  · rw [← Finmap.lookup_isSome, hlookup, Option.isSome_map, Option.isSome_iff_exists] at hk
    obtain ⟨item, hitem⟩ := hk
    obtain ⟨value, hvalue, -⟩ := Option.bind_eq_some_iff.mp hitem
    exact h.mem_keys k (Finmap.mem_of_lookup_eq_some hvalue)

end

/-- The migration of a map whose entries are stored under the hashes of their keys.  It ends, every
entry is processed once, and the new map has the same hashes with legacy keys, which have these
hashes, and the old counts.  So counts that agree with the tickets still do, and the statement of a
legacy proof is what it was before there were versions. -/
theorem migration_preserves_registry {A T X : Type} [DecidableEq A] (H : Hashing) (crate : Crate)
    {m : Finmap fun _ : H256 => OldVkEntry} {raw : RawMap}
    (hstored : Stores OldVkEntry.encode m raw)
    (hhash : ∀ h entry, m.lookup h = some entry → H .sha2_256 entry.vk.toList = h)
    (dbWeight : RuntimeDbWeight) {fuel : ℕ} (hfuel : m.keys.card < fuel) :
    ∃ raw' weight processed, ∃ m' : Finmap fun _ : H256 => VkEntry VersionedVk,
      onRuntimeUpgrade dbWeight fuel raw = some (raw', weight, processed) ∧
      ((processed.map Prod.fst).Nodup ∧
        ∀ h entry, (h, entry) ∈ processed ↔ m.lookup h = some entry) ∧
      ((∀ h, ((raw'.lookup (rawKey h)).bind NewVkEntry.decode).map NewVkEntry.toVkEntry =
        m'.lookup h) ∧ ∀ k ∈ raw', ∃ h, k = rawKey h) ∧
      (∀ h, m'.lookup h =
        (m.lookup h).map fun entry => ⟨.legacy entry.vk, entry.refCount.toNat⟩) ∧
      (∀ h entry, m'.lookup h = some entry →
        (verifier H crate : Verifier _ _ _ X).vkHash entry.vk = h) ∧
      (∀ tickets : Finmap fun _ : A × H256 => T,
        ((∀ h entry, m.lookup h = some entry →
            entry.refCount.toNat = (holders tickets h).card) →
          ∀ h entry, m'.lookup h = some entry → entry.refCount = (holders tickets h).card) ∧
        (RefCounted (fun entry => entry.refCount.toNat) tickets m →
          RefCounted VkEntry.refCount tickets m')) ∧
      (∀ h entry, m'.lookup h = some entry → ∀ proof pubs, ∀ vkOrHash ∈ [.hash h, .vk entry.vk],
        computeStatementHash H (verifier H crate : Verifier _ _ _ X) vkOrHash (.legacy proof) pubs =
          H .keccak256
            (hashBytes (H .keccak256 (ascii ['u', 'l', 't', 'r', 'a', 'h', 'o', 'n', 'k'])) ++
              hashBytes h ++ hashBytes noVersionHash ++
              hashBytes (H .keccak256 (flattenPubs pubs)))) ∧
      (m.keys.card ≤ u64Max →
        weight = dbWeight.readsWrites m.keys.card (2 * m.keys.card)) := by
  obtain ⟨raw', weight, processed, hrun, rfl, hweight, hlookup, hkeys⟩ :=
    hstored.onRuntimeUpgrade_eq_some dbWeight hfuel
  obtain ⟨m', hm'⟩ :=
    Finmap.exists_lookup_map (fun entry : OldVkEntry => entry.migrate.toVkEntry) m
  -- An entry of the new map comes from one of the old map.
  have hold : ∀ h entry, m'.lookup h = some entry →
      ∃ old, m.lookup h = some old ∧ entry = old.migrate.toVkEntry := by
    intro h entry hentry
    rw [hm', Option.map_eq_some_iff] at hentry
    obtain ⟨old, hold, rfl⟩ := hentry
    exact ⟨old, hold, rfl⟩
  have hvkHash : ∀ h entry, m'.lookup h = some entry →
      (verifier H crate : Verifier _ _ _ X).vkHash entry.vk = h := by
    intro h entry hentry
    obtain ⟨old, hold, rfl⟩ := hold h entry hentry
    exact hhash h old hold
  refine ⟨raw', weight, _, m', hrun, ⟨hstored.processed.1, hstored.processed.2.2⟩,
    ⟨fun h => ?_, hkeys⟩, hm', hvkHash, fun tickets => ⟨fun hcounts h entry hentry => ?_,
    fun hcounted => ⟨fun h => ?_, fun h entry hentry => ?_⟩⟩,
    fun h entry hentry proof pubs vkOrHash hvk => ?_, hweight⟩
  · rw [hlookup, hm']
    cases m.lookup h <;> simp
  · obtain ⟨old, hold, rfl⟩ := hold h entry hentry
    exact hcounts h old hold
  · rw [← hcounted.counted h, hm']
    cases m.lookup h <;> rfl
  · obtain ⟨old, hold, rfl⟩ := hold h entry hentry
    exact hcounted.positive h old hold
  · have htoHash : vkOrHash.toHash (verifier H crate : Verifier _ _ _ X) = h := by
      simp only [List.mem_cons, List.not_mem_nil, or_false] at hvk
      rcases hvk with rfl | rfl
      · rfl
      · exact hvkHash h entry hentry
    rw [computeStatementHash_eq, htoHash]
    rfl

/-- A key of zeros that two accounts registered. -/
def sampleOldEntry : OldVkEntry := ⟨.replicate vkSizeV0_84 0, 2⟩

/-- A key of ones that one account registered. -/
def sampleOtherEntry : OldVkEntry := ⟨.replicate vkSizeV0_84 1, 1⟩

/-- The SHA-256 hash of the key of zeros. -/
def sampleOldHash : H256 :=
  h256 0x52e28210c0be3be4e312d3ec209b5c49fc69abdd4c4aed923f1ce29ad25b0350

/-- The SHA-256 hash of the key of ones. -/
def sampleOtherHash : H256 :=
  h256 0xd7570ed9433516922803ef45e80188f64ab0679c05cbee0b936e0e2b4d9b8d9e

/-- SHA-256 on the two keys, which differ in their first byte. -/
def sampleSha : Hashing
  | .sha2_256, bytes => if bytes.head? = some 0 then sampleOldHash else sampleOtherHash
  | .keccak256, _ => h256 0

/-- The two entries. -/
def sampleOldMap : Finmap fun _ : H256 => OldVkEntry :=
  ((∅ : Finmap fun _ : H256 => OldVkEntry).insert sampleOldHash sampleOldEntry).insert
    sampleOtherHash sampleOtherEntry

theorem sampleOldMap_hashed :
    ∀ h entry, sampleOldMap.lookup h = some entry → sampleSha .sha2_256 entry.vk.toList = h := by
  have hhead : ∀ byte : UInt8, (Vector.replicate vkSizeV0_84 byte).toList.head? = some byte := by
    intro byte
    rw [Vector.toList_replicate, List.head?_replicate, if_neg (by decide)]
  have hzeros : sampleSha .sha2_256 sampleOldEntry.vk.toList = sampleOldHash := by
    rw [sampleSha, sampleOldEntry, if_pos (hhead 0)]
  have hones : sampleSha .sha2_256 sampleOtherEntry.vk.toList = sampleOtherHash := by
    rw [sampleSha, sampleOtherEntry, hhead 1, if_neg (by decide)]
  let P (h : H256) (entry : OldVkEntry) : Prop := sampleSha .sha2_256 entry.vk.toList = h
  have hnone : ∀ h entry, h ≠ sampleOldHash →
      (∅ : Finmap fun _ : H256 => OldVkEntry).lookup h = some entry → P h entry := by
    intro h entry _ hentry
    simp at hentry
  exact Finmap.forall_lookup_insert (P := P) hones fun h entry _ =>
    Finmap.forall_lookup_insert (P := P) hzeros hnone h entry

theorem sampleOldMap_card : sampleOldMap.keys.card = 2 := by
  have hnew : sampleOtherHash ∉
      (∅ : Finmap fun _ : H256 => OldVkEntry).insert sampleOldHash sampleOldEntry := by
    simp only [Finmap.mem_insert, Finmap.notMem_empty, or_false]
    decide
  rw [sampleOldMap, Finmap.card_keys_insert _ hnew, Finmap.card_keys_insert _ Finmap.notMem_empty]
  rfl

/-- Both entries are processed, and both count for the weight. -/
theorem migration_preserves_registry_sample :
    ∃ raw' weight processed,
      onRuntimeUpgrade ⟨25, 100⟩ 3
          (((∅ : RawMap).insert (rawKey sampleOldHash) sampleOldEntry.encode).insert
            (rawKey sampleOtherHash) sampleOtherEntry.encode) =
        some (raw', weight, processed) ∧
      (sampleOldHash, sampleOldEntry) ∈ processed ∧
      (sampleOtherHash, sampleOtherEntry) ∈ processed ∧ weight = ⟨450, 0⟩ := by
  have hstored := ((stores_empty OldVkEntry.encode).insert sampleOldHash sampleOldEntry).insert
    sampleOtherHash sampleOtherEntry
  obtain ⟨raw', weight, processed, m', hrun, ⟨-, hprocessed⟩, -, -, -, -, -, hweight⟩ :=
    migration_preserves_registry (A := ℕ) (T := Unit) (X := Unit) sampleSha sampleCrates.ultrahonk
      hstored sampleOldMap_hashed ⟨25, 100⟩ (sampleOldMap_card.trans_lt (by decide : 2 < 3))
  have hcard := sampleOldMap_card
  unfold sampleOldMap at hcard
  have hne : sampleOldHash ≠ sampleOtherHash := by decide
  refine ⟨raw', weight, processed, hrun, (hprocessed _ _).mpr ?_, (hprocessed _ _).mpr ?_, ?_⟩
  · rw [Finmap.lookup_insert_of_ne _ hne, Finmap.lookup_insert]
  · rw [Finmap.lookup_insert]
  · rw [hweight (by rw [hcard]; decide), hcard]
    rfl

end ZkVerify.Verifiers.Ultrahonk
