import Mathlib.Algebra.Order.BigOperators.Group.Finset
import Mathlib.Order.Lattice.Nat
import ZkVerify.Crl.Store
import ZkVerify.Frame.LastWriter

/-!
# Revocation lists in any order

The revocation lists of one authority are writes to last-writer-wins registers, one for each
issuer: the time of a write is the `thisUpdate` of the list and its value are the entries.
`Represents` relates what the pallet stores to such registers, and a submission does to the
storage what `LastWriter.write` does to the registers.  A list that is not newer is rejected,
and no other error can occur as long as the lists fit into the storage.

So the storage after a set of lists does not depend on the order of the submissions, up to
the order of the stored certificates.
-/

namespace ZkVerify.Crl

open Frame LastWriter

variable {A X : Type} {N : ℕ}

/-! ## Sets of revocation lists -/

/-- Revocation lists for an authority with the given root certificate that can be parsed whenever
the clock shows one of `times`, and that fit into the storage together. -/
structure Batch (cfg : Config A X) (rootCert : Bytes) (times : Set ℕ) where
  inputs : Finset CrlInput
  issuer : CrlInput → Bytes
  thisUpdate : CrlInput → ℕ
  entries : CrlInput → CrlEntries
  parsed : ∀ u ∈ inputs, ∀ now ∈ times,
    parseInput cfg u rootCert now = .ok (thisUpdate u, entries u)
  entries_ne_nil : ∀ u ∈ inputs, entries u ≠ []
  issuer_eq : ∀ u ∈ inputs, ∀ r ∈ entries u, r.issuer = issuer u
  in_bounds : ∀ u ∈ inputs, ∀ r ∈ entries u,
    r.issuer.length ≤ maxCertIssuerLength ∧ r.serialNumber.length ≤ maxCertSerialLength
  distinct : ∀ u ∈ inputs, ∀ u' ∈ inputs, issuer u = issuer u' → thisUpdate u = thisUpdate u' →
    u = u'
  issuers_le : (inputs.image issuer).card ≤ maxIssuersPerCa
  entries_le : ∑ i ∈ inputs.image issuer,
    (inputs.filter fun u => issuer u = i).sup (fun u => (entries u).length) ≤ maxRevokedCertsPerCa
  no_collisions : ∀ i ∈ inputs.image issuer, ∀ j ∈ inputs.image issuer,
    cfg.blake2_256 i = cfg.blake2_256 j → i = j

variable {cfg : Config A X} {rootCert : Bytes} {times : Set ℕ}

namespace Batch

variable (b : Batch cfg rootCert times)

/-- The issuers of the lists. -/
def issuers : Finset Bytes := b.inputs.image b.issuer

/-- A list as a write to the register of its issuer. -/
def write (u : CrlInput) : Write Bytes ℕ CrlEntries := ⟨b.issuer u, b.thisUpdate u, b.entries u⟩

theorem issuer_mem {u : CrlInput} (hu : u ∈ b.inputs) : b.issuer u ∈ b.issuers :=
  Finset.mem_image_of_mem _ hu

/-- The registers hold lists of the batch. -/
def Holds (m : Registers Bytes ℕ CrlEntries) : Prop :=
  ∀ i t e, m i = some (t, e) → ∃ u ∈ b.inputs, b.write u = ⟨i, t, e⟩

variable {b}

theorem holds_of_latest {us : List CrlInput} {m : Registers Bytes ℕ CrlEntries}
    (hus : ∀ u ∈ us, u ∈ b.inputs) (h : Latest (us.map b.write) m) : b.Holds m := by
  intro i t e hi
  obtain ⟨u, hu, hwrite⟩ := List.mem_map.mp (h.mem i t e hi)
  exact ⟨u, hus u hu, hwrite⟩

theorem Holds.mem_issuers {m : Registers Bytes ℕ CrlEntries} (h : b.Holds m) {i : Bytes}
    (hi : m i ≠ none) : i ∈ b.issuers := by
  obtain ⟨⟨t, e⟩, hte⟩ := Option.ne_none_iff_exists'.mp hi
  obtain ⟨u, hu, hwrite⟩ := h i t e hte
  cases hwrite
  exact b.issuer_mem hu

/-- What one register holds is no longer than the longest list of its issuer. -/
theorem Holds.length_le {m : Registers Bytes ℕ CrlEntries} (h : b.Holds m) (i : Bytes) :
    ((m i).elim [] Prod.snd).length ≤
      (b.inputs.filter fun u => b.issuer u = i).sup fun u => (b.entries u).length := by
  cases hi : m i with
  | none => simp
  | some held =>
      obtain ⟨t, e⟩ := held
      obtain ⟨u, hu, hwrite⟩ := h i t e hi
      cases hwrite
      exact Finset.le_sup (f := fun u => (b.entries u).length) (Finset.mem_filter.mpr ⟨hu, rfl⟩)

/-- A list of certificates that are held by the registers, each under its issuer. -/
def Lists (l : CrlEntries) (m : Registers Bytes ℕ CrlEntries) : Prop :=
  ∀ i, (l.filter fun r => decide (r.issuer = i)) = (m i).elim [] Prod.snd

theorem Lists.mem {l : CrlEntries} {m : Registers Bytes ℕ CrlEntries} (h : Lists l m)
    {r : RevokedCertId} (hr : r ∈ l) : ∃ t e, m r.issuer = some (t, e) ∧ r ∈ e := by
  have hmem : r ∈ (m r.issuer).elim [] Prod.snd := by
    rw [← h r.issuer]
    exact List.mem_filter.mpr ⟨hr, by simp⟩
  cases hi : m r.issuer with
  | none => simp [hi] at hmem
  | some held => exact ⟨held.1, held.2, rfl, by simpa [hi] using hmem⟩

/-- Certificates that are held by the registers fit into the storage. -/
theorem Lists.exists_store {l : CrlEntries} {m : Registers Bytes ℕ CrlEntries} (h : Lists l m)
    (hm : b.Holds m) : ∃ store, reported store = l := by
  have hbounds : ∀ r ∈ l, r.issuer.length ≤ maxCertIssuerLength ∧
      r.serialNumber.length ≤ maxCertSerialLength := by
    intro r hr
    obtain ⟨t, e, hi, hre⟩ := h.mem hr
    obtain ⟨u, hu, hwrite⟩ := hm _ t e hi
    obtain ⟨-, -, rfl⟩ := Write.mk.inj hwrite
    exact b.in_bounds u hu r hre
  have hissuers : ∀ r ∈ l, r.issuer ∈ b.issuers := by
    intro r hr
    obtain ⟨t, e, hi, -⟩ := h.mem hr
    exact hm.mem_issuers (by simp [hi])
  have hlength : l.length ≤ maxRevokedCertsPerCa := by
    calc l.length = ∑ i ∈ b.issuers, (l.filter fun r => decide (r.issuer = i)).length :=
          length_eq_sum RevokedCertId.issuer hissuers
      _ = ∑ i ∈ b.issuers, ((m i).elim [] Prod.snd).length :=
          Finset.sum_congr rfl fun i _ => by rw [h i]
      _ ≤ ∑ i ∈ b.issuers, (b.inputs.filter fun u => b.issuer u = i).sup
            fun u => (b.entries u).length :=
          Finset.sum_le_sum fun i _ => hm.length_le i
      _ ≤ maxRevokedCertsPerCa := b.entries_le
  let infos : List RevokedInfo :=
    l.pmap (fun r hr => ⟨⟨r.issuer, hr.1⟩, ⟨r.serialNumber, hr.2⟩⟩) hbounds
  refine ⟨⟨infos, by rw [List.length_pmap]; exact hlength⟩, ?_⟩
  rw [reported, List.map_pmap]
  simp [RevokedInfo.toCertId]

/-- Replacing the entries of an issuer is a write to its register. -/
theorem Lists.replace {l : CrlEntries} {m : Registers Bytes ℕ CrlEntries} (h : Lists l m)
    {u : CrlInput} (hu : u ∈ b.inputs) :
    Lists ((l.filter fun r => decide (r.issuer ≠ b.issuer u)) ++ b.entries u)
      (Function.update m (b.issuer u) (some (b.thisUpdate u, b.entries u))) := by
  intro i
  rw [List.filter_append, List.filter_filter]
  by_cases hi : i = b.issuer u
  · subst hi
    have hold : (l.filter fun r => decide (r.issuer = b.issuer u) &&
        decide (r.issuer ≠ b.issuer u)) = [] := by
      rw [List.filter_eq_nil_iff]
      simp
    have hnew : (b.entries u).filter (fun r => decide (r.issuer = b.issuer u)) = b.entries u := by
      rw [List.filter_eq_self]
      simpa using b.issuer_eq u hu
    rw [hold, hnew, Function.update_self]
    rfl
  · have hold : (l.filter fun r => decide (r.issuer = i) && decide (r.issuer ≠ b.issuer u)) =
        l.filter fun r => decide (r.issuer = i) := by
      refine List.filter_congr fun r _ => ?_
      by_cases hr : r.issuer = i
      · simp [hr, hi]
      · simp [hr]
    have hnew : (b.entries u).filter (fun r => decide (r.issuer = i)) = [] := by
      rw [List.filter_eq_nil_iff]
      intro r hr
      rw [b.issuer_eq u hu r hr]
      simpa using Ne.symm hi
    rw [hold, hnew, List.append_nil, Function.update_of_ne hi, h i]

end Batch

/-! ## What is stored, as registers -/

/-- What is stored for an authority is what the registers hold. -/
structure Represents (b : Batch cfg rootCert times) (m : Registers Bytes ℕ CrlEntries)
    (info : CaInfo) (store : RevokedList) : Prop where
  rootCert_eq : info.rootCert.toList = rootCert
  count : info.revokedCount = store.toList.length
  version : ∀ i ∈ b.issuers, info.crlVersions.get (cfg.blake2_256 i) = (m i).map Prod.fst
  hashes : ∀ h ∈ info.crlVersions.toFinmap, ∃ i ∈ b.issuers, cfg.blake2_256 i = h
  lists : Batch.Lists (reported store) m

variable {b : Batch cfg rootCert times} {m : Registers Bytes ℕ CrlEntries} {info : CaInfo}
  {store : RevokedList}

theorem represents_empty {root : BoundedVec UInt8 maxRootCertLength}
    (hroot : root.toList = rootCert) :
    Represents b (fun _ => none) ⟨root, 0, BoundedMap.empty⟩ BoundedVec.empty where
  rootCert_eq := hroot
  count := rfl
  version _ _ := BoundedMap.get_empty _
  hashes _ hmem := absurd hmem Finmap.notMem_empty
  lists _ := rfl

theorem isNewer_map_fst (t : ℕ) (held : Option (ℕ × CrlEntries)) :
    isNewer t (held.map Prod.fst) = held.all fun p => decide (p.1 < t) := by
  cases held <;> rfl

/-- The pallet accepts a list exactly if it is a newer write. -/
theorem Represents.isNewer_eq (h : Represents b m info store) {u : CrlInput}
    (hu : u ∈ b.inputs) :
    isNewer (b.thisUpdate u) (info.crlVersions.get (cfg.blake2_256 (b.issuer u))) =
      newer m (b.write u) := by
  rw [h.version _ (b.issuer_mem hu), isNewer_map_fst]
  rfl

/-- There is room for the version of one more issuer of the batch. -/
theorem Represents.tryInsert (h : Represents b m info store) {u : CrlInput} (hu : u ∈ b.inputs) :
    ∃ versions, info.crlVersions.tryInsert (cfg.blake2_256 (b.issuer u)) (b.thisUpdate u) =
      some versions := by
  have hsub : (info.crlVersions.toFinmap.insert (cfg.blake2_256 (b.issuer u))
      (b.thisUpdate u)).keys ⊆ b.issuers.image cfg.blake2_256 := by
    intro hash hhash
    rw [Finmap.keys_insert, Finset.mem_insert, Finmap.mem_keys] at hhash
    rcases hhash with rfl | hold
    · exact Finset.mem_image_of_mem _ (b.issuer_mem hu)
    · obtain ⟨i, hi, rfl⟩ := h.hashes hash hold
      exact Finset.mem_image_of_mem _ hi
  have hcard := ((Finset.card_le_card hsub).trans Finset.card_image_le).trans b.issuers_le
  exact ⟨_, dif_pos hcard⟩

/-- A newer list, once it is stored. -/
theorem Represents.replace (h : Represents b m info store) {u : CrlInput} (hu : u ∈ b.inputs)
    {versions : BoundedMap H256 ℕ maxIssuersPerCa} {new : RevokedList}
    (hversions : info.crlVersions.tryInsert (cfg.blake2_256 (b.issuer u)) (b.thisUpdate u) =
      some versions)
    (hnew : reported new =
      ((reported store).filter fun r => decide (r.issuer ≠ b.issuer u)) ++ b.entries u) :
    Represents b (Function.update m (b.issuer u) (some (b.thisUpdate u, b.entries u)))
      { info with revokedCount := new.toList.length, crlVersions := versions } new := by
  have hinsert := BoundedMap.tryInsert_eq_some.mp hversions
  refine ⟨h.rootCert_eq, rfl, fun i hi => ?_, fun hash hhash => ?_, ?_⟩
  · by_cases hissuer : i = b.issuer u
    · subst hissuer
      rw [BoundedMap.get_of_insert_self hinsert, Function.update_self]
      rfl
    · have hne : cfg.blake2_256 i ≠ cfg.blake2_256 (b.issuer u) := fun hcollision =>
        hissuer (b.no_collisions i hi _ (b.issuer_mem hu) hcollision)
      rw [BoundedMap.get_of_insert_ne hinsert hne, Function.update_of_ne hissuer, h.version i hi]
  · rw [hinsert, Finmap.mem_insert] at hhash
    rcases hhash with rfl | hold
    · exact ⟨b.issuer u, b.issuer_mem hu, rfl⟩
    · exact h.hashes hash hold
  · rw [hnew]
    exact h.lists.replace hu

theorem Represents.lookup_eq_none (h : Represents b m info store) {hash : H256}
    (hhash : ∀ i ∈ b.issuers, cfg.blake2_256 i ≠ hash) :
    info.crlVersions.toFinmap.lookup hash = none := by
  rw [Finmap.lookup_eq_none]
  intro hmem
  obtain ⟨i, hi, hi'⟩ := h.hashes hash hmem
  exact hhash i hi hi'

/-- What is stored is determined by the registers, up to the order of the certificates. -/
theorem Represents.unique {info' : CaInfo} {store' : RevokedList} (h : Represents b m info store)
    (h' : Represents b m info' store') :
    store.toList.Perm store'.toList ∧ info.crlVersions = info'.crlVersions ∧
      info.revokedCount = info'.revokedCount := by
  have hreported : (reported store).Perm (reported store') :=
    perm_of_filter_eq RevokedCertId.issuer fun i => (h.lists i).trans (h'.lists i).symm
  have hperm : store.toList.Perm store'.toList :=
    (List.map_perm_map_iff RevokedInfo.toCertId_injective).mp hreported
  have hversions : info.crlVersions.toFinmap = info'.crlVersions.toFinmap := by
    apply Finmap.ext_lookup
    intro hash
    by_cases hhash : ∃ i ∈ b.issuers, cfg.blake2_256 i = hash
    · obtain ⟨i, hi, rfl⟩ := hhash
      exact (h.version i hi).trans (h'.version i hi).symm
    · push Not at hhash
      rw [h.lookup_eq_none hhash, h'.lookup_eq_none hhash]
  exact ⟨hperm, BoundedMap.ext hversions, by rw [h.count, h'.count, hperm.length_eq]⟩

/-! ## Submissions -/

/-- What the storage has for an authority is what the registers hold. -/
def StoredAs (b : Batch cfg rootCert times) (m : Registers Bytes ℕ CrlEntries) (name : CaName N)
    (s : State N X) : Prop :=
  ∃ info store, s.certificateAuthorities.lookup name = some info ∧
    s.revoked.lookup name = some store ∧ Represents b m info store

/-- The answer to a submission: it is executed, or it is rejected as not newer. -/
def Answered (cfg : Config A X) (c : Call A) (s : State N X) : Prop :=
  (∃ s' post, dispatch cfg c s = .ok (s', post)) ∨
    dispatch cfg c s = .error (.of (.module .notNewerCrl))

/-- A submission is a write to the registers. -/
theorem StoredAs.submit {name : CaName N} {s : State N X} (h : StoredAs b m name s)
    {u : CrlInput} (hu : u ∈ b.inputs) (hnow : cfg.now s.chain ∈ times)
    (hm : b.Holds (LastWriter.write m (b.write u))) (who : A) :
    Answered cfg (.updateCrl (.signed who) name.toList u) s ∧
      StoredAs b (LastWriter.write m (b.write u)) name
        (exec cfg s (.call (.updateCrl (.signed who) name.toList u))) := by
  obtain ⟨info, store, hlookup, hrevoked, hrep⟩ := h
  obtain ⟨first, rest, hentries⟩ := List.exists_cons_of_ne_nil (b.entries_ne_nil u hu)
  have hfirst : first.issuer = b.issuer u :=
    b.issuer_eq u hu first (hentries ▸ List.mem_cons_self)
  have hparse : parseInput cfg u info.rootCert.toList (cfg.now s.chain) =
      .ok (b.thisUpdate u, first :: rest) := by
    rw [hrep.rootCert_eq, b.parsed u hu _ hnow, hentries]
  have hnewer := hrep.isNewer_eq hu
  cases hwrite : newer m (b.write u) with
  | false =>
      rw [hwrite, ← hfirst] at hnewer
      have hd := updateCrl_notNewer who hlookup hparse hnewer
      rw [exec_of_error hd, write_of_not_newer hwrite]
      exact ⟨.inr hd, info, store, hlookup, hrevoked, hrep⟩
  | true =>
      rw [hwrite] at hnewer
      rw [write_of_newer hwrite] at hm ⊢
      obtain ⟨versions, hversions⟩ := hrep.tryInsert hu
      obtain ⟨new, hnew⟩ := (hrep.lists.replace hu).exists_store hm
      have hreplaced := hrep.replace hu hversions hnew
      rw [← reportedFor_of_lookup hrevoked, hentries] at hnew
      rw [← hfirst] at hnewer hversions hnew
      have hd := updateCrl_ok who hlookup hparse hnewer hnew hversions
      rw [exec_of_ok hd]
      exact ⟨.inl ⟨_, _, hd⟩, _, new, Finmap.lookup_insert _, Finmap.lookup_insert _, hreplaced⟩

/-- The list that is submitted with a step. -/
def submitted : Step A X → Option CrlInput
  | .call (.updateCrl _ _ input) => some input
  | _ => none

/-- The steps submit lists of the batch for one authority while they can be parsed; time may pass
between them. -/
structure Submits (b : Batch cfg rootCert times) (name : CaName N) (s : State N X)
    (steps : List (Step A X)) : Prop where
  submissions : ∀ step ∈ steps, (∃ act, step = .environment act) ∨
    ∃ who input, step = .call (.updateCrl (.signed who) name.toList input)
  mem_inputs : ∀ u ∈ steps.filterMap submitted, u ∈ b.inputs
  clock : ∀ before, before <+: steps → cfg.now (run cfg s before).chain ∈ times

/-- All lists of the batch are submitted, in some order. -/
structure Order (b : Batch cfg rootCert times) (name : CaName N) (s : State N X)
    (steps : List (Step A X)) : Prop extends Submits b name s steps where
  all : ∀ u ∈ b.inputs, u ∈ steps.filterMap submitted

theorem Submits.of_prefix {name : CaName N} {s : State N X} {before steps : List (Step A X)}
    (h : Submits b name s steps) (hbefore : before <+: steps) : Submits b name s before where
  submissions step hstep := h.submissions step (hbefore.subset hstep)
  mem_inputs u hu := h.mem_inputs u ((hbefore.filterMap submitted).subset hu)
  clock front hfront := h.clock front (hfront.trans hbefore)

theorem Order.mem_iff {name : CaName N} {s : State N X} {steps : List (Step A X)}
    (h : Order b name s steps) (u : CrlInput) : u ∈ steps.filterMap submitted ↔ u ∈ b.inputs :=
  ⟨h.mem_inputs u, h.all u⟩

/-- The registers after the submissions of some steps. -/
def Batch.registers (b : Batch cfg rootCert times) (steps : List (Step A X)) :
    Registers Bytes ℕ CrlEntries :=
  ((steps.filterMap submitted).map b.write).foldl LastWriter.write fun _ => none

theorem Batch.latest_registers (b : Batch cfg rootCert times) (steps : List (Step A X)) :
    Latest ((steps.filterMap submitted).map b.write) (b.registers steps) :=
  latest_foldl _

theorem Batch.registers_concat (b : Batch cfg rootCert times) (steps : List (Step A X)) (who : A)
    (caName : Bytes) (u : CrlInput) :
    b.registers (steps ++ [.call (.updateCrl (.signed who) caName u)]) =
      LastWriter.write (b.registers steps) (b.write u) := by
  simp [registers, submitted]

theorem Batch.registers_environment (b : Batch cfg rootCert times) (steps : List (Step A X))
    (act : X → X) : b.registers (steps ++ [.environment act]) = b.registers steps := by
  have hnone : [Step.environment act].filterMap (submitted (A := A)) = [] := rfl
  rw [registers, List.filterMap_append, hnone, List.append_nil, registers]

/-- One more submission. -/
theorem StoredAs.concat {name : CaName N} {s : State N X} {steps : List (Step A X)} {who : A}
    {u : CrlInput} (h : StoredAs b (b.registers steps) name (run cfg s steps))
    (hsteps : Submits b name s (steps ++ [.call (.updateCrl (.signed who) name.toList u)])) :
    Answered cfg (.updateCrl (.signed who) name.toList u) (run cfg s steps) ∧
      StoredAs b (b.registers (steps ++ [.call (.updateCrl (.signed who) name.toList u)])) name
        (exec cfg (run cfg s steps) (.call (.updateCrl (.signed who) name.toList u))) := by
  have hu : u ∈ b.inputs := hsteps.mem_inputs u (by
    rw [List.filterMap_append]
    exact List.mem_append_right _ List.mem_cons_self)
  have hm := Batch.holds_of_latest hsteps.mem_inputs (b.latest_registers _)
  rw [b.registers_concat] at hm ⊢
  exact h.submit hu (hsteps.clock steps (List.prefix_append _ _)) hm who

/-- The storage after any number of submissions. -/
theorem StoredAs.run {name : CaName N} {s : State N X} (h : StoredAs b (fun _ => none) name s)
    {steps : List (Step A X)} (hsteps : Submits b name s steps) :
    StoredAs b (b.registers steps) name (run cfg s steps) := by
  induction steps using List.reverseRecOn with
  | nil => exact h
  | append_singleton steps step ih =>
      have hinit := ih (hsteps.of_prefix (List.prefix_append _ _))
      rw [run_concat]
      rcases hsteps.submissions step (List.mem_append_right _ List.mem_cons_self) with
        ⟨act, rfl⟩ | ⟨who, u, rfl⟩
      · rw [b.registers_environment]
        exact hinit
      · exact (hinit.concat hsteps).2

/-- Every submission is executed or rejected as not newer. -/
theorem StoredAs.answered {name : CaName N} {s : State N X}
    (h : StoredAs b (fun _ => none) name s) {before after : List (Step A X)} {c : Call A}
    (hsteps : Submits b name s (before ++ .call c :: after)) :
    Answered cfg c (Crl.run cfg s before) := by
  have hprefix : before ++ [Step.call c] <+: before ++ .call c :: after :=
    ⟨after, by simp⟩
  have hfront := hsteps.of_prefix hprefix
  rcases hfront.submissions (.call c) (List.mem_append_right _ List.mem_cons_self) with
    ⟨act, hact⟩ | ⟨who, u, hcall⟩
  · cases hact
  · cases hcall
    exact ((h.run (hfront.of_prefix (List.prefix_append _ _))).concat hfront).1

/-- For each issuer, the version and the entries of its latest list are stored. -/
structure Final (b : Batch cfg rootCert times) (info : CaInfo) (store : RevokedList) : Prop where
  latest : ∀ i ∈ b.issuers, ∃ u ∈ b.inputs, b.issuer u = i ∧
    (∀ u' ∈ b.inputs, b.issuer u' = i → b.thisUpdate u' ≤ b.thisUpdate u) ∧
    info.crlVersions.get (cfg.blake2_256 i) = some (b.thisUpdate u) ∧
    (reported store).filter (fun r => decide (r.issuer = i)) = b.entries u
  issuers : ∀ r ∈ reported store, r.issuer ∈ b.issuers
  hashes : ∀ h ∈ info.crlVersions.toFinmap, ∃ i ∈ b.issuers, cfg.blake2_256 i = h
  count : info.revokedCount = store.toList.length

theorem Represents.final {us : List CrlInput} (h : Represents b m info store)
    (hus : ∀ u, u ∈ us ↔ u ∈ b.inputs) (hlatest : Latest (us.map b.write) m) :
    Final b info store := by
  have hm : b.Holds m := Batch.holds_of_latest (fun u hu => (hus u).mp hu) hlatest
  refine ⟨fun i hi => ?_, fun r hr => ?_, h.hashes, h.count⟩
  · obtain ⟨u₀, hu₀, rfl⟩ := Finset.mem_image.mp hi
    obtain ⟨t, e, hte, -⟩ := hlatest.exists_ge _ (List.mem_map_of_mem ((hus u₀).mpr hu₀))
    obtain ⟨u, hu, hwrite⟩ := hm _ t e hte
    obtain ⟨hissuer, rfl, rfl⟩ := Write.mk.inj hwrite
    change m (b.issuer u₀) = _ at hte
    refine ⟨u, hu, hissuer, fun u' hu' hissuer' => ?_, ?_, ?_⟩
    · obtain ⟨t', e', hte', hle⟩ := hlatest.exists_ge _ (List.mem_map_of_mem ((hus u').mpr hu'))
      change m (b.issuer u') = _ at hte'
      rw [hissuer', hte] at hte'
      cases hte'
      exact hle
    · rw [h.version _ hi, hte]
      rfl
    · rw [h.lists, hte]
      rfl
  · obtain ⟨t, e, hi, -⟩ := h.lists.mem hr
    exact hm.mem_issuers (by simp [hi])

theorem storedAs_registerCa {origin : RawOrigin A} {name : CaName N} {s s₀ : State N X}
    {post : PostDispatchInfo}
    (hregister : registerCa cfg origin name.toList rootCert s = .ok (s₀, post)) :
    StoredAs b (fun _ => none) name s₀ := by
  have heffect : Effect cfg s (.registerCa origin name.toList rootCert) s₀ :=
    effect_of_dispatch hregister
  generalize hcaName : name.toList = caName at heffect
  cases heffect with
  | registered =>
      obtain rfl := BoundedVec.ext hcaName
      exact ⟨_, _, Finmap.lookup_insert _, Finmap.lookup_insert _, represents_empty rfl⟩

/-- The lists of a batch, submitted in any two orders for a freshly registered authority.  Every
submission is executed or rejected as not newer; in the end the version and the entries of the
latest list of each issuer are stored, and the two orders lead to the same certificates, the same
versions and the same count. -/
theorem crl_updates_commute (b : Batch cfg rootCert times) {origin : RawOrigin A}
    {name : CaName N} {s s₀ : State N X} {post : PostDispatchInfo}
    (hregister : registerCa cfg origin name.toList rootCert s = .ok (s₀, post))
    {steps steps' : List (Step A X)} (horder : Order b name s₀ steps)
    (horder' : Order b name s₀ steps') :
    (∀ before c after, steps = before ++ .call c :: after →
      Answered cfg c (run cfg s₀ before)) ∧
    ∃ info store info' store',
      (run cfg s₀ steps).certificateAuthorities.lookup name = some info ∧
      (run cfg s₀ steps).revoked.lookup name = some store ∧
      (run cfg s₀ steps').certificateAuthorities.lookup name = some info' ∧
      (run cfg s₀ steps').revoked.lookup name = some store' ∧
      Final b info store ∧ store.toList.Perm store'.toList ∧
      info.crlVersions = info'.crlVersions ∧ info.revokedCount = info'.revokedCount := by
  have hfresh : StoredAs b (fun _ => none) name s₀ := storedAs_registerCa hregister
  refine ⟨?_, ?_⟩
  · rintro before c after rfl
    exact hfresh.answered horder.toSubmits
  · obtain ⟨info, store, hinfo, hstore, hrep⟩ := hfresh.run horder.toSubmits
    obtain ⟨info', store', hinfo', hstore', hrep'⟩ := hfresh.run horder'.toSubmits
    have hsame : b.registers steps = b.registers steps' := by
      refine (b.latest_registers steps).unique (b.latest_registers steps') ?_ ?_
      · intro w
        simp only [List.mem_map, horder.mem_iff, horder'.mem_iff]
      · intro w hw w' hw' hkey htime
        obtain ⟨u, hu, rfl⟩ := List.mem_map.mp hw
        obtain ⟨u', hu', rfl⟩ := List.mem_map.mp hw'
        rw [b.distinct u ((horder.mem_iff u).mp hu) u' ((horder.mem_iff u').mp hu') hkey htime]
    rw [← hsame] at hrep'
    obtain ⟨hperm, hversions, hcount⟩ := hrep.unique hrep'
    exact ⟨info, store, info', store', hinfo, hstore, hinfo', hstore',
      hrep.final horder.mem_iff (b.latest_registers steps), hperm, hversions, hcount⟩

/-- Two lists of one issuer and one of another. -/
def sampleBatch : Batch sampleConfig [0x30] {0} where
  inputs := {.pem [1, 0x99] [0], .der [2, 0xaa] [0], .pem [5, 0x11] []}
  issuer
    | .pem _ certChain => sampleIssuer certChain
    | .der _ certChain => sampleIssuer certChain
  thisUpdate
    | .pem crl _ => (crl.headD 0).toNat
    | .der crl _ => (crl.headD 0).toNat
  entries
    | .pem crl certChain => [⟨sampleIssuer certChain, crl.tail⟩]
    | .der crl certChain => [⟨sampleIssuer certChain, crl.tail⟩]
  parsed := by
    rintro u hu now rfl
    revert u
    decide
  entries_ne_nil := by decide
  issuer_eq := by decide
  in_bounds := by decide
  distinct := by decide
  issuers_le := by decide
  entries_le := by decide
  no_collisions := by decide

/-- A freshly registered authority. -/
def sampleRegistered : State 32 ℕ :=
  run sampleConfig (.genesis 0) [.call (.registerCa .root sampleName.toList [0x30])]

/-- The submissions of a list of inputs, one after the other. -/
def sampleSteps (us : List CrlInput) : List (Step ℕ ℕ) :=
  us.map fun u => .call (.updateCrl (.signed 1) sampleName.toList u)

theorem sampleBatch_order {us : List CrlInput}
    (hmem : ∀ u ∈ (sampleSteps us).filterMap submitted, u ∈ sampleBatch.inputs)
    (hall : ∀ u ∈ sampleBatch.inputs, u ∈ (sampleSteps us).filterMap submitted)
    (hclock : ∀ before ∈ (sampleSteps us).inits,
      (run sampleConfig sampleRegistered before).chain = 0) :
    Order sampleBatch sampleName sampleRegistered (sampleSteps us) where
  submissions step hstep := by
    obtain ⟨u, -, rfl⟩ := List.mem_map.mp hstep
    exact .inr ⟨1, u, rfl⟩
  mem_inputs := hmem
  all := hall
  clock before hbefore := hclock before ((List.mem_inits _ _).mpr hbefore)

theorem crl_updates_commute_sample :
    let order := sampleSteps [.pem [1, 0x99] [0], .der [2, 0xaa] [0], .pem [5, 0x11] []]
    let order' := sampleSteps [.der [2, 0xaa] [0], .pem [5, 0x11] [], .pem [1, 0x99] [0]]
    ∃ store store' : RevokedList,
      (run sampleConfig sampleRegistered order).revoked.lookup sampleName = some store ∧
      (run sampleConfig sampleRegistered order').revoked.lookup sampleName = some store' ∧
      store.toList.Perm store'.toList := by
  intro order order'
  have hregister : registerCa sampleConfig .root sampleName.toList [0x30] (.genesis 0) =
      .ok (sampleRegistered, ⟨some ⟨0, 0⟩, .yes⟩) := rfl
  have horder : Order sampleBatch sampleName sampleRegistered order :=
    sampleBatch_order (by decide) (by decide) (by decide)
  have horder' : Order sampleBatch sampleName sampleRegistered order' :=
    sampleBatch_order (by decide) (by decide) (by decide)
  obtain ⟨-, info, store, info', store', -, hstore, -, hstore', -, hperm, -⟩ :=
    crl_updates_commute sampleBatch hregister horder horder'
  exact ⟨store, store', hstore, hstore', hperm⟩

end ZkVerify.Crl
