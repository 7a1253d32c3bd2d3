import ZkVerify.Crl.Pallet

/-!
# Runs of the crl pallet

A run is a list of calls in any order, from the empty storage, with changes of the rest of
the chain between them, which include the passage of time.  A call that fails changes
nothing.

`Effect cfg s c s'` lists, one constructor for each way in which a call can succeed, what
the call `c` found in the state `s` and what it made of it.  The stored certificates are
read there as `get_crl` reports them: an update removes the entries of its issuer and
appends its own.
-/

namespace ZkVerify.Crl

open Frame

/-! ## Merging -/

/-- The entries of a stored list, as `get_crl` reports them. -/
def reported (store : RevokedList) : CrlEntries := store.toList.map RevokedInfo.toCertId

theorem RevokedInfo.toCertId_injective : Function.Injective RevokedInfo.toCertId := by
  rintro ⟨issuer, serial⟩ ⟨issuer', serial'⟩ h
  obtain ⟨hissuer, hserial⟩ := RevokedCertId.mk.inj h
  obtain rfl : issuer = issuer' := BoundedVec.ext hissuer
  obtain rfl : serial = serial' := BoundedVec.ext hserial
  rfl

theorem reported_injective : Function.Injective reported := fun _ _ h =>
  BoundedVec.ext (RevokedInfo.toCertId_injective.list_map h)

@[simp] theorem reported_empty : reported BoundedVec.empty = [] := rfl

theorem length_reported (store : RevokedList) : (reported store).length = store.toList.length :=
  List.length_map _

theorem reported_retain (store : RevokedList) (issuer : Bytes) :
    reported (store.retain fun r => decide (r.issuer.toList ≠ issuer)) =
      (reported store).filter fun r => decide (r.issuer ≠ issuer) := by
  rw [reported, reported, BoundedVec.toList_retain, List.filter_map]
  rfl

/-- An entry is pushed if it is in bounds and there is room, that is, if a list that has it as its
last entry can be built at all. -/
theorem pushRevoked_eq_ok {store store' : RevokedList} {r : RevokedCertId} :
    pushRevoked store r = .ok store' ↔ reported store' = reported store ++ [r] := by
  constructor
  · intro h
    obtain ⟨issuer, hissuer, h⟩ := seq_eq_ok.mp h
    obtain ⟨serial, hserial, h⟩ := seq_eq_ok.mp h
    rw [okOr_eq_ok, BoundedVec.tryFrom_eq_some] at hissuer hserial
    rw [okOr_eq_ok, BoundedVec.tryPush_eq_some] at h
    rw [reported, h, List.map_append, List.map_singleton, RevokedInfo.toCertId, hissuer, hserial]
    rfl
  · intro h
    obtain ⟨front, back, hsplit, hfront, hback⟩ := List.map_eq_append_iff.mp h
    obtain ⟨info, rfl, rfl⟩ := List.map_eq_singleton_iff.mp hback
    have hstore : front = store.toList := RevokedInfo.toCertId_injective.list_map hfront
    simp only [pushRevoked, RevokedInfo.toCertId, BoundedVec.tryFrom_eq_some.mpr rfl, okOr_some,
      ok_bind]
    rw [okOr_eq_ok, BoundedVec.tryPush_eq_some, hsplit, hstore]

/-- The entries of a list are appended if a list that ends with them can be built. -/
theorem foldlM_pushRevoked_eq_ok {store store' : RevokedList} {entries : CrlEntries} :
    entries.foldlM pushRevoked store = .ok store' ↔
      reported store' = reported store ++ entries := by
  induction entries generalizing store with
  | nil =>
      rw [List.foldlM_nil, List.append_nil, reported_injective.eq_iff]
      exact ⟨fun h => by cases h; rfl, fun h => by rw [h]; rfl⟩
  | cons r entries ih =>
      rw [List.foldlM_cons, seq_eq_ok]
      constructor
      · rintro ⟨middle, hpush, hrest⟩
        rw [ih.mp hrest, pushRevoked_eq_ok.mp hpush, List.append_assoc, List.singleton_append]
      · intro h
        -- The list after the first push is a part of the final one.
        let middle : RevokedList := ⟨store'.toList.take (store.toList.length + 1),
          (List.length_take_le' _ _).trans store'.length_le⟩
        have hmiddle : reported middle = reported store ++ [r] := by
          have htake : reported middle = (reported store').take (store.toList.length + 1) :=
            List.map_take
          rw [htake, h, ← length_reported store, List.take_length_add_append]
          rfl
        refine ⟨middle, pushRevoked_eq_ok.mpr hmiddle, ih.mpr ?_⟩
        rw [h, hmiddle, List.append_assoc, List.singleton_append]

section Merge

variable {X : Type} {N : ℕ} {s s' : State N X} {name : CaName N} {entries : CrlEntries}
  {issuer : Bytes} {count : ℕ}

/-- What is reported for an authority; nothing for one that is not registered. -/
def State.reportedFor (s : State N X) (name : CaName N) : CrlEntries :=
  (getCrlForCa name s).getD []

theorem reportedFor_of_lookup {store : RevokedList} (h : s.revoked.lookup name = some store) :
    s.reportedFor name = reported store := by
  rw [State.reportedFor, getCrlForCa, h]
  rfl

/-- The reported entries after a merge: the other issuers' and then the new ones. -/
theorem mergeRevokedCertsForCa_eq_ok :
    mergeRevokedCertsForCa name entries issuer s = .ok (count, s') ↔
      ∃ store, reported store =
          ((s.reportedFor name).filter fun r => decide (r.issuer ≠ issuer)) ++ entries ∧
        count = store.toList.length ∧ s' = { s with revoked := s.revoked.insert name store } := by
  have hold : reported (((s.revoked.lookup name).getD BoundedVec.empty).retain
      fun r => decide (r.issuer.toList ≠ issuer)) =
        (s.reportedFor name).filter fun r => decide (r.issuer ≠ issuer) := by
    rw [reported_retain, State.reportedFor, getCrlForCa]
    cases s.revoked.lookup name <;> rfl
  unfold mergeRevokedCertsForCa
  rw [seq_eq_ok]
  constructor
  · rintro ⟨store, hpush, h⟩
    cases h
    exact ⟨store, hold ▸ foldlM_pushRevoked_eq_ok.mp hpush, rfl, rfl⟩
  · rintro ⟨store, hstore, rfl, rfl⟩
    exact ⟨store, foldlM_pushRevoked_eq_ok.mpr (hold ▸ hstore), rfl⟩

end Merge

/-! ## Calls -/

/-- The operations of the pallet. -/
inductive Call (A : Type)
  | registerCa (origin : RawOrigin A) (name rootCert : Bytes)
  | unregisterCa (origin : RawOrigin A) (name : Bytes)
  | updateCrl (origin : RawOrigin A) (caName : Bytes) (input : CrlInput)

/-- One step of a run: a call, or a change of the rest of the chain. -/
inductive Step (A X : Type)
  | call (c : Call A)
  | environment (act : X → X)

variable {A X : Type} {N : ℕ}

/-- Execute a call. -/
def dispatch (cfg : Config A X) (c : Call A) (s : State N X) : DispatchResult X N :=
  match c with
  | .registerCa origin name rootCert => registerCa cfg origin name rootCert s
  | .unregisterCa origin name => unregisterCa cfg origin name s
  | .updateCrl origin caName input => updateCrl cfg origin caName input s

/-- The state after one step. -/
def exec (cfg : Config A X) (s : State N X) : Step A X → State N X
  | .call c =>
      match dispatch cfg c s with
      | .ok (s', _) => s'
      | .error _ => s
  | .environment act => { s with chain := act s.chain }

/-- The state after a list of steps. -/
def run (cfg : Config A X) (s : State N X) (steps : List (Step A X)) : State N X :=
  steps.foldl (exec cfg) s

/-- The state is reached by a run from the empty storage. -/
def Reachable (cfg : Config A X) (s : State N X) : Prop :=
  ∃ (x : X) (steps : List (Step A X)), s = run cfg (.genesis x) steps

variable {cfg : Config A X} {s s' : State N X} {c : Call A}

@[simp] theorem run_nil : run cfg s [] = s := rfl

@[simp] theorem run_concat (steps : List (Step A X)) (step : Step A X) :
    run cfg s (steps ++ [step]) = exec cfg (run cfg s steps) step := by
  simp [run]

theorem exec_of_ok {info : PostDispatchInfo} (h : dispatch cfg c s = .ok (s', info)) :
    exec cfg s (.call c) = s' := by
  simp only [exec, h]

theorem exec_of_error {e : Abort Error Empty} (h : dispatch cfg c s = .error e) :
    exec cfg s (.call c) = s := by
  simp only [exec, h]

/-! ## What a successful call does -/

/-- The ways in which a call can succeed. -/
inductive Effect (cfg : Config A X) (s : State N X) : Call A → State N X → Prop
  /-- An authority is registered. -/
  | registered {origin : RawOrigin A} {name : CaName N}
      {rootCert : BoundedVec UInt8 maxRootCertLength}
      (hnew : name ∉ s.certificateAuthorities) :
      Effect cfg s (.registerCa origin name.toList rootCert.toList)
        { s with
          certificateAuthorities :=
            s.certificateAuthorities.insert name ⟨rootCert, 0, BoundedMap.empty⟩
          revoked := s.revoked.insert name BoundedVec.empty
          events := s.events ++ [.caRegistered name] }
  /-- An authority is unregistered. -/
  | unregistered {origin : RawOrigin A} {name : CaName N}
      (hmem : name ∈ s.certificateAuthorities) :
      Effect cfg s (.unregisterCa origin name.toList)
        { s with
          certificateAuthorities := s.certificateAuthorities.erase name
          revoked := s.revoked.erase name
          events := s.events ++ [.caUnregistered name] }
  /-- The entries of an issuer are replaced. -/
  | updated {who : A} {name : CaName N} {input : CrlInput} {info : CaInfo} {thisUpdate : ℕ}
      {first : RevokedCertId} {rest : CrlEntries} {store : RevokedList}
      {versions : BoundedMap H256 ℕ maxIssuersPerCa}
      (hlookup : s.certificateAuthorities.lookup name = some info)
      (hparse : parseInput cfg input info.rootCert.toList (cfg.now s.chain) =
        .ok (thisUpdate, first :: rest))
      (hnewer : isNewer thisUpdate (info.crlVersions.get (cfg.blake2_256 first.issuer)) = true)
      (hstore : reported store =
        ((s.reportedFor name).filter fun r => decide (r.issuer ≠ first.issuer)) ++ first :: rest)
      (hversions : info.crlVersions.tryInsert (cfg.blake2_256 first.issuer) thisUpdate =
        some versions) :
      Effect cfg s (.updateCrl (.signed who) name.toList input)
        { s with
          certificateAuthorities := s.certificateAuthorities.insert name
            { info with revokedCount := store.toList.length, crlVersions := versions }
          revoked := s.revoked.insert name store
          events := s.events ++
            [.crlUpdated name first.issuer thisUpdate store.toList.length] }

private theorem effect_of_registerCa {origin : RawOrigin A} {name rootCert : Bytes}
    {info : PostDispatchInfo} (h : registerCa cfg origin name rootCert s = .ok (s', info)) :
    Effect cfg s (.registerCa origin name rootCert) s' := by
  unfold registerCa at h
  obtain ⟨_, -, h⟩ := seq_eq_ok.mp h
  obtain ⟨_, -, h⟩ := seq_eq_ok.mp h
  obtain ⟨_, -, h⟩ := seq_eq_ok.mp h
  obtain ⟨bounded, hname, h⟩ := seq_eq_ok.mp h
  obtain ⟨_, hnew, h⟩ := seq_eq_ok.mp h
  obtain ⟨boundedCert, hcert, h⟩ := seq_eq_ok.mp h
  cases h
  obtain rfl := BoundedVec.tryFrom_eq_some.mp (okOr_eq_ok.mp hname)
  obtain rfl := BoundedVec.tryFrom_eq_some.mp (okOr_eq_ok.mp hcert)
  exact .registered (of_decide_eq_true (ensure_eq_ok.mp hnew))

private theorem effect_of_unregisterCa {origin : RawOrigin A} {name : Bytes}
    {info : PostDispatchInfo} (h : unregisterCa cfg origin name s = .ok (s', info)) :
    Effect cfg s (.unregisterCa origin name) s' := by
  unfold unregisterCa at h
  obtain ⟨_, -, h⟩ := seq_eq_ok.mp h
  obtain ⟨bounded, hname, h⟩ := seq_eq_ok.mp h
  obtain ⟨_, hmem, h⟩ := seq_eq_ok.mp h
  cases h
  obtain rfl := BoundedVec.tryFrom_eq_some.mp (okOr_eq_ok.mp hname)
  exact .unregistered (of_decide_eq_true (ensure_eq_ok.mp hmem))

private theorem effect_of_updateCrl {origin : RawOrigin A} {name : Bytes} {input : CrlInput}
    {info : PostDispatchInfo} (h : updateCrl cfg origin name input s = .ok (s', info)) :
    Effect cfg s (.updateCrl origin name input) s' := by
  unfold updateCrl at h
  obtain ⟨who, horigin, h⟩ := seq_eq_ok.mp h
  obtain ⟨bounded, hname, h⟩ := seq_eq_ok.mp h
  obtain ⟨caInfo, hlookup, h⟩ := seq_eq_ok.mp h
  obtain ⟨⟨thisUpdate, entries⟩, hparse, h⟩ := seq_eq_ok.mp h
  obtain ⟨first, hfirst, h⟩ := seq_eq_ok.mp h
  obtain ⟨_, hnewer, h⟩ := seq_eq_ok.mp h
  obtain ⟨⟨count, s₁⟩, hmerge, h⟩ := seq_eq_ok.mp h
  obtain ⟨versions, hversions, h⟩ := seq_eq_ok.mp h
  obtain rfl := ensureSigned_eq_ok.mp horigin
  obtain rfl := BoundedVec.tryFrom_eq_some.mp (okOr_eq_ok.mp hname)
  obtain ⟨rest, rfl⟩ := List.head?_eq_some_iff.mp (okOr_eq_ok.mp hfirst)
  obtain ⟨store, hstore, rfl, rfl⟩ :=
    mergeRevokedCertsForCa_eq_ok.mp (raise_eq_ok.mp hmerge)
  cases h
  exact .updated (okOr_eq_ok.mp hlookup) (raise_eq_ok.mp hparse) (ensure_eq_ok.mp hnewer) hstore
    (okOr_eq_ok.mp hversions)

/-- Every successful call has one of the effects. -/
theorem effect_of_dispatch {info : PostDispatchInfo} (h : dispatch cfg c s = .ok (s', info)) :
    Effect cfg s c s' := by
  cases c with
  | registerCa => exact effect_of_registerCa h
  | unregisterCa => exact effect_of_unregisterCa h
  | updateCrl => exact effect_of_updateCrl h

/-- An update succeeds if it is newer and fits. -/
theorem updateCrl_ok (who : A) {name : CaName N} {input : CrlInput} {info : CaInfo}
    {thisUpdate : ℕ} {first : RevokedCertId} {rest : CrlEntries} {store : RevokedList}
    {versions : BoundedMap H256 ℕ maxIssuersPerCa}
    (hlookup : s.certificateAuthorities.lookup name = some info)
    (hparse : parseInput cfg input info.rootCert.toList (cfg.now s.chain) =
      .ok (thisUpdate, first :: rest))
    (hnewer : isNewer thisUpdate (info.crlVersions.get (cfg.blake2_256 first.issuer)) = true)
    (hstore : reported store =
      ((s.reportedFor name).filter fun r => decide (r.issuer ≠ first.issuer)) ++ first :: rest)
    (hversions : info.crlVersions.tryInsert (cfg.blake2_256 first.issuer) thisUpdate =
      some versions) :
    dispatch cfg (.updateCrl (.signed who) name.toList input) s =
      .ok ({ s with
          certificateAuthorities := s.certificateAuthorities.insert name
            { info with revokedCount := store.toList.length, crlVersions := versions }
          revoked := s.revoked.insert name store
          events := s.events ++
            [.crlUpdated name first.issuer thisUpdate store.toList.length] },
        ⟨some (updateWeight cfg input store.toList.length), .yes⟩) := by
  have hmerge : mergeRevokedCertsForCa name (first :: rest) first.issuer s =
      .ok (store.toList.length, { s with revoked := s.revoked.insert name store }) :=
    mergeRevokedCertsForCa_eq_ok.mpr ⟨store, hstore, rfl, rfl⟩
  simp only [dispatch, updateCrl, ensureSigned, BoundedVec.tryFrom_eq_some.mpr rfl, hlookup,
    hparse, List.head?_cons, hnewer, hmerge, hversions, okOr_some, raise_ok, ensure_true, ok_bind]
  rfl

/-- An update that is not newer is rejected. -/
theorem updateCrl_notNewer (who : A) {name : CaName N} {input : CrlInput} {info : CaInfo}
    {thisUpdate : ℕ} {first : RevokedCertId} {rest : CrlEntries}
    (hlookup : s.certificateAuthorities.lookup name = some info)
    (hparse : parseInput cfg input info.rootCert.toList (cfg.now s.chain) =
      .ok (thisUpdate, first :: rest))
    (hnewer : isNewer thisUpdate (info.crlVersions.get (cfg.blake2_256 first.issuer)) = false) :
    dispatch cfg (.updateCrl (.signed who) name.toList input) s =
      .error (.of (.module .notNewerCrl)) := by
  simp only [dispatch, updateCrl, ensureSigned, BoundedVec.tryFrom_eq_some.mpr rfl, hlookup,
    hparse, List.head?_cons, hnewer, okOr_some, raise_ok, ensure_false, ok_bind, error_bind]

/-- What holds initially and is preserved by every successful call and by the rest of the chain
holds after every run. -/
theorem run_induction {Q : State N X → Prop} {steps : List (Step A X)} (hinit : Q s)
    (hcall : ∀ s c s', Q s → Effect cfg s c s' → Q s')
    (henv : ∀ s x, Q s → Q { s with chain := x }) : Q (run cfg s steps) := by
  induction steps using List.reverseRecOn with
  | nil => exact hinit
  | append_singleton steps step ih =>
      rw [run_concat]
      cases step with
      | environment act => exact henv _ _ ih
      | call c =>
          simp only [exec]
          split
          · rename_i s' info hok
            exact hcall _ c s' ih (effect_of_dispatch hok)
          · exact ih

end ZkVerify.Crl
