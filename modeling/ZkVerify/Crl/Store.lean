import ZkVerify.Crl.Run

/-!
# The revocation store

The pallet keeps an authority in two maps, and within them a list of certificates, its
length and the version of the last list of each issuer.  `Consistent` says how they fit
together; every call preserves it.  On top of it, for whole runs: versions only grow, and a
revoked certificate disappears from the reports only through a newer list of its own issuer
or with its authority.
-/

namespace ZkVerify.Crl

open Frame

variable {A X : Type} {N : ℕ}

/-- A parsed revocation list has one issuer for all its entries. -/
def Config.SingleIssuer (cfg : Config A X) : Prop :=
  ∀ crl certChain root now thisUpdate entries,
    cfg.parseCrlPem crl certChain root now = some (thisUpdate, entries) ∨
      cfg.parseCrlDer crl certChain root now = some (thisUpdate, entries) →
    ∀ r ∈ entries, ∀ r' ∈ entries, r.issuer = r'.issuer

variable {cfg : Config A X} {s s' : State N X} {c : Call A}

theorem Config.SingleIssuer.of_parseInput (hsingle : cfg.SingleIssuer) {input : CrlInput}
    {root : Bytes} {now thisUpdate : ℕ} {entries : CrlEntries}
    (h : parseInput cfg input root now = .ok (thisUpdate, entries)) :
    ∀ r ∈ entries, ∀ r' ∈ entries, r.issuer = r'.issuer := by
  cases input with
  | pem crl certChain =>
      obtain ⟨_, -, h⟩ := seq_eq_ok.mp h
      obtain ⟨_, -, h⟩ := seq_eq_ok.mp h
      exact hsingle _ _ _ _ _ _ (.inl (okOr_eq_ok.mp h))
  | der crl certChain =>
      obtain ⟨_, -, h⟩ := seq_eq_ok.mp h
      obtain ⟨_, -, h⟩ := seq_eq_ok.mp h
      exact hsingle _ _ _ _ _ _ (.inr (okOr_eq_ok.mp h))

/-! ## The two maps and what they hold -/

/-- What is stored for one authority fits together. -/
structure Matches (cfg : Config A X) (info : CaInfo) (store : RevokedList) : Prop where
  count : info.revokedCount = store.toList.length
  issuers : ∀ h, h ∈ info.crlVersions.toFinmap ↔ ∃ r ∈ reported store, cfg.blake2_256 r.issuer = h

/-- The two maps have the same authorities, and matching values. -/
structure Consistent (cfg : Config A X) (s : State N X) : Prop where
  mem_iff : ∀ name, name ∈ s.certificateAuthorities ↔ name ∈ s.revoked
  matching : ∀ name info store, s.certificateAuthorities.lookup name = some info →
    s.revoked.lookup name = some store → Matches cfg info store

theorem Consistent.genesis (x : X) : Consistent cfg (.genesis x : State N X) where
  mem_iff name := by simp [State.genesis, Finmap.notMem_empty]
  matching name info store h := by simp [State.genesis] at h

theorem Matches.empty {rootCert : BoundedVec UInt8 maxRootCertLength} :
    Matches cfg ⟨rootCert, 0, BoundedMap.empty⟩ BoundedVec.empty where
  count := rfl
  issuers h := by simp [Finmap.notMem_empty]

/-- Replacing the entries of one issuer by a list of this issuer. -/
theorem Matches.replace {info : CaInfo} {old new : RevokedList} {first : RevokedCertId}
    {rest : CrlEntries} {thisUpdate : ℕ} {versions : BoundedMap H256 ℕ maxIssuersPerCa}
    (hold : Matches cfg info old)
    (hissuer : ∀ r ∈ first :: rest, r.issuer = first.issuer)
    (hnew : reported new =
      ((reported old).filter fun r => decide (r.issuer ≠ first.issuer)) ++ first :: rest)
    (hversions : info.crlVersions.tryInsert (cfg.blake2_256 first.issuer) thisUpdate =
      some versions) :
    Matches cfg { info with revokedCount := new.toList.length, crlVersions := versions } new where
  count := rfl
  issuers h := by
    rw [BoundedMap.tryInsert_eq_some.mp hversions, Finmap.mem_insert, hold.issuers h, hnew]
    constructor
    · rintro (rfl | ⟨r, hr, rfl⟩)
      · exact ⟨first, List.mem_append_right _ List.mem_cons_self, rfl⟩
      · by_cases hfirst : r.issuer = first.issuer
        · exact ⟨first, List.mem_append_right _ List.mem_cons_self, by rw [hfirst]⟩
        · exact ⟨r, List.mem_append_left _ (List.mem_filter.mpr ⟨hr, by simpa using hfirst⟩), rfl⟩
    · rintro ⟨r, hr, rfl⟩
      rcases List.mem_append.mp hr with hr | hr
      · exact .inr ⟨r, (List.mem_filter.mp hr).1, rfl⟩
      · exact .inl (by rw [hissuer r hr])

/-- Writing matching values for an authority to both maps. -/
theorem Consistent.insert (hs : Consistent cfg s) {name : CaName N} {info : CaInfo}
    {store : RevokedList} {events : List (Event N)} (hmatch : Matches cfg info store) :
    Consistent cfg { s with
      certificateAuthorities := s.certificateAuthorities.insert name info
      revoked := s.revoked.insert name store
      events } where
  mem_iff m := by rw [Finmap.mem_insert, Finmap.mem_insert, hs.mem_iff]
  matching m info' store' hinfo hstore := by
    by_cases hm : m = name
    · subst hm
      rw [Finmap.lookup_insert] at hinfo hstore
      cases hinfo
      cases hstore
      exact hmatch
    · rw [Finmap.lookup_insert_of_ne _ hm] at hinfo hstore
      exact hs.matching m info' store' hinfo hstore

theorem Consistent.effect (hsingle : cfg.SingleIssuer) (hs : Consistent cfg s)
    (heffect : Effect cfg s c s') : Consistent cfg s' := by
  cases heffect with
  | registered => exact hs.insert Matches.empty
  | @unregistered _ name =>
      refine ⟨fun m => ?_, fun m info store hinfo hstore => ?_⟩
      · rw [Finmap.mem_erase, Finmap.mem_erase, hs.mem_iff]
      · by_cases hm : m = name
        · subst hm
          simp at hinfo
        · rw [Finmap.lookup_erase_ne hm] at hinfo hstore
          exact hs.matching m info store hinfo hstore
  | updated hlookup hparse _ hstore hversions =>
      obtain ⟨old, hold⟩ :=
        Finmap.mem_iff.mp ((hs.mem_iff _).mp (Finmap.mem_of_lookup_eq_some hlookup))
      rw [reportedFor_of_lookup hold] at hstore
      refine hs.insert ((hs.matching _ _ _ hlookup hold).replace ?_ hstore hversions)
      exact fun r hr => hsingle.of_parseInput hparse r hr _ List.mem_cons_self

theorem Consistent.run (hsingle : cfg.SingleIssuer) (hs : Consistent cfg s)
    (steps : List (Step A X)) : Consistent cfg (run cfg s steps) :=
  run_induction hs (fun _ _ _ hs heffect => hs.effect hsingle heffect)
    fun _ _ hs => ⟨hs.mem_iff, hs.matching⟩

/-! ## One update -/

/-- The version recorded for an authority under the hash of an issuer. -/
def State.version (s : State N X) (name : CaName N) (h : H256) : Option ℕ :=
  (s.certificateAuthorities.lookup name).bind fun info => info.crlVersions.get h

theorem version_of_lookup {name : CaName N} {info : CaInfo}
    (hlookup : s.certificateAuthorities.lookup name = some info) (h : H256) :
    s.version name h = info.crlVersions.get h := by
  rw [State.version, hlookup, Option.bind_some]

/-- The call `c` replaces the entries of `issuer` for the authority `name` by a newer list, and
leaves everything else as it was. -/
structure Renewal (cfg : Config A X) (s : State N X) (c : Call A) (s' : State N X)
    (name : CaName N) (issuer : Bytes) (thisUpdate : ℕ) (entries : CrlEntries) : Prop where
  call : ∃ who input info, c = .updateCrl (.signed who) name.toList input ∧
    s.certificateAuthorities.lookup name = some info ∧
    parseInput cfg input info.rootCert.toList (cfg.now s.chain) = .ok (thisUpdate, entries)
  entries_ne_nil : entries ≠ []
  issuer_eq : ∀ r ∈ entries, r.issuer = issuer
  newer : ∀ v ∈ s.version name (cfg.blake2_256 issuer), v < thisUpdate
  version_eq : s'.version name (cfg.blake2_256 issuer) = some thisUpdate
  other_versions : ∀ h, h ≠ cfg.blake2_256 issuer → s'.version name h = s.version name h
  own_entries : (s'.reportedFor name).filter (fun r => decide (r.issuer = issuer)) = entries
  other_entries : (s'.reportedFor name).filter (fun r => decide (r.issuer ≠ issuer)) =
    (s.reportedFor name).filter (fun r => decide (r.issuer ≠ issuer))
  other_authorities : ∀ m, m ≠ name →
    s'.certificateAuthorities.lookup m = s.certificateAuthorities.lookup m ∧
      s'.revoked.lookup m = s.revoked.lookup m

theorem lt_of_isNewer {thisUpdate : ℕ} {version : Option ℕ}
    (h : isNewer thisUpdate version = true) : ∀ v ∈ version, v < thisUpdate := by
  rintro v rfl
  exact of_decide_eq_true h

/-- After a list of one issuer is appended to the entries of the others, it is what is reported
for this issuer. -/
theorem filter_replaced {issuer : Bytes} {old entries : CrlEntries}
    (hissuer : ∀ r ∈ entries, r.issuer = issuer) :
    ((old.filter fun r => decide (r.issuer ≠ issuer)) ++ entries).filter
        (fun r => decide (r.issuer = issuer)) = entries ∧
      ((old.filter fun r => decide (r.issuer ≠ issuer)) ++ entries).filter
        (fun r => decide (r.issuer ≠ issuer)) =
          old.filter fun r => decide (r.issuer ≠ issuer) := by
  constructor
  · have hnone : (old.filter fun r => decide (r.issuer ≠ issuer)).filter
        (fun r => decide (r.issuer = issuer)) = [] := by
      rw [List.filter_filter, List.filter_eq_nil_iff]
      simp
    rw [List.filter_append, hnone, List.nil_append, List.filter_eq_self]
    simpa using hissuer
  · have hnone : entries.filter (fun r => decide (r.issuer ≠ issuer)) = [] := by
      rw [List.filter_eq_nil_iff]
      simpa using hissuer
    rw [List.filter_append, hnone, List.append_nil, List.filter_filter]
    simp only [Bool.and_self]

theorem Effect.renewal (hsingle : cfg.SingleIssuer) {origin : RawOrigin A} {caName : Bytes}
    {input : CrlInput} (heffect : Effect cfg s (.updateCrl origin caName input) s') :
    ∃ name issuer thisUpdate entries,
      Renewal cfg s (.updateCrl origin caName input) s' name issuer thisUpdate entries := by
  cases heffect with
  | @updated who name _ info thisUpdate first rest store versions hlookup hparse hnewer hstore
      hversions =>
      have hissuer : ∀ r ∈ first :: rest, r.issuer = first.issuer :=
        fun r hr => hsingle.of_parseInput hparse r hr _ List.mem_cons_self
      have hinsert := BoundedMap.tryInsert_eq_some.mp hversions
      refine ⟨name, first.issuer, thisUpdate, first :: rest,
        ⟨who, input, info, rfl, hlookup, hparse⟩, List.cons_ne_nil _ _, hissuer, ?_, ?_, ?_, ?_,
        ?_, ?_⟩
      · rw [version_of_lookup hlookup]
        exact lt_of_isNewer hnewer
      · rw [version_of_lookup (Finmap.lookup_insert _)]
        exact BoundedMap.get_of_insert_self hinsert
      · intro h hne
        rw [version_of_lookup (Finmap.lookup_insert _), version_of_lookup hlookup]
        exact BoundedMap.get_of_insert_ne hinsert hne
      · rw [reportedFor_of_lookup (Finmap.lookup_insert _), hstore]
        exact (filter_replaced hissuer).1
      · rw [reportedFor_of_lookup (Finmap.lookup_insert _), hstore]
        exact (filter_replaced hissuer).2
      · intro m hm
        exact ⟨Finmap.lookup_insert_of_ne _ hm, Finmap.lookup_insert_of_ne _ hm⟩

/-! ## Whole runs -/

/-- A step of the run is a call that satisfies `P` in the state in which it is made. -/
def Occurs (cfg : Config A X) (s : State N X) (steps : List (Step A X))
    (P : State N X → Call A → Prop) : Prop :=
  ∃ before c after, steps = before ++ .call c :: after ∧ P (run cfg s before) c

/-- The call unregisters the authority. -/
def Unregisters (cfg : Config A X) (name : CaName N) (s : State N X) (c : Call A) : Prop :=
  (∃ origin, c = .unregisterCa origin name.toList) ∧ ∃ s' post, dispatch cfg c s = .ok (s', post)

/-- The call renews the entries of an issuer for the authority. -/
def Renews (cfg : Config A X) (name : CaName N) (issuer : Bytes) (s : State N X) (c : Call A) :
    Prop :=
  ∃ s' post thisUpdate entries, dispatch cfg c s = .ok (s', post) ∧
    Renewal cfg s c s' name issuer thisUpdate entries

theorem occurs_nil {P : State N X → Call A → Prop} : ¬ Occurs cfg s [] P := by
  rintro ⟨before, c, after, h, -⟩
  simp at h

theorem Occurs.concat {steps : List (Step A X)} {P : State N X → Call A → Prop}
    (h : Occurs cfg s steps P) (step : Step A X) : Occurs cfg s (steps ++ [step]) P := by
  obtain ⟨before, c, after, rfl, hP⟩ := h
  exact ⟨before, c, after ++ [step], by simp, hP⟩

theorem occurs_last {steps : List (Step A X)} {P : State N X → Call A → Prop}
    (h : P (run cfg s steps) c) : Occurs cfg s (steps ++ [.call c]) P :=
  ⟨steps, c, [], rfl, h⟩

theorem occurs_concat {steps : List (Step A X)} {step : Step A X}
    {P : State N X → Call A → Prop} (h : Occurs cfg s (steps ++ [step]) P) :
    Occurs cfg s steps P ∨ ∃ c, step = .call c ∧ P (run cfg s steps) c := by
  obtain ⟨before, c, after, hsteps, hP⟩ := h
  rcases List.eq_nil_or_concat' after with rfl | ⟨after, last, rfl⟩
  · obtain ⟨rfl, hstep⟩ := List.append_inj' hsteps rfl
    exact .inr ⟨c, by simpa using hstep, hP⟩
  · refine .inl ⟨before, c, after, ?_, hP⟩
    rw [← List.cons_append, ← List.append_assoc] at hsteps
    exact (List.append_inj' hsteps rfl).1

theorem version_congr {name : CaName N}
    (h : s'.certificateAuthorities.lookup name = s.certificateAuthorities.lookup name) :
    s'.version name = s.version name := by
  funext issuer
  rw [State.version, h, State.version]

theorem reportedFor_congr {name : CaName N} (h : s'.revoked.lookup name = s.revoked.lookup name) :
    s'.reportedFor name = s.reportedFor name := by
  rw [State.reportedFor, getCrlForCa, h, State.reportedFor, getCrlForCa]

/-- A call leaves what is stored for a registered authority alone, unregisters the authority or
renews the list of one of its issuers. -/
theorem Effect.authority_cases (hsingle : cfg.SingleIssuer) (heffect : Effect cfg s c s')
    {name : CaName N} (hmem : name ∈ s.certificateAuthorities) :
    (s'.certificateAuthorities.lookup name = s.certificateAuthorities.lookup name ∧
      s'.revoked.lookup name = s.revoked.lookup name) ∨
    (∃ origin, c = .unregisterCa origin name.toList) ∨
      ∃ issuer thisUpdate entries, Renewal cfg s c s' name issuer thisUpdate entries := by
  cases c with
  | registerCa =>
      cases heffect with
      | @registered _ registered _ hnew =>
          have hne : name ≠ registered := fun heq => hnew (heq ▸ hmem)
          exact .inl ⟨Finmap.lookup_insert_of_ne _ hne, Finmap.lookup_insert_of_ne _ hne⟩
  | unregisterCa origin caName =>
      cases heffect with
      | @unregistered _ gone _ =>
          by_cases hne : name = gone
          · exact .inr (.inl ⟨origin, by rw [hne]⟩)
          · exact .inl ⟨Finmap.lookup_erase_ne hne, Finmap.lookup_erase_ne hne⟩
  | updateCrl =>
      obtain ⟨updated, issuer, thisUpdate, entries, hrenewal⟩ := heffect.renewal hsingle
      by_cases hne : name = updated
      · subst hne
        exact .inr (.inr ⟨issuer, thisUpdate, entries, hrenewal⟩)
      · exact .inl (hrenewal.other_authorities name hne)

/-- As long as its authority stays registered, a recorded version does not decrease. -/
theorem Effect.version_le (hsingle : cfg.SingleIssuer) (heffect : Effect cfg s c s')
    {name : CaName N} {h : H256} {v : ℕ} (hv : s.version name h = some v) :
    (∃ origin, c = .unregisterCa origin name.toList) ∨
      ∃ v', s'.version name h = some v' ∧ v ≤ v' := by
  have hmem : name ∈ s.certificateAuthorities := by
    by_contra hnone
    rw [State.version, Finmap.lookup_eq_none.mpr hnone] at hv
    cases hv
  rcases heffect.authority_cases hsingle hmem with
    ⟨hkept, -⟩ | hgone | ⟨issuer, thisUpdate, entries, hrenewal⟩
  · exact .inr ⟨v, (congrFun (version_congr hkept) h).trans hv, le_rfl⟩
  · exact .inl hgone
  · right
    by_cases hh : h = cfg.blake2_256 issuer
    · subst hh
      exact ⟨thisUpdate, hrenewal.version_eq, (hrenewal.newer v hv).le⟩
    · exact ⟨v, (hrenewal.other_versions h hh).trans hv, le_rfl⟩

/-- A reported certificate is no longer reported only if its authority is unregistered or its
issuer's list is renewed. -/
theorem Effect.reported_or (hsingle : cfg.SingleIssuer) (hs : Consistent cfg s)
    (heffect : Effect cfg s c s') {name : CaName N} {r : RevokedCertId}
    (hr : r ∈ s.reportedFor name) :
    r ∈ s'.reportedFor name ∨ (∃ origin, c = .unregisterCa origin name.toList) ∨
      ∃ thisUpdate entries, Renewal cfg s c s' name r.issuer thisUpdate entries := by
  have hmem : name ∈ s.certificateAuthorities := by
    by_contra hnone
    rw [State.reportedFor, getCrlForCa,
      Finmap.lookup_eq_none.mpr (mt (hs.mem_iff name).mpr hnone)] at hr
    simp at hr
  rcases heffect.authority_cases hsingle hmem with
    ⟨-, hkept⟩ | hgone | ⟨issuer, thisUpdate, entries, hrenewal⟩
  · left
    rwa [reportedFor_congr hkept]
  · exact .inr (.inl hgone)
  · by_cases hissuer : r.issuer = issuer
    · subst hissuer
      exact .inr (.inr ⟨thisUpdate, entries, hrenewal⟩)
    · left
      have hkept : r ∈ (s.reportedFor name).filter fun r => decide (r.issuer ≠ issuer) :=
        List.mem_filter.mpr ⟨hr, by simpa using hissuer⟩
      rw [← hrenewal.other_entries] at hkept
      exact (List.mem_filter.mp hkept).1

/-- The issuer of a reported certificate has a recorded version. -/
theorem Consistent.exists_version (hs : Consistent cfg s) {name : CaName N} {r : RevokedCertId}
    (hr : r ∈ s.reportedFor name) : ∃ v, s.version name (cfg.blake2_256 r.issuer) = some v := by
  rw [State.reportedFor, getCrlForCa] at hr
  cases hstore : s.revoked.lookup name with
  | none => simp [hstore] at hr
  | some store =>
      rw [hstore] at hr
      obtain ⟨info, hinfo⟩ :=
        Finmap.mem_iff.mp ((hs.mem_iff name).mpr (Finmap.mem_of_lookup_eq_some hstore))
      have hmem := ((hs.matching _ _ _ hinfo hstore).issuers _).mpr ⟨r, hr, rfl⟩
      obtain ⟨v, hv⟩ := Finmap.mem_iff.mp hmem
      exact ⟨v, (version_of_lookup hinfo _).trans hv⟩

/-- One step without an unregistration: a version does not decrease, and it increases with a
list of the issuer. -/
theorem version_exec (hsingle : cfg.SingleIssuer) {name : CaName N} {issuer : Bytes} {v : ℕ}
    (step : Step A X) (hkeep : ∀ c, step = .call c → ¬ Unregisters cfg name s c)
    (hv : s.version name (cfg.blake2_256 issuer) = some v) :
    ∃ v', (exec cfg s step).version name (cfg.blake2_256 issuer) = some v' ∧ v ≤ v' ∧
      ∀ c, step = .call c → Renews cfg name issuer s c → v < v' := by
  cases step with
  | environment act => exact ⟨v, hv, le_rfl, by simp⟩
  | call c =>
      cases hd : dispatch cfg c s with
      | error e =>
          refine ⟨v, by rw [exec_of_error hd, hv], le_rfl, ?_⟩
          rintro _ ⟨⟩ ⟨s', post, _, _, hok, -⟩
          rw [hd] at hok
          cases hok
      | ok result =>
          obtain ⟨s', post⟩ := result
          rw [exec_of_ok hd]
          rcases (effect_of_dispatch hd).version_le hsingle hv with hun | ⟨v', hv', hle⟩
          · exact absurd ⟨hun, s', post, hd⟩ (hkeep c rfl)
          · refine ⟨v', hv', hle, ?_⟩
            rintro _ ⟨⟩ ⟨s'', post', thisUpdate, entries, hok, hrenewal⟩
            rw [hd] at hok
            cases hok
            obtain rfl : v' = thisUpdate :=
              Option.some.inj (hv'.symm.trans hrenewal.version_eq)
            exact hrenewal.newer v hv

/-- Versions along a run without an unregistration. -/
theorem version_run (hsingle : cfg.SingleIssuer) {name : CaName N} {issuer : Bytes} {v : ℕ}
    {steps : List (Step A X)} (hkeep : ¬ Occurs cfg s steps (Unregisters cfg name))
    (hv : s.version name (cfg.blake2_256 issuer) = some v) :
    ∃ v', (run cfg s steps).version name (cfg.blake2_256 issuer) = some v' ∧ v ≤ v' ∧
      (Occurs cfg s steps (Renews cfg name issuer) → v < v') := by
  induction steps using List.reverseRecOn with
  | nil => exact ⟨v, hv, le_rfl, fun h => absurd h occurs_nil⟩
  | append_singleton steps step ih =>
      obtain ⟨v₁, hv₁, hle₁, hlt₁⟩ := ih fun h => hkeep (h.concat step)
      obtain ⟨v', hv', hle, hlt⟩ := version_exec hsingle step
        (fun c hc hun => hkeep (hc ▸ occurs_last hun)) hv₁
      rw [run_concat]
      refine ⟨v', hv', hle₁.trans hle, fun hoccurs => ?_⟩
      rcases occurs_concat hoccurs with hearlier | ⟨c, hc, hrenews⟩
      · exact (hlt₁ hearlier).trans_le hle
      · exact hle₁.trans_lt (hlt c hc hrenews)

/-- A certificate that was reported and no longer is. -/
theorem reported_run (hsingle : cfg.SingleIssuer) (hs : Consistent cfg s) {name : CaName N}
    {r : RevokedCertId} {steps : List (Step A X)} (hr : r ∈ s.reportedFor name)
    (hgone : r ∉ (run cfg s steps).reportedFor name) :
    Occurs cfg s steps (Unregisters cfg name) ∨
      Occurs cfg s steps fun s c => (∃ v, s.version name (cfg.blake2_256 r.issuer) = some v) ∧
        Renews cfg name r.issuer s c := by
  induction steps using List.reverseRecOn with
  | nil => exact absurd hr hgone
  | append_singleton steps step ih =>
      by_cases hstill : r ∈ (run cfg s steps).reportedFor name
      · -- The last step is the one that removed it.
        have hs₁ : Consistent cfg (run cfg s steps) := hs.run hsingle steps
        rw [run_concat] at hgone
        cases step with
        | environment act => exact absurd hstill hgone
        | call c =>
            cases hd : dispatch cfg c (run cfg s steps) with
            | error e =>
                rw [exec_of_error hd] at hgone
                exact absurd hstill hgone
            | ok result =>
                obtain ⟨s', post⟩ := result
                rw [exec_of_ok hd] at hgone
                rcases (effect_of_dispatch hd).reported_or hsingle hs₁ hstill with
                  hkept | hun | ⟨thisUpdate, entries, hrenewal⟩
                · exact absurd hkept hgone
                · exact .inl (occurs_last ⟨hun, s', post, hd⟩)
                · exact .inr (occurs_last
                    ⟨hs₁.exists_version hstill, s', post, thisUpdate, entries, hd, hrenewal⟩)
      · exact (ih hstill).imp (fun h => h.concat step) fun h => h.concat step

theorem getCrl_eq (name : CaName N) (s : State N X) :
    getCrl name.toList s = getCrlForCa name s := by
  rw [getCrl, BoundedVec.tryFrom_eq_some.mpr rfl]
  rfl

theorem mem_reportedFor {name : CaName N} {r : RevokedCertId} :
    r ∈ s.reportedFor name ↔ ∃ crl, getCrl name.toList s = some crl ∧ r ∈ crl := by
  rw [getCrl_eq, State.reportedFor]
  cases getCrlForCa name s <;> simp

/-- The revocation store, in every reachable state and along every run from there: the two maps
and the counters fit together, an update replaces exactly the entries of its issuer, recorded
versions increase, and a certificate stays reported until its authority is unregistered or its
issuer publishes a newer list. -/
theorem revocation_store (hsingle : cfg.SingleIssuer) (hs : Reachable cfg s) :
    (∀ name, name ∈ s.certificateAuthorities ↔ name ∈ s.revoked) ∧
    (∀ name info store, s.certificateAuthorities.lookup name = some info →
      s.revoked.lookup name = some store →
        info.revokedCount = store.toList.length ∧ info.revokedCount ≤ maxRevokedCertsPerCa ∧
          info.crlVersions.length ≤ maxIssuersPerCa ∧
          ∀ h, h ∈ info.crlVersions.toFinmap ↔
            ∃ r ∈ store.toList, cfg.blake2_256 r.issuer.toList = h) ∧
    (∀ origin caName input s' post, updateCrl cfg origin caName input s = .ok (s', post) →
      ∃ name issuer thisUpdate entries,
        Renewal cfg s (.updateCrl origin caName input) s' name issuer thisUpdate entries) ∧
    (∀ steps name issuer v, ¬ Occurs cfg s steps (Unregisters cfg name) →
      s.version name (cfg.blake2_256 issuer) = some v →
        ∃ v', (run cfg s steps).version name (cfg.blake2_256 issuer) = some v' ∧ v ≤ v' ∧
          (Occurs cfg s steps (Renews cfg name issuer) → v < v')) ∧
    (∀ steps (name : CaName N) r, (∃ crl, getCrl name.toList s = some crl ∧ r ∈ crl) →
      (¬ ∃ crl, getCrl name.toList (run cfg s steps) = some crl ∧ r ∈ crl) →
        Occurs cfg s steps (Unregisters cfg name) ∨
          Occurs cfg s steps fun s c => (∃ v, s.version name (cfg.blake2_256 r.issuer) = some v) ∧
            Renews cfg name r.issuer s c) := by
  obtain ⟨x, before, rfl⟩ := hs
  have hconsistent : Consistent cfg (run cfg (.genesis x : State N X) before) :=
    (Consistent.genesis x).run hsingle before
  refine ⟨hconsistent.mem_iff, fun name info store hinfo hstore => ?_,
    fun origin caName input s' post hok => ?_, fun steps name issuer v hkeep hv => ?_,
    fun steps name r hr hgone => ?_⟩
  · have hmatch := hconsistent.matching name info store hinfo hstore
    refine ⟨hmatch.count, hmatch.count ▸ store.length_le, info.crlVersions.card_le, fun h => ?_⟩
    rw [hmatch.issuers h]
    simp [reported, RevokedInfo.toCertId]
  · exact (effect_of_dispatch (c := .updateCrl origin caName input) hok).renewal hsingle
  · exact version_run hsingle hkeep hv
  · exact reported_run hsingle hconsistent (mem_reportedFor.mpr hr) (mt mem_reportedFor.mp hgone)

/-- The length of the certificate chain tells which of two issuers signed a list. -/
def sampleIssuer (certChain : Bytes) : Bytes :=
  if certChain.length = 1 then ascii ['R', 'o', 'o', 't'] else ascii ['P', 'C', 'K']

/-- Lists with one entry: the first byte is the version, the others are the serial number. -/
def sampleParser (crl certChain : Bytes) (_ : Option Bytes) (_ : ℕ) : Option (ℕ × CrlEntries) :=
  match crl with
  | [] => none
  | version :: serial => some (version.toNat, [⟨sampleIssuer certChain, serial⟩])

/-- The pallet with `sampleParser`, on a chain whose state is the time. -/
def sampleConfig : Config ℕ ℕ where
  managerOrigin origin := origin matches .root
  now x := x
  parseCrlPem := sampleParser
  parseCrlDer := sampleParser
  blake2_256 issuer :=
    if issuer = ascii ['R', 'o', 'o', 't'] then
      h256 0x334d8894c9805385f2de84f01b49c6c437166b0694189f43d91867b0f3bb529a
    else h256 0x9c439448c9d909ffc8f93e727f656d2c7778be25732489685737d64991fd16d6
  weightInfo := ⟨⟨0, 0⟩, ⟨0, 0⟩, fun _ => ⟨0, 0⟩, fun _ => ⟨0, 0⟩⟩

theorem sampleConfig_singleIssuer : sampleConfig.SingleIssuer := by
  intro crl certChain root now thisUpdate entries hparse r hr r' hr'
  have hparse : sampleParser crl certChain root now = some (thisUpdate, entries) :=
    hparse.elim id id
  cases crl with
  | nil => cases hparse
  | cons version serial =>
      cases hparse
      rw [List.mem_singleton.mp hr, List.mem_singleton.mp hr']

/-- The name of the authority in the examples. -/
def sampleName : CaName 32 := ⟨ascii ['S', 'G', 'X'], by decide⟩

/-- An authority with one revoked certificate. -/
def sampleState : State 32 ℕ :=
  run sampleConfig (.genesis 0)
    [.call (.registerCa .root sampleName.toList [0x30]),
      .call (.updateCrl (.signed 1) sampleName.toList (.pem [1, 0x99] [0]))]

theorem revocation_store_sample :
    let later : List (Step ℕ ℕ) :=
      [.call (.updateCrl (.signed 1) sampleName.toList (.der [2, 0xaa] [0]))]
    getCrl sampleName.toList (run sampleConfig sampleState later) =
        some [⟨ascii ['R', 'o', 'o', 't'], [0xaa]⟩] ∧
      (Occurs sampleConfig sampleState later (Unregisters sampleConfig sampleName) ∨
        Occurs sampleConfig sampleState later fun s c =>
          (∃ v, s.version sampleName
            (sampleConfig.blake2_256 (ascii ['R', 'o', 'o', 't'])) = some v) ∧
          Renews sampleConfig sampleName (ascii ['R', 'o', 'o', 't']) s c) := by
  intro later
  have hreachable : Reachable sampleConfig sampleState := ⟨_, _, rfl⟩
  have hlater : getCrl sampleName.toList (run sampleConfig sampleState later) =
      some [⟨ascii ['R', 'o', 'o', 't'], [0xaa]⟩] := by decide
  refine ⟨hlater, ?_⟩
  refine (revocation_store sampleConfig_singleIssuer hreachable).2.2.2.2 later sampleName
    ⟨ascii ['R', 'o', 'o', 't'], [0x99]⟩
    ⟨[⟨ascii ['R', 'o', 'o', 't'], [0x99]⟩], by decide, by decide⟩ ?_
  rintro ⟨crl, hcrl, hmem⟩
  rw [hlater] at hcrl
  cases hcrl
  exact absurd hmem (by decide)

end ZkVerify.Crl
