import ZkVerify.Crl.Store
import ZkVerify.Verifiers.ByHash

/-!
# Revocation and registered keys

The tee pallet next to the crl pallet: the chain of the former is the storage of the latter
and what lies beyond, the clock in particular.  An Intel key carries certificates, which may
expire or be revoked after the key was registered.  `validate_vk` checks them, but a
submission by hash does not call it, and `verify_proof` checks the certificates of the proof
and not those of the key.

So a registered key is used as long as it is stored.  It is valid whenever it is used if no
step of the run outdates it, `by_hash_valid`.
-/

namespace ZkVerify.Verifiers.Tee

open Frame

variable {A X T : Type} {N : ℕ}

/-! ## The two pallets together -/

/-- The verifier reads the clock and the revocation lists of the crl pallet. -/
structure Crate.ReadsCrl (crate : Crate (Crl.State N X) Crl.CrlEntries) (crl : Crl.Config A X) :
    Prop where
  now_eq : ∀ x, crate.now x = crl.now x.chain
  getCrl_eq : ∀ name x, crate.getCrl name x = Crl.getCrl name x

/-- The same revocation lists and the same time. -/
def SameLists (crl : Crl.Config A X) (x x' : Crl.State N X) : Prop :=
  x'.revoked = x.revoked ∧ crl.now x'.chain = crl.now x.chain

/-- The callback and the deposits of the tee pallet leave the crl pallet and the clock alone. -/
structure LeavesCrl (cfg : Config A Vk Proof Pubs (Crl.State N X) T) (crl : Crl.Config A X) :
    Prop where
  callback : ∀ {account domainId statement x x'},
    cfg.onProofVerified account domainId statement x = some x' → SameLists crl x x'
  new : ∀ {who footprint x ticket x'},
    cfg.ticket.new who footprint x = .ok (ticket, x') → SameLists crl x x'
  drop : ∀ {ticket who x x'}, cfg.ticket.drop ticket who x = .ok x' → SameLists crl x x'

/-- A step of the two pallets: a call of one of them, or the passage of time. -/
inductive SystemStep (A X : Type)
  | tee (c : Call A Vk Proof Pubs)
  | crl (step : Crl.Step A X)

/-- For the tee pallet, the crl pallet is a part of the rest of the chain. -/
def SystemStep.toStep (crl : Crl.Config A X) :
    SystemStep A X → Step A Vk Proof Pubs (Crl.State N X)
  | .tee c => .call c
  | .crl step => .environment fun x => Crl.exec crl x step

variable [DecidableEq A]

/-- The state of the two pallets after a list of steps, from the empty storage. -/
def systemRun (cfg : Config A Vk Proof Pubs (Crl.State N X) T) (crl : Crl.Config A X) (x : X)
    (steps : List (SystemStep A X)) : State A Vk (Crl.State N X) T :=
  run cfg (.genesis (.genesis x)) (steps.map (SystemStep.toStep crl))

variable {cfg : Config A Vk Proof Pubs (Crl.State N X) T} {crl : Crl.Config A X}
  {crate : Crate (Crl.State N X) Crl.CrlEntries} {s : State A Vk (Crl.State N X) T}
  {tcbResponse certificates : ByteVec}

theorem systemRun_reachable (x : X) (steps : List (SystemStep A X)) :
    Reachable cfg (systemRun cfg crl x steps) :=
  ⟨_, _, rfl⟩

theorem systemRun_concat (x : X) (steps : List (SystemStep A X)) (step : SystemStep A X) :
    systemRun cfg crl x (steps ++ [step]) =
      exec cfg (systemRun cfg crl x steps) (step.toStep crl) := by
  rw [systemRun, List.map_append, List.map_singleton, run_concat, systemRun]

/-- A call of the tee pallet leaves the revocation lists and the clock alone. -/
theorem LeavesCrl.exec_call (h : LeavesCrl cfg crl) (c : Call A Vk Proof Pubs) :
    SameLists crl s.chain (exec cfg s (.call c)).chain := by
  simp only [exec]
  split
  · rename_i s' info hok
    cases effect_of_dispatch hok with
    | verified _ _ _ hcallback => exact h.callback hcallback
    | registered _ _ _ hticket => exact h.new hticket
    | switched => exact ⟨rfl, rfl⟩
    | unregistered _ hdrop => exact h.drop hdrop
    | unregisteredLast _ hdrop => exact h.drop hdrop
  · exact ⟨rfl, rfl⟩

/-! ## Outdated keys -/

/-- The certificates and the signature of an Intel key are not valid with the revocation list
that is stored and at the present time. -/
def Outdated (crate : Crate (Crl.State N X) Crl.CrlEntries) (tcbResponse certificates : ByteVec)
    (x : Crl.State N X) : Prop :=
  ∃ entries, crate.getCrl (crate.caNameFor (.intel tcbResponse certificates)) x = some entries ∧
    crate.tcbResponseVerify tcbResponse.toList certificates.toList entries (crate.now x) = false

omit [DecidableEq A] in
theorem SameLists.outdated_iff (hreads : crate.ReadsCrl crl) {x x' : Crl.State N X}
    (h : SameLists crl x x') :
    Outdated crate tcbResponse certificates x' ↔ Outdated crate tcbResponse certificates x := by
  have hlists : ∀ name, Crl.getCrl name x' = Crl.getCrl name x := by
    intro name
    simp only [Crl.getCrl, Crl.getCrlForCa, h.1]
  simp only [Outdated, hreads.now_eq, hreads.getCrl_eq, hlists, h.2]

theorem not_outdated_of_validateVk {x : Crl.State N X}
    (h : validateVk crate (.intel tcbResponse certificates) x = .ok ()) :
    ¬ Outdated crate tcbResponse certificates x := by
  obtain ⟨-, -, entries, hentries, hverify⟩ := validateVk_intel_eq_ok.mp h
  rintro ⟨entries', hentries', hfails⟩
  rw [hentries] at hentries'
  cases hentries'
  rw [hverify] at hfails
  cases hfails

/-- A proof is only verified if there is a revocation list for the key. -/
theorem getCrl_of_verifyProof {vk : Vk} {proof : Proof} {pubs : Pubs} {x : Crl.State N X}
    {weight : Option Weight} (h : verifyProof crate vk proof pubs x = .ok weight) :
    ∃ entries, crate.getCrl (crate.caNameFor vk) x = some entries := by
  obtain ⟨_, -, h⟩ := seq_eq_ok.mp h
  obtain ⟨_, -, h⟩ := seq_eq_ok.mp h
  obtain ⟨entries, hentries, -⟩ := seq_eq_ok.mp h
  exact ⟨entries, okOr_eq_ok.mp hentries⟩

/-- A stored key that verifies a proof is valid exactly if it is not outdated. -/
theorem validateVk_iff_not_outdated (htee : cfg.verifier = verifier cfg.hashing crate)
    (hs : Reachable cfg s) {h : H256} {entry : VkEntry Vk} (hlookup : s.vks.lookup h = some entry)
    (hvk : entry.vk = .intel tcbResponse certificates) {proof : Proof} {pubs : Pubs}
    {weight : Option Weight}
    (hverify : cfg.verifier.verifyProof entry.vk proof pubs s.chain = .ok weight) :
    cfg.verifier.validateVk entry.vk s.chain = .ok () ↔
      ¬ Outdated crate tcbResponse certificates s.chain := by
  obtain ⟨x, hvalid⟩ := hs.stored_valid hlookup
  rw [htee, hvk] at hvalid hverify ⊢
  refine ⟨not_outdated_of_validateVk, fun hcurrent => ?_⟩
  obtain ⟨hlengths, hdecodable, -⟩ := validateVk_intel_eq_ok.mp hvalid
  obtain ⟨entries, hentries⟩ := getCrl_of_verifyProof hverify
  refine validateVk_intel_eq_ok.mpr ⟨hlengths, hdecodable, entries, hentries, ?_⟩
  rw [← Bool.not_eq_false]
  exact fun hfails => hcurrent ⟨entries, hentries, hfails⟩

/-! ## Runs that outdate no key -/

/-- The step does not outdate a registered key: no call of the crl pallet revokes its certificates
and they do not expire. -/
def KeepsKeys (crl : Crl.Config A X) (crate : Crate (Crl.State N X) Crl.CrlEntries)
    (s : State A Vk (Crl.State N X) T) : SystemStep A X → Prop
  | .tee _ => True
  | .crl step => ∀ h entry tcbResponse certificates, s.vks.lookup h = some entry →
      entry.vk = .intel tcbResponse certificates →
      ¬ Outdated crate tcbResponse certificates s.chain →
        ¬ Outdated crate tcbResponse certificates (Crl.exec crl s.chain step)

/-- No registered key is outdated. -/
def Current (crate : Crate (Crl.State N X) Crl.CrlEntries) (s : State A Vk (Crl.State N X) T) :
    Prop :=
  ∀ h entry tcbResponse certificates, s.vks.lookup h = some entry →
    entry.vk = .intel tcbResponse certificates →
      ¬ Outdated crate tcbResponse certificates s.chain

theorem Current.step (htee : cfg.verifier = verifier cfg.hashing crate)
    (hreads : crate.ReadsCrl crl) (hleaves : LeavesCrl cfg crl) (h : Current crate s)
    {step : SystemStep A X} (hkeeps : KeepsKeys crl crate s step) :
    Current crate (exec cfg s (step.toStep crl)) := by
  intro hash entry tcbResponse certificates hlookup hvk
  cases step with
  | crl step => exact hkeeps hash entry _ _ hlookup hvk (h hash entry _ _ hlookup hvk)
  | tee c =>
      rw [SystemStep.toStep, (hleaves.exec_call c).outdated_iff hreads]
      rcases exec_stored hlookup with ⟨old, hold, hsame⟩ | ⟨origin, -, -, hvalid⟩
      · exact h hash old _ _ hold (hsame.trans hvk)
      · rw [htee, hvk] at hvalid
        exact not_outdated_of_validateVk hvalid

theorem current_systemRun (htee : cfg.verifier = verifier cfg.hashing crate)
    (hreads : crate.ReadsCrl crl) (hleaves : LeavesCrl cfg crl) {x : X}
    {steps : List (SystemStep A X)}
    (hkeeps : ∀ before step after, steps = before ++ step :: after →
      KeepsKeys crl crate (systemRun cfg crl x before) step) :
    Current crate (systemRun cfg crl x steps) := by
  induction steps using List.reverseRecOn with
  | nil =>
      intro hash entry _ _ hlookup
      simp [systemRun, State.genesis] at hlookup
  | append_singleton steps step ih =>
      rw [systemRun_concat]
      refine (ih fun before step' after hsteps => ?_).step htee hreads hleaves
        (hkeeps steps step [] rfl)
      exact hkeeps before step' (after ++ [step]) (by simp [hsteps])

/-- In a run whose steps outdate no registered key, an Intel key whose hash is accepted is valid in
the same state, and the key itself is accepted as well. -/
theorem by_hash_valid (htee : cfg.verifier = verifier cfg.hashing crate)
    (hreads : crate.ReadsCrl crl) (hleaves : LeavesCrl cfg crl) {x : X}
    {steps : List (SystemStep A X)}
    (hkeeps : ∀ before step after, steps = before ++ step :: after →
      KeepsKeys crl crate (systemRun cfg crl x before) step)
    (hcollision : ∀ h entry, (systemRun cfg crl x steps).vks.lookup h = some entry →
      cfg.verifier.vkHash entry.vk = cfg.verifier.vkHash (.intel tcbResponse certificates) →
        entry.vk = .intel tcbResponse certificates)
    {origin : RawOrigin A} {proof : Proof} {pubs : Pubs} {domainId : Option ℕ}
    {s' : State A Vk (Crl.State N X) T} {info : PostDispatchInfo}
    (hok : submitProof cfg origin
      (.hash (cfg.verifier.vkHash (.intel tcbResponse certificates))) proof pubs domainId
      (systemRun cfg crl x steps) = .ok (s', info)) :
    cfg.verifier.validateVk (.intel tcbResponse certificates) (systemRun cfg crl x steps).chain =
        .ok () ∧
      ∃ info', submitProof cfg origin (.vk (.intel tcbResponse certificates)) proof pubs domainId
        (systemRun cfg crl x steps) = .ok (s', info') := by
  have hs : Reachable cfg (systemRun cfg crl x steps) := systemRun_reachable x steps
  have heffect : Effect cfg _ (.submitProof origin _ proof pubs domainId) s' :=
    effect_of_dispatch hok
  obtain ⟨entry, hlookup, weight, hverify⟩ : ∃ entry,
      (systemRun cfg crl x steps).vks.lookup
        (cfg.verifier.vkHash (.intel tcbResponse certificates)) = some entry ∧
      ∃ weight, cfg.verifier.verifyProof entry.vk proof pubs (systemRun cfg crl x steps).chain =
        .ok weight := by
    cases heffect with
    | verified _ hresolve hverify =>
        obtain ⟨entry, hlookup, rfl⟩ := resolveVk_hash_eq_ok.mp hresolve
        exact ⟨entry, hlookup, _, hverify⟩
  have hvk := hcollision _ entry hlookup (hs.registered.hashed _ entry hlookup)
  have hcurrent := current_systemRun htee hreads hleaves hkeeps _ entry _ _ hlookup hvk
  have hvalid := (validateVk_iff_not_outdated htee hs hlookup hvk hverify).mpr hcurrent
  have hsame := hs.sameAnswer hlookup hvalid origin proof pubs domainId
  rw [hvk] at hvalid hsame
  refine ⟨hvalid, ?_⟩
  rcases hsame with ⟨_, _, _, _, info', _, hfirst, hsecond⟩ | ⟨e, hfirst, -⟩
  · rw [hok] at hfirst
    cases hfirst
    exact ⟨info', hsecond⟩
  · rw [hok] at hfirst
    cases hfirst

/-! ## A key whose certificate is revoked -/

/-- The bytes of a TCB response and of the certificates of its signature. -/
def sampleTcbResponse : ByteVec := ⟨[0x7b, 0x7d], by decide⟩

/-- The certificates of the signature; the serial number of the first one is `0x99`. -/
def sampleCertificates : ByteVec := ⟨[0x99], by decide⟩

/-- A crate that accepts every quote, and the sample key up to the time `100` unless its certificate
is revoked. -/
def sampleCrlCrate : Crate (Crl.State 32 ℕ) Crl.CrlEntries where
  now x := x.chain
  getCrl name x := Crl.getCrl name x
  caNameFor _ := Crl.sampleName.toList
  quoteIsReadable _ := true
  tcbIsReadable _ := true
  tcbInfoVerify _ _ := true
  quoteVerify _ _ _ _ := true
  attestationIsReadable _ := false
  attestationVerify _ _ _ := false
  tcbIsDecodable _ := true
  tcbResponseVerify _ certificates crl now :=
    decide ((⟨Crl.sampleIssuer [0], certificates⟩ : Crl.RevokedCertId) ∉ crl ∧ now ≤ 100)
  intelVerifyProof := ⟨0, 0⟩
  nitroVerifyProof := ⟨0, 0⟩

/-- The hash function on the encoded sample key. -/
def sampleCrlHashing : Hashing
  | .keccak256, [0, 8, 0x7b, 0x7d, 4, 0x99] =>
      h256 0x79cc8667da64a58743cc33022e5578366363892e3b73d2940f8f3faf266e69db
  | _, _ => h256 0

/-- The pallet next to the crl pallet, without deposits. -/
def sampleCrlConfig : Config ℕ Vk Proof Pubs (Crl.State 32 ℕ) Unit where
  verifier := verifier sampleCrlHashing sampleCrlCrate
  hashing := sampleCrlHashing
  onProofVerified _ _ _ x := some x
  onProofVerifiedWeight _ := ⟨0, 0⟩
  ticket := ⟨fun _ _ x => .ok ((), x), fun _ _ _ x => .ok ((), x), fun _ _ x => .ok x,
    fun _ => 0, fun _ => 0⟩
  weightInfo := ⟨fun _ _ => ⟨0, 0⟩, ⟨0, 0⟩, fun _ => ⟨0, 0⟩, fun _ _ => ⟨0, 0⟩⟩
  dbRead := ⟨0, 0⟩
  onVerifyDisabledVerifier := ⟨0, 0⟩

/-- The authority and the key are registered. -/
def sampleSteps : List (SystemStep ℕ ℕ) :=
  [.crl (.call (.registerCa .root Crl.sampleName.toList [0x30])),
    .tee (.registerVk (.signed 1) (.intel sampleTcbResponse sampleCertificates))]

/-- Another certificate of the same issuer is revoked, and time passes. -/
def sampleLater : List (SystemStep ℕ ℕ) :=
  sampleSteps ++
    [.crl (.call (.updateCrl (.signed 3) Crl.sampleName.toList (.pem [1, 0x55] [0]))),
      .crl (.environment fun now => now + 60)]

/-- The only key that is ever stored is the sample key. -/
theorem sampleLater_stored {before : List (SystemStep ℕ ℕ)} (hbefore : before ⊆ sampleLater)
    {h : H256} {entry : VkEntry Vk}
    (hlookup : (systemRun sampleCrlConfig Crl.sampleConfig 0 before).vks.lookup h = some entry) :
    entry.vk = .intel sampleTcbResponse sampleCertificates := by
  obtain ⟨origin, hmem⟩ := registered_of_stored _ _ hlookup
  have hlater := List.map_subset (SystemStep.toStep Crl.sampleConfig) hbefore hmem
  have hregistered : origin = .signed 1 ∧
      entry.vk = .intel sampleTcbResponse sampleCertificates := by
    simpa [sampleLater, sampleSteps, SystemStep.toStep] using hlater
  exact hregistered.2

/-- The sample key is valid while its certificate is not on the list and the time is not over. -/
theorem sampleKey_not_outdated {x : Crl.State 32 ℕ} (entries : Crl.CrlEntries)
    (hcrl : Crl.getCrl Crl.sampleName.toList x = some entries)
    (hmem : (⟨Crl.sampleIssuer [0], sampleCertificates.toList⟩ : Crl.RevokedCertId) ∉ entries)
    (hnow : x.chain ≤ 100) :
    ¬ Outdated sampleCrlCrate sampleTcbResponse sampleCertificates x := by
  rintro ⟨entries', hentries', hfails⟩
  obtain rfl := Option.some.inj (hcrl.symm.trans hentries')
  exact of_decide_eq_false hfails ⟨hmem, hnow⟩

/-- No step outdates the sample key. -/
theorem sampleLater_keepsKeys (before : List (SystemStep ℕ ℕ)) (step : SystemStep ℕ ℕ)
    (after : List (SystemStep ℕ ℕ)) (hsteps : sampleLater = before ++ step :: after) :
    KeepsKeys Crl.sampleConfig sampleCrlCrate
      (systemRun sampleCrlConfig Crl.sampleConfig 0 before) step := by
  have hbefore : before ⊆ sampleLater := by
    rw [hsteps]
    exact List.subset_append_left _ _
  have hentry : ∀ {h entry tcbResponse certificates},
      (systemRun sampleCrlConfig Crl.sampleConfig 0 before).vks.lookup h = some entry →
      entry.vk = .intel tcbResponse certificates →
      tcbResponse = sampleTcbResponse ∧ certificates = sampleCertificates := by
    intro h entry tcbResponse certificates hlookup hvk
    have hsample := sampleLater_stored hbefore hlookup
    rw [hvk] at hsample
    exact Vk.intel.inj hsample
  match before with
  | [] =>
      cases hsteps
      intro h entry _ _ hlookup
      simp [systemRun, State.genesis] at hlookup
  | [_] =>
      cases hsteps
      trivial
  | [_, _] | [_, _, _] =>
      cases hsteps
      intro h entry _ _ hlookup hvk _
      obtain ⟨rfl, rfl⟩ := hentry hlookup hvk
      exact sampleKey_not_outdated [⟨Crl.sampleIssuer [0], [0x55]⟩] (by decide) (by decide)
        (by decide)
  | _ :: _ :: _ :: _ :: _ => simp [sampleLater, sampleSteps] at hsteps

theorem by_hash_valid_sample :
    let s := systemRun sampleCrlConfig Crl.sampleConfig 0 sampleLater
    let vk := Vk.intel sampleTcbResponse sampleCertificates
    (∃ s' info, submitProof sampleCrlConfig (.signed 2)
      (.hash (sampleCrlConfig.verifier.vkHash vk)) [1] [] none s = .ok (s', info)) ∧
      sampleCrlConfig.verifier.validateVk vk s.chain = .ok () := by
  intro s vk
  have htee : sampleCrlConfig.verifier = verifier sampleCrlConfig.hashing sampleCrlCrate := rfl
  have hreads : sampleCrlCrate.ReadsCrl Crl.sampleConfig := ⟨fun _ => rfl, fun _ _ => rfl⟩
  have hleaves : LeavesCrl sampleCrlConfig Crl.sampleConfig :=
    ⟨by rintro _ _ _ _ _ ⟨⟩; exact ⟨rfl, rfl⟩, by rintro _ _ _ _ _ ⟨⟩; exact ⟨rfl, rfl⟩,
      by rintro _ _ _ _ ⟨⟩; exact ⟨rfl, rfl⟩⟩
  obtain ⟨s', info, hok⟩ : ∃ s' info, submitProof sampleCrlConfig (.signed 2)
      (.hash (sampleCrlConfig.verifier.vkHash vk)) [1] [] none s = .ok (s', info) := ⟨_, _, rfl⟩
  exact ⟨⟨s', info, hok⟩, (by_hash_valid htee hreads hleaves sampleLater_keepsKeys
    (fun _ _ hlookup _ => sampleLater_stored (List.Subset.refl _) hlookup) hok).1⟩

/-- The certificate of the key is revoked. -/
def sampleRevocation : SystemStep ℕ ℕ :=
  .crl (.call (.updateCrl (.signed 1) Crl.sampleName.toList (.pem [1, 0x99] [0])))

/-- After the revocation the key is not valid any more and a submission of the key is rejected, but
one of its hash is accepted. -/
theorem revoked_key_accepted :
    let s := systemRun sampleCrlConfig Crl.sampleConfig 0 (sampleSteps ++ [sampleRevocation])
    let vk := Vk.intel sampleTcbResponse sampleCertificates
    sampleCrlConfig.verifier.validateVk vk s.chain = .error (.error .verifyError) ∧
      submitProof sampleCrlConfig (.signed 2) (.vk vk) [1] [] none s =
        .error (.of (.module .verifyError)) ∧
      ∃ s' info, submitProof sampleCrlConfig (.signed 2)
        (.hash (sampleCrlConfig.verifier.vkHash vk)) [1] [] none s = .ok (s', info) :=
  ⟨by decide, rfl, _, _, rfl⟩

end ZkVerify.Verifiers.Tee
