import ZkVerify.Verifiers.ByHash
import ZkVerify.Verifiers.Tee

/-!
# Submitting a Nitro attestation

The key of a Nitro attestation has no content, and `validate_vk` rejects it: there is no
point in registering it.  But `submit_proof` checks a given key with the same
function, and a key that cannot be registered cannot be named by its hash either.  So a
Nitro attestation is never accepted, valid or not, unless the hash of the key collides
with the hash of a registered Intel key, `nitro_accepted_iff`.
-/

namespace ZkVerify.Verifiers

open Frame

variable {A X C T : Type}

/-- The call returns and announces a verified proof. -/
def Accepted {V P I : Type} (cfg : Config A V P I X T) (origin : RawOrigin A)
    (vkOrHash : VkOrHash V) (proof : P) (pubs : I) (domainId : Option ℕ) (s : State A V X T) :
    Prop :=
  ∃ s' info statement, submitProof cfg origin vkOrHash proof pubs domainId s = .ok (s', info) ∧
    s'.events = s.events ++ [.proofVerified statement]

namespace Tee

variable {cfg : Config A Vk Proof Pubs X T} {crate : Crate X C} {s : State A Vk X T}

/-- The key of a Nitro attestation is never valid. -/
theorem validateVk_nitro_ne_ok (htee : cfg.verifier = verifier cfg.hashing crate) (x : X) :
    cfg.verifier.validateVk .nitro x ≠ .ok () := by
  rw [htee]
  exact fun h => nomatch h

variable [DecidableEq A]

/-- An attempt to register it changes nothing. -/
theorem registerVk_nitro (htee : cfg.verifier = verifier cfg.hashing crate)
    (registrar : RawOrigin A) :
    exec cfg s (.call (.registerVk registrar .nitro)) = s := by
  simp only [exec]
  split
  · rename_i s' info hok
    cases effect_of_dispatch hok with
    | registered _ _ hvalid => exact absurd hvalid (validateVk_nitro_ne_ok htee s.chain)
  · rfl

/-- What is stored under the hash of the key is an Intel key with the same hash. -/
theorem stored_under_nitro (htee : cfg.verifier = verifier cfg.hashing crate)
    (hs : Reachable cfg s) {entry : VkEntry Vk}
    (hlookup : s.vks.lookup (cfg.verifier.vkHash .nitro) = some entry) :
    ∃ tcbResponse certificates, entry.vk = .intel tcbResponse certificates ∧
      cfg.verifier.vkHash (.intel tcbResponse certificates) = cfg.verifier.vkHash .nitro := by
  obtain ⟨x, hvalid⟩ := hs.stored_valid hlookup
  have hhash := hs.registered.hashed _ entry hlookup
  cases hvk : entry.vk with
  | nitro =>
      rw [hvk] at hvalid
      exact absurd hvalid (validateVk_nitro_ne_ok htee x)
  | intel tcbResponse certificates =>
      rw [hvk] at hhash
      exact ⟨tcbResponse, certificates, rfl, hhash⟩

/-- A Nitro attestation, valid or not, is accepted by the key or by the hash of the key after an
attempt to register it exactly if an Intel key is registered whose hash is that of the Nitro key,
the attestation is a valid proof for this Intel key and the callback returns. -/
theorem nitro_accepted_iff (htee : cfg.verifier = verifier cfg.hashing crate)
    (hs : Reachable cfg s) (henabled : s.disabled.getD false = false) (who : A)
    (registrar : RawOrigin A) (proof : Proof) (pubs : Pubs) (domainId : Option ℕ) :
    let hash := cfg.verifier.vkHash .nitro
    (Accepted cfg (.signed who) (.vk .nitro) proof pubs domainId s ∨
        Accepted cfg (.signed who) (.hash hash) proof pubs domainId
          (exec cfg s (.call (.registerVk registrar .nitro)))) ↔
      ∃ tcbResponse certificates refCount,
        cfg.verifier.vkHash (.intel tcbResponse certificates) = hash ∧
        s.vks.lookup hash = some ⟨.intel tcbResponse certificates, refCount⟩ ∧
        (∃ w, cfg.verifier.verifyProof (.intel tcbResponse certificates) proof pubs s.chain =
          .ok w) ∧
        ∃ x, cfg.onProofVerified (some who) domainId
          (computeStatementHash cfg.hashing cfg.verifier (.hash hash) proof pubs) s.chain =
            some x := by
  intro hash
  rw [registerVk_nitro htee]
  constructor
  · rintro (⟨s', info, statement, hok, -⟩ | ⟨s', info, statement, hok, -⟩)
    · -- The check of the given key fails.
      have heffect : Effect cfg s (.submitProof (.signed who) (.vk .nitro) proof pubs domainId)
          s' := effect_of_dispatch hok
      cases heffect with
      | verified _ hresolve =>
          obtain ⟨_, hvalid, -⟩ := seq_eq_ok.mp hresolve
          exact absurd (check_eq_ok.mp hvalid) (validateVk_nitro_ne_ok htee s.chain)
    · unfold submitProof at hok
      obtain ⟨_, -, hok⟩ := seq_eq_ok.mp hok
      obtain ⟨vk, hresolve, hok⟩ := seq_eq_ok.mp hok
      obtain ⟨account, horigin, hok⟩ := seq_eq_ok.mp hok
      obtain ⟨w, hw, hok⟩ := seq_eq_ok.mp hok
      obtain ⟨x, hcallback, -⟩ := seq_eq_ok.mp hok
      cases horigin
      obtain ⟨⟨vk', refCount⟩, hlookup, rfl⟩ := resolveVk_hash_eq_ok.mp hresolve
      obtain ⟨tcbResponse, certificates, rfl, hhash⟩ := stored_under_nitro htee hs hlookup
      exact ⟨tcbResponse, certificates, refCount, hhash, hlookup, ⟨w, check_eq_ok.mp hw⟩, x,
        okOr_eq_ok.mp hcallback⟩
  · rintro ⟨tcbResponse, certificates, refCount, -, hlookup, ⟨w, hw⟩, x, hcallback⟩
    have horigin : (ensureSignedOrRoot (.signed who) : Except (Abort Error Panic) (Option A)) =
        .ok (some who) := rfl
    obtain ⟨s', info, hok, hevents⟩ := submitProof_ok henabled
      (resolveVk_hash_eq_ok.mpr ⟨_, hlookup, rfl⟩) horigin hw hcallback
    exact .inr ⟨s', info, _, hok, hevents⟩

/-! ## An attestation that verifies -/

/-- The first bytes of a signed attestation document. -/
def sampleAttestation : Proof := [0x84, 0x44, 0xa1, 0x01, 0x38, 0x22]

/-- A crate that accepts `sampleAttestation` while its certificates are valid, on a chain whose
state is the time; nothing is revoked. -/
def sampleCrate : Crate ℕ Unit where
  now x := x
  getCrl _ _ := some ()
  caNameFor _ := ascii ['n', 'i', 't', 'r', 'o']
  quoteIsReadable _ := false
  tcbIsReadable _ := false
  tcbInfoVerify _ _ := false
  quoteVerify _ _ _ _ := false
  attestationIsReadable proof := decide (proof = sampleAttestation)
  attestationVerify _ _ now := decide (now ≤ 1668034320)
  tcbIsDecodable _ := false
  tcbResponseVerify _ _ _ _ := false
  intelVerifyProof := ⟨0, 0⟩
  nitroVerifyProof := ⟨0, 0⟩

/-- The hash functions on the encoded Nitro key. -/
def sampleHashing : Hashing
  | .keccak256, [1] => h256 0x5fe7f977e71dba2ea1a68e21057beebb9be2ac30c6410aa38d4f3fbe41dcffd2
  | _, _ => h256 0

/-- The pallet on the chain of `sampleCrate`, without deposits. -/
def sampleConfig : Config ℕ Vk Proof Pubs ℕ Unit where
  verifier := verifier sampleHashing sampleCrate
  hashing := sampleHashing
  onProofVerified _ _ _ x := some x
  onProofVerifiedWeight _ := ⟨0, 0⟩
  ticket := ⟨fun _ _ x => .ok ((), x), fun _ _ _ x => .ok ((), x), fun _ _ x => .ok x,
    fun _ => 0, fun _ => 0⟩
  weightInfo := ⟨fun _ _ => ⟨0, 0⟩, ⟨0, 0⟩, fun _ => ⟨0, 0⟩, fun _ _ => ⟨0, 0⟩⟩
  dbRead := ⟨0, 0⟩
  onVerifyDisabledVerifier := ⟨0, 0⟩

theorem nitro_accepted_iff_sample :
    ¬ (Accepted sampleConfig (.signed 1) (.vk .nitro) sampleAttestation [] none
          (.genesis 1668034320) ∨
        Accepted sampleConfig (.signed 1) (.hash (sampleConfig.verifier.vkHash .nitro))
          sampleAttestation [] none
          (exec sampleConfig (.genesis 1668034320) (.call (.registerVk (.signed 2) .nitro)))) := by
  intro haccepted
  have htee : sampleConfig.verifier = verifier sampleConfig.hashing sampleCrate := rfl
  obtain ⟨tcbResponse, certificates, refCount, -, hlookup, -⟩ :=
    (nitro_accepted_iff htee ⟨1668034320, [], rfl⟩ rfl 1 _ _ _ _).mp haccepted
  simp [State.genesis] at hlookup

/-- The attestation verifies, and it is rejected by the key and by the hash of the key. -/
theorem nitro_rejected :
    let s : State ℕ Vk ℕ Unit := .genesis 1668034320
    let hash := sampleConfig.verifier.vkHash .nitro
    sampleConfig.verifier.verifyProof .nitro sampleAttestation [] s.chain = .ok (some ⟨0, 0⟩) ∧
      submitProof sampleConfig (.signed 1) (.vk .nitro) sampleAttestation [] none s =
        .error (.of (.module .invalidVerificationKey)) ∧
      submitProof sampleConfig (.signed 1) (.hash hash) sampleAttestation [] none
          (exec sampleConfig s (.call (.registerVk (.signed 2) .nitro))) =
        .error (.of (.module .verificationKeyNotFound)) := by
  refine ⟨rfl, rfl, rfl⟩

end Tee

end ZkVerify.Verifiers
