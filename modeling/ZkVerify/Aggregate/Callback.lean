import ZkVerify.Aggregate.Funds
import ZkVerify.Aggregate.Lifecycle

/-!
# When the callback returns

`on_proof_verified` is called for every verified proof, and a panic in it stops the
block.  Most of its `expect`s are backed by the invariant of the domains and by the
laws of the currency: the push to the next aggregation, the insertion into the queue,
the release of the first hold, the division by the size.  The one on the owner's account
is not.  The manager can register a domain that only its owner may use, and that domain
has no owner account.  `onProofVerified_returns_iff` says that this is the only way for the
callback to panic.
-/

namespace ZkVerify.Aggregate

open Frame DomainEntry

variable {A X T₁ T₂ : Type} {S M : ℕ}

/-- A domain of the manager that only its owner may add proofs to. -/
def DomainEntry.OwnerMissing (D : DomainEntry A T₁ T₂ S M) : Prop :=
  D.proofRules = .onlyOwner ∧ D.owner = .manager

/-- The call registers a domain of the manager that only its owner may add proofs to. -/
def Call.registersOwnerMissing (cfg : Config A X T₁ T₂) : Call A → Bool
  | .registerDomain origin _ _ _ .onlyOwner _ _ => cfg.managerOrigin origin
  | _ => false

variable [DecidableEq A] {cfg : Config A X T₁ T₂} {kept : Set HoldReason}
  {s s' : State A X T₁ T₂ S M} {c : Call A}

/-! ## The callback on one domain -/

/-- The authorization is decided unless the owner is missing. -/
theorem isAuthorizedToAddProof_returns_iff (D : DomainEntry A T₁ T₂ S M) (rows : Finset (ℕ × A))
    (account : A) :
    (∃ authorized, D.isAuthorizedToAddProof rows account = .ok authorized) ↔
      ¬ D.OwnerMissing := by
  unfold isAuthorizedToAddProof OwnerMissing
  cases hrules : D.proofRules with
  | untrusted | onlyAllowlisted => simp
  | onlyOwner =>
      cases howner : D.owner with
      | account owner => simp [User.account?]
      | manager => simp [User.account?]

/-- On a stored domain the callback returns unless it has to look for a missing owner. -/
theorem onDomainProof_returns_iff (hF : cfg.hold.Lawful) {D : DomainEntry A T₁ T₂ S M}
    (hwf : D.WF) (account : A) (d : ℕ) (statement : H256) (s : State A X T₁ T₂ S M) :
    (∃ s', onDomainProof cfg account d statement D s = .ok s') ↔
      ¬ (D.state = .ready ∧ D.canAddStatement = true ∧ D.OwnerMissing) := by
  unfold onDomainProof
  by_cases hready : D.state = .ready
  · by_cases hroom : D.canAddStatement = true
    · rw [if_neg (not_not.mpr hready), if_neg (by simp [hroom])]
      simp only [hready, hroom, true_and]
      rw [← isAuthorizedToAddProof_returns_iff D s.submittersAllowlist account]
      constructor
      · rintro ⟨s', hok⟩
        obtain ⟨authorized, hauthorized, -⟩ := seq_eq_ok.mp hok
        exact ⟨authorized, hauthorized⟩
      · rintro ⟨authorized, hauthorized⟩
        rw [hauthorized, ok_bind]
        cases authorized with
        | false => exact ⟨_, rfl⟩
        | true =>
            -- Neither the reservation nor the acceptance can panic.
            have hsize : D.next.size ≠ 0 := by
              rw [hwf.next_size]
              exact hwf.size_pos.ne'
            obtain ⟨result, x, hreserve, -⟩ := reserveCurrency_spec hF hsize account s.chain
            rw [if_neg (by simp), hreserve, ok_bind]
            cases result with
            | error e => exact ⟨_, rfl⟩
            | ok reserve =>
                obtain ⟨next, -, -, -, ⟨-, haccept⟩ | ⟨-, queue, -, haccept⟩⟩ :=
                  acceptStatement_eq hwf hready hroom s.submittersAllowlist account reserve
                    statement
                · simp only [haccept]
                  exact ⟨_, rfl⟩
                · simp only [haccept]
                  exact ⟨_, rfl⟩
    · rw [if_neg (not_not.mpr hready), if_pos (by simpa using hroom)]
      simp [hroom]
  · rw [if_pos hready]
    simp [hready]

/-! ## Runs without a missing owner -/

/-- No stored domain misses its owner. -/
def OwnersPresent (s : State A X T₁ T₂ S M) : Prop :=
  ∀ d D, s.domains.lookup d = some D → ¬ D.OwnerMissing

/-- A call keeps the owners present unless it registers a domain that misses its owner. -/
theorem OwnersPresent.effect (hrep : Represented s) (h : OwnersPresent s)
    (heffect : Effect cfg s c s') (hcall : c.registersOwnerMissing cfg = false) :
    OwnersPresent s' := by
  intro d D' hlookup'
  cases stored_of_effect hrep heffect hlookup' with
  | kept D hlookup hupdated =>
      have hpresent := h d D hlookup
      cases hupdated with
      | moved hmoved => rwa [OwnerMissing, hmoved.owner, hmoved.proofRules]
      | repriced _ _ _ _ _ hdelivery =>
          subst hdelivery
          exact hpresent
      | recounted ticket hmoved => rwa [OwnerMissing, hmoved.owner, hmoved.proofRules]
  | registered hregisters _ horigin _ hcreate =>
      obtain ⟨-, rfl⟩ := tryCreate_ok hcreate
      rintro ⟨hrules, howner⟩
      dsimp only at hrules howner
      subst hregisters hrules howner
      -- Only the manager's origin makes the manager the caller.
      unfold User.fromOrigin at horigin
      split at horigin
      · rename_i hmanager
        simp [Call.registersOwnerMissing, hmanager] at hcall
      · split at horigin <;> simp at horigin

theorem ownersPresent_run (hrep : Represented s) (h : OwnersPresent s)
    (steps : List (Step cfg kept))
    (hsteps : ∀ c, .call c ∈ steps → c.registersOwnerMissing cfg = false) :
    OwnersPresent (run s steps) := by
  apply effect_induction hrep h
  · intro s c s' hmem hrep h heffect
    exact h.effect hrep heffect (hsteps c hmem)
  · intro s e h
    exact h

/-- In every reachable state the callback returns unless it is called by an account for a ready
domain with room whose owner is missing; in a run in which no such domain is registered it always
returns. -/
theorem onProofVerified_returns_iff (hF : cfg.hold.Lawful) (x : X) (steps : List (Step cfg kept)) :
    let s : State A X T₁ T₂ S M := run (.genesis x) steps
    (∀ account domainId statement,
        (∃ s', onProofVerified cfg account domainId statement s = .ok s') ↔
          ¬ ∃ who d D, account = some who ∧ domainId = some d ∧ s.domains.lookup d = some D ∧
            D.state = .ready ∧ D.canAddStatement = true ∧ D.proofRules = .onlyOwner ∧
            D.owner = .manager) ∧
      ((∀ c, .call c ∈ steps → c.registersOwnerMissing cfg = false) →
        ∀ account domainId statement,
          ∃ s', onProofVerified cfg account domainId statement s = .ok s') := by
  intro s
  have hrep : Represented s := represented_run (Represented.genesis x) steps
  have hiff : ∀ account domainId statement,
      (∃ s', onProofVerified cfg account domainId statement s = .ok s') ↔
        ¬ ∃ who d D, account = some who ∧ domainId = some d ∧ s.domains.lookup d = some D ∧
          D.state = .ready ∧ D.canAddStatement = true ∧ D.proofRules = .onlyOwner ∧
          D.owner = .manager := by
    intro account domainId statement
    cases account with
    | none => simp [onProofVerified]
    | some who =>
        cases domainId with
        | none => simp [onProofVerified]
        | some d =>
            cases hlookup : s.domains.lookup d with
            | none => simp [onProofVerified, hlookup]
            | some D =>
                simp only [onProofVerified, hlookup]
                rw [onDomainProof_returns_iff hF (hrep.wf d D hlookup)]
                simp [hlookup, OwnerMissing]
  refine ⟨hiff, fun hsteps account domainId statement => ?_⟩
  have hpresent : OwnersPresent s :=
    ownersPresent_run (Represented.genesis x) (by simp [OwnersPresent, State.genesis]) steps hsteps
  rw [hiff]
  rintro ⟨who, d, D, -, -, hlookup, -, -, hrules, howner⟩
  exact hpresent d D hlookup ⟨hrules, howner⟩

/-- The domain registered by the first step has no owner account, and only its owner may use it. -/
def sampleOwnerMissing : List (Step sampleConfig ∅) :=
  [.call (.registerDomain .root 2 none .untrusted .onlyOwner ⟨.none, 10, 4⟩ (some 7))]

theorem onProofVerified_returns_sample :
    ∃ s', onProofVerified sampleConfig (some 1) (some 0) (Vector.replicate 32 0)
      (run (.genesis sampleBook) ([.call (.registerDomain .root 2 none .untrusted .untrusted
        ⟨.none, 10, 4⟩ (some 7))] : List (Step sampleConfig ∅)) :
          State ℕ (Book ℕ HoldReason) ℕ ℕ 4 2) = .ok s' :=
  (onProofVerified_returns_iff sampleConfig_lawful.currency sampleBook _).2
    (by simp [Call.registersOwnerMissing]) _ _ _

/-- A proof submitted for the manager's domain makes the callback panic. -/
theorem onProofVerified_panics :
    onProofVerified sampleConfig (some 1) (some 0) (Vector.replicate 32 0)
      (run (.genesis sampleBook) sampleOwnerMissing : State ℕ (Book ℕ HoldReason) ℕ ℕ 4 2) =
        .error .domainWithoutOwner := by
  rfl

end ZkVerify.Aggregate
