import ZkVerify.Verifiers.Binding

/-!
# Submitting a proof by the hash of its key

`submit_proof` takes a key or the hash of a registered one.  A given key is checked, a
registered one is not: it was checked when it was stored.  For a verifier whose check
does not read the state of the chain this is the same, since the verdict cannot have
changed in the meantime.  So the two ways to name a key lead to the same answer,
`submit_by_hash_agrees`, and differ in the reported weight only.
-/

namespace ZkVerify.Verifiers

open Frame

variable {A V P I X T : Type} [DecidableEq A] {cfg : Config A V P I X T} {s : State A V X T}

/-- Two submissions in the state `s` are answered alike: both announce the same statement, hand it
to the callback with the same account and leave the same state, or both fail with the same error and
change nothing. -/
def SameAnswer (cfg : Config A V P I X T) (s : State A V X T) (origin : RawOrigin A)
    (first second : VkOrHash V) (proof : P) (pubs : I) (domainId : Option ℕ) : Prop :=
  (∃ account statement x info info',
      cfg.onProofVerified account domainId statement s.chain = some x ∧
      submitProof cfg origin first proof pubs domainId s =
        .ok ({ s with events := s.events ++ [.proofVerified statement], chain := x }, info) ∧
      submitProof cfg origin second proof pubs domainId s =
        .ok ({ s with events := s.events ++ [.proofVerified statement], chain := x }, info')) ∨
    ∃ e, submitProof cfg origin first proof pubs domainId s = .error e ∧
      submitProof cfg origin second proof pubs domainId s = .error e ∧
      exec cfg s (.call (.submitProof origin first proof pubs domainId)) = s ∧
      exec cfg s (.call (.submitProof origin second proof pubs domainId)) = s

/-- A call that fails changes nothing. -/
theorem exec_of_error {c : Call A V P I} {e : Abort Error Panic} (h : dispatch cfg c s = .error e) :
    exec cfg s (.call c) = s := by
  simp only [exec, h]

theorem SameAnswer.of_error {origin : RawOrigin A} {first second : VkOrHash V} {proof : P}
    {pubs : I} {domainId : Option ℕ} {e : Abort Error Panic}
    (hfirst : submitProof cfg origin first proof pubs domainId s = .error e)
    (hsecond : submitProof cfg origin second proof pubs domainId s = .error e) :
    SameAnswer cfg s origin first second proof pubs domainId :=
  .inr ⟨e, hfirst, hsecond, exec_of_error hfirst, exec_of_error hsecond⟩

/-- Two names of one key with one statement are answered alike. -/
theorem sameAnswer_of_resolved {origin : RawOrigin A} {first second : VkOrHash V} {proof : P}
    {pubs : I} {domainId : Option ℕ} {vk : V} (hfirst : resolveVk cfg first s = .ok vk)
    (hsecond : resolveVk cfg second s = .ok vk)
    (hstatement : computeStatementHash cfg.hashing cfg.verifier first proof pubs =
      computeStatementHash cfg.hashing cfg.verifier second proof pubs) :
    SameAnswer cfg s origin first second proof pubs domainId := by
  -- The checks come in the same order: the switch, the key, the origin, the proof, the callback.
  cases henabled : s.disabled.getD false with
  | true =>
      apply SameAnswer.of_error (e := onDisableError cfg)
      · simp [submitProof, henabled]
      · simp [submitProof, henabled]
  | false =>
      cases horigin : (ensureSignedOrRoot origin : Except (Abort Error Panic) (Option A)) with
      | error e =>
          apply SameAnswer.of_error (e := e)
          · simp [submitProof, henabled, hfirst, horigin]
          · simp [submitProof, henabled, hsecond, horigin]
      | ok account =>
          cases hverify : check (cfg.verifier.verifyProof vk proof pubs s.chain) with
          | error e =>
              apply SameAnswer.of_error (e := e)
              · simp [submitProof, henabled, hfirst, horigin, hverify]
              · simp [submitProof, henabled, hsecond, horigin, hverify]
          | ok weight =>
              cases hcallback : cfg.onProofVerified account domainId
                  (computeStatementHash cfg.hashing cfg.verifier second proof pubs) s.chain with
              | none =>
                  apply SameAnswer.of_error (e := .panic .onProofVerified)
                  · simp [submitProof, henabled, hfirst, horigin, hverify, hstatement, hcallback]
                  · simp [submitProof, henabled, hsecond, horigin, hverify, hcallback]
              | some x =>
                  have hok := check_eq_ok.mp hverify
                  have hfirst' := submitProof_eq henabled hfirst horigin hok
                    (hstatement ▸ hcallback)
                  rw [hstatement] at hfirst'
                  exact .inl ⟨account, _, x, _, _, hcallback, hfirst',
                    submitProof_eq henabled hsecond horigin hok hcallback⟩

/-- A stored key passed the check in some state of the chain. -/
theorem Reachable.stored_valid (hs : Reachable cfg s) {h : H256} {entry : VkEntry V}
    (hlookup : s.vks.lookup h = some entry) :
    ∃ x, cfg.verifier.validateVk entry.vk x = .ok () := by
  obtain ⟨x, steps, rfl⟩ := hs
  obtain ⟨before, origin, after, -, -, hvalid, -⟩ := firstStored_run x steps hlookup
  exact ⟨_, hvalid⟩

/-- A proof is only verified against a key that passed the check, now or when it was stored. -/
theorem Reachable.resolved_valid (hs : Reachable cfg s) {vkOrHash : VkOrHash V} {vk : V}
    (hresolve : resolveVk cfg vkOrHash s = .ok vk) :
    ∃ x, cfg.verifier.validateVk vk x = .ok () := by
  cases vkOrHash with
  | hash h =>
      obtain ⟨entry, hlookup, rfl⟩ := resolveVk_hash_eq_ok.mp hresolve
      exact hs.stored_valid hlookup
  | vk given =>
      obtain ⟨_, hvalid, hgiven⟩ := seq_eq_ok.mp hresolve
      cases hgiven
      exact ⟨s.chain, check_eq_ok.mp hvalid⟩

/-- A registered key that is valid at present is accepted by its hash and by its value alike. -/
theorem Reachable.sameAnswer (hs : Reachable cfg s) {h : H256} {entry : VkEntry V}
    (hlookup : s.vks.lookup h = some entry)
    (hvalid : cfg.verifier.validateVk entry.vk s.chain = .ok ()) (origin : RawOrigin A) (proof : P)
    (pubs : I) (domainId : Option ℕ) :
    SameAnswer cfg s origin (.hash h) (.vk entry.vk) proof pubs domainId := by
  have hbyHash : resolveVk cfg (.hash h) s = .ok entry.vk :=
    resolveVk_hash_eq_ok.mpr ⟨entry, hlookup, rfl⟩
  have hbyValue : resolveVk cfg (.vk entry.vk) s = .ok entry.vk := by
    rw [resolveVk, hvalid]
    rfl
  refine sameAnswer_of_resolved hbyHash hbyValue ?_
  rw [computeStatementHash_eq, computeStatementHash_eq, VkOrHash.toHash, VkOrHash.toHash,
    hs.registered.hashed h entry hlookup]

/-- In every reachable state, a proof is answered alike for the hash of a registered key and for
the key itself, provided that the check of a key does not depend on the chain and that the given key
does not collide with the stored one. -/
theorem submit_by_hash_agrees (hs : Reachable cfg s)
    (hvalidate : ∀ vk x y, cfg.verifier.validateVk vk x = cfg.verifier.validateVk vk y)
    {h : H256} {entry : VkEntry V} (hlookup : s.vks.lookup h = some entry) {vk : V}
    (hhash : cfg.verifier.vkHash vk = h)
    (hcollision : cfg.verifier.vkHash vk = cfg.verifier.vkHash entry.vk → vk = entry.vk)
    (origin : RawOrigin A) (proof : P) (pubs : I) (domainId : Option ℕ) :
    SameAnswer cfg s origin (.hash h) (.vk vk) proof pubs domainId := by
  have hstored : cfg.verifier.vkHash entry.vk = h := hs.registered.hashed h entry hlookup
  obtain rfl : vk = entry.vk := hcollision (hhash.trans hstored.symm)
  obtain ⟨x, hvalid⟩ := hs.stored_valid hlookup
  exact hs.sameAnswer hlookup ((hvalidate _ _ x).trans hvalid) origin proof pubs domainId

/-- Of the verifiers of the chain, only the one for attestations reads the chain in its check of a
key. -/
theorem Kind.validateVk_congr {C : Type} {k : Kind} (hk : k ≠ .tee) (H : Hashing)
    (crates : Crates X C) (vk : k.Vk) (x y : X) :
    (k.verifier H crates).validateVk vk x = (k.verifier H crates).validateVk vk y := by
  cases k with
  | tee => exact absurd rfl hk
  | fflonk | ultraplonk | ultrahonk | ezkl | risc0 | sp1 | plonky2 => rfl

theorem submit_by_hash_agrees_sample :
    SameAnswer (sampleRuntime.config .fflonk) sampleRegistered (.signed 3) (.hash sampleVkHash)
      (.vk sampleVk) sampleProof samplePubs (some 0) := by
  obtain ⟨entry, hlookup, hvk⟩ := resolveVk_hash_eq_ok.mp sampleVkHash_resolved
  exact submit_by_hash_agrees ⟨sampleAccounts, _, rfl⟩
    (Kind.validateVk_congr (k := .fflonk) (by decide) sampleHashing sampleCrates) hlookup
    (by decide +kernel) (fun _ => hvk.symm) _ _ _ _

end ZkVerify.Verifiers
