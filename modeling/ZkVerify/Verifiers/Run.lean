import ZkVerify.Verifiers.Pallet

/-!
# Runs of the verifiers pallet

A run is a list of calls in any order, from the empty storage, with changes of the
rest of the chain between them.  A call that does not succeed changes nothing.

`Effect cfg s c s'` lists, one constructor for each way in which a call can succeed, what
the call `c` found in the state `s` and what it made of it.  The operations are taken
apart in `effect_of_dispatch` only.
-/

namespace ZkVerify.Verifiers

open Frame

/-- The operations of the pallet. -/
inductive Call (A V P I : Type)
  | submitProof (origin : RawOrigin A) (vkOrHash : VkOrHash V) (proof : P) (pubs : I)
      (domainId : Option ℕ)
  | registerVk (origin : RawOrigin A) (vk : V)
  | disable (origin : RawOrigin A) (disabled : Bool)
  | unregisterVk (origin : RawOrigin A) (vkHash : H256)

/-- One step of a run: a call, or a change of the rest of the chain. -/
inductive Step (A V P I X : Type)
  | call (c : Call A V P I)
  | environment (act : X → X)

variable {A V P I X T : Type} [DecidableEq A]

/-- Execute a call. -/
def dispatch (cfg : Config A V P I X T) (c : Call A V P I) (s : State A V X T) :
    Except (Abort Error Panic) (Outcome A V X T) :=
  match c with
  | .submitProof origin vkOrHash proof pubs domainId =>
      submitProof cfg origin vkOrHash proof pubs domainId s
  | .registerVk origin vk => registerVk cfg origin vk s
  | .disable origin disabled => disable origin disabled s
  | .unregisterVk origin vkHash => unregisterVk cfg origin vkHash s

/-- The state after one step. -/
def exec (cfg : Config A V P I X T) (s : State A V X T) : Step A V P I X → State A V X T
  | .call c =>
      match dispatch cfg c s with
      | .ok (s', _) => s'
      | .error _ => s
  | .environment act => { s with chain := act s.chain }

/-- The state after a list of steps. -/
def run (cfg : Config A V P I X T) (s : State A V X T) (steps : List (Step A V P I X)) :
    State A V X T :=
  steps.foldl (exec cfg) s

/-- The state is reached by a run from the empty storage. -/
def Reachable (cfg : Config A V P I X T) (s : State A V X T) : Prop :=
  ∃ (x : X) (steps : List (Step A V P I X)), s = run cfg (.genesis x) steps

variable {cfg : Config A V P I X T} {s s' : State A V X T} {c : Call A V P I}

@[simp] theorem run_nil : run cfg s [] = s := rfl

@[simp] theorem run_concat (steps : List (Step A V P I X)) (step : Step A V P I X) :
    run cfg s (steps ++ [step]) = exec cfg (run cfg s steps) step := by
  simp [run]

omit [DecidableEq A] in
/-- A hash stands for the key that is stored under it. -/
theorem resolveVk_hash_eq_ok {h : H256} {vk : V} :
    resolveVk cfg (.hash h) s = .ok vk ↔ ∃ entry, s.vks.lookup h = some entry ∧ entry.vk = vk := by
  rw [resolveVk, okOr_eq_ok, Option.map_eq_some_iff]

/-! ## What a successful call does -/

/-- The ways in which a call can succeed. -/
inductive Effect (cfg : Config A V P I X T) (s : State A V X T) :
    Call A V P I → State A V X T → Prop
  /-- A proof is verified. -/
  | verified {origin : RawOrigin A} {vkOrHash : VkOrHash V} {proof : P} {pubs : I}
      {domainId : Option ℕ} {vk : V} {account : Option A} {weight : Option Weight} {x : X}
      (henabled : s.disabled.getD false = false) (hresolve : resolveVk cfg vkOrHash s = .ok vk)
      (hverify : cfg.verifier.verifyProof vk proof pubs s.chain = .ok weight)
      (hcallback : cfg.onProofVerified account domainId
        (computeStatementHash cfg.hashing cfg.verifier vkOrHash proof pubs) s.chain = some x) :
      Effect cfg s (.submitProof origin vkOrHash proof pubs domainId)
        { s with
          events := s.events ++
            [.proofVerified (computeStatementHash cfg.hashing cfg.verifier vkOrHash proof pubs)]
          chain := x }
  /-- A key is registered. -/
  | registered {who : A} {vk : V} {ticket : T} {x : X} {entry : VkEntry V}
      (henabled : s.disabled.getD false = false)
      (hnew : (who, cfg.verifier.vkHash vk) ∉ s.tickets)
      (hvalid : cfg.verifier.validateVk vk s.chain = .ok ())
      (hticket : cfg.ticket.new who ⟨1, (cfg.verifier.encodeVk vk).length⟩ s.chain =
        .ok (ticket, x))
      (hentry : VkEntry.register vk (s.vks.lookup (cfg.verifier.vkHash vk)) = .ok entry) :
      Effect cfg s (.registerVk (.signed who) vk)
        { s with
          tickets := s.tickets.insert (who, cfg.verifier.vkHash vk) ticket
          vks := s.vks.insert (cfg.verifier.vkHash vk) entry
          events := s.events ++ [.vkRegistered (cfg.verifier.vkHash vk)]
          chain := x }
  /-- The verifier is disabled or enabled. -/
  | switched {disabled : Bool} :
      Effect cfg s (.disable .root disabled) { s with disabled := some disabled }
  /-- A registration is given up and others remain. -/
  | unregistered {who : A} {h : H256} {ticket : T} {x : X} {entry : VkEntry V}
      (hticket : s.tickets.lookup (who, h) = some ticket)
      (hdrop : cfg.ticket.drop ticket who s.chain = .ok x)
      (hlookup : s.vks.lookup h = some entry) (hcount : 1 < entry.refCount) :
      Effect cfg s (.unregisterVk (.signed who) h)
        { s with
          tickets := s.tickets.erase (who, h)
          vks := s.vks.insert h { entry with refCount := entry.refCount - 1 }
          chain := x }
  /-- The last registration of a key is given up. -/
  | unregisteredLast {who : A} {h : H256} {ticket : T} {x : X} {entry : VkEntry V}
      (hticket : s.tickets.lookup (who, h) = some ticket)
      (hdrop : cfg.ticket.drop ticket who s.chain = .ok x)
      (hlookup : s.vks.lookup h = some entry) (hcount : entry.refCount ≤ 1) :
      Effect cfg s (.unregisterVk (.signed who) h)
        { s with
          tickets := s.tickets.erase (who, h)
          vks := s.vks.erase h
          events := s.events ++ [.vkUnregistered h]
          chain := x }

private theorem effect_of_submitProof {origin : RawOrigin A} {vkOrHash : VkOrHash V} {proof : P}
    {pubs : I} {domainId : Option ℕ} {info : PostDispatchInfo}
    (h : submitProof cfg origin vkOrHash proof pubs domainId s = .ok (s', info)) :
    Effect cfg s (.submitProof origin vkOrHash proof pubs domainId) s' := by
  unfold submitProof at h
  obtain ⟨_, henabled, h⟩ := seq_eq_ok.mp h
  obtain ⟨vk, hresolve, h⟩ := seq_eq_ok.mp h
  obtain ⟨account, -, h⟩ := seq_eq_ok.mp h
  obtain ⟨weight, hverify, h⟩ := seq_eq_ok.mp h
  obtain ⟨x, hcallback, h⟩ := seq_eq_ok.mp h
  cases h
  exact .verified (by simpa using ensure_eq_ok.mp henabled) hresolve (check_eq_ok.mp hverify)
    (okOr_eq_ok.mp hcallback)

private theorem effect_of_registerVk {origin : RawOrigin A} {vk : V} {info : PostDispatchInfo}
    (h : registerVk cfg origin vk s = .ok (s', info)) :
    Effect cfg s (.registerVk origin vk) s' := by
  unfold registerVk at h
  obtain ⟨_, henabled, h⟩ := seq_eq_ok.mp h
  obtain ⟨who, horigin, h⟩ := seq_eq_ok.mp h
  obtain ⟨_, hnew, h⟩ := seq_eq_ok.mp h
  obtain ⟨_, hvalid, h⟩ := seq_eq_ok.mp h
  obtain ⟨⟨ticket, x⟩, hticket, h⟩ := seq_eq_ok.mp h
  obtain ⟨entry, hentry, h⟩ := seq_eq_ok.mp h
  cases h
  obtain rfl := ensureSigned_eq_ok.mp horigin
  exact .registered (by simpa using ensure_eq_ok.mp henabled)
    (of_decide_eq_true (ensure_eq_ok.mp hnew)) (check_eq_ok.mp hvalid) (raise_eq_ok.mp hticket)
    (raise_eq_ok.mp hentry)

private theorem effect_of_unregisterVk {origin : RawOrigin A} {h : H256} {info : PostDispatchInfo}
    (hok : unregisterVk cfg origin h s = .ok (s', info)) :
    Effect cfg s (.unregisterVk origin h) s' := by
  unfold unregisterVk at hok
  obtain ⟨who, horigin, hok⟩ := seq_eq_ok.mp hok
  rw [ensureSigned_eq_ok] at horigin
  split at hok
  · split at hok <;> cases hok
  · rename_i ticket hticket
    obtain ⟨x, hdrop, hok⟩ := seq_eq_ok.mp hok
    dsimp only at hok
    split at hok
    · cases hok
    · rename_i entry hlookup
      split at hok
      · rename_i hcount
        cases hok
        subst horigin
        exact .unregisteredLast hticket (raise_eq_ok.mp hdrop) hlookup (by omega)
      · rename_i hcount
        cases hok
        subst horigin
        exact .unregistered hticket (raise_eq_ok.mp hdrop) hlookup (by omega)

/-- Every successful call has one of the effects. -/
theorem effect_of_dispatch {info : PostDispatchInfo} (h : dispatch cfg c s = .ok (s', info)) :
    Effect cfg s c s' := by
  cases c with
  | submitProof => exact effect_of_submitProof h
  | registerVk => exact effect_of_registerVk h
  | disable origin disabled =>
      cases origin with
      | root =>
          cases h
          exact .switched
      | signed | none => cases h
  | unregisterVk => exact effect_of_unregisterVk h

omit [DecidableEq A] in
/-- What the call does with a proof that the verifier accepts. -/
theorem submitProof_eq {origin : RawOrigin A} {vkOrHash : VkOrHash V} {proof : P} {pubs : I}
    {domainId : Option ℕ} {vk : V} {account : Option A} {weight : Option Weight} {x : X}
    (henabled : s.disabled.getD false = false) (hresolve : resolveVk cfg vkOrHash s = .ok vk)
    (horigin : (ensureSignedOrRoot origin : Except (Abort Error Panic) (Option A)) = .ok account)
    (hverify : cfg.verifier.verifyProof vk proof pubs s.chain = .ok weight)
    (hcallback : cfg.onProofVerified account domainId
      (computeStatementHash cfg.hashing cfg.verifier vkOrHash proof pubs) s.chain = some x) :
    submitProof cfg origin vkOrHash proof pubs domainId s =
      .ok ({ s with
        events := s.events ++
          [.proofVerified (computeStatementHash cfg.hashing cfg.verifier vkOrHash proof pubs)]
        chain := x }, ⟨weight.map fun newWeight =>
          submitProofWeight cfg vkOrHash proof pubs domainId (some newWeight), .yes⟩) := by
  unfold submitProof
  simp only [henabled, Bool.not_false, ensure_true, hresolve, horigin, check_eq_ok.mpr hverify,
    hcallback, okOr_some, ok_bind]
  rfl

omit [DecidableEq A] in
/-- A proof that the verifier accepts is accepted. -/
theorem submitProof_ok {origin : RawOrigin A} {vkOrHash : VkOrHash V} {proof : P} {pubs : I}
    {domainId : Option ℕ} {vk : V} {account : Option A} {weight : Option Weight} {x : X}
    (henabled : s.disabled.getD false = false) (hresolve : resolveVk cfg vkOrHash s = .ok vk)
    (horigin : (ensureSignedOrRoot origin : Except (Abort Error Panic) (Option A)) = .ok account)
    (hverify : cfg.verifier.verifyProof vk proof pubs s.chain = .ok weight)
    (hcallback : cfg.onProofVerified account domainId
      (computeStatementHash cfg.hashing cfg.verifier vkOrHash proof pubs) s.chain = some x) :
    ∃ s' info, submitProof cfg origin vkOrHash proof pubs domainId s = .ok (s', info) ∧
      s'.events = s.events ++
        [.proofVerified (computeStatementHash cfg.hashing cfg.verifier vkOrHash proof pubs)] :=
  ⟨_, _, submitProof_eq henabled hresolve horigin hverify hcallback, rfl⟩

/-- A valid key that the account has not registered is registered if the account can pay for it. -/
theorem registerVk_eq {who : A} {vk : V} {ticket : T} {x : X} {entry : VkEntry V}
    (henabled : s.disabled.getD false = false)
    (hnew : (who, cfg.verifier.vkHash vk) ∉ s.tickets)
    (hvalid : cfg.verifier.validateVk vk s.chain = .ok ())
    (hticket : cfg.ticket.new who ⟨1, (cfg.verifier.encodeVk vk).length⟩ s.chain = .ok (ticket, x))
    (hentry : VkEntry.register vk (s.vks.lookup (cfg.verifier.vkHash vk)) = .ok entry) :
    registerVk cfg (.signed who) vk s =
      .ok ({ s with
        tickets := s.tickets.insert (who, cfg.verifier.vkHash vk) ticket
        vks := s.vks.insert (cfg.verifier.vkHash vk) entry
        events := s.events ++ [.vkRegistered (cfg.verifier.vkHash vk)]
        chain := x }, .default) := by
  unfold registerVk
  simp only [henabled, Bool.not_false, ensure_true, ensureSigned, hnew, not_false_eq_true,
    decide_true, check_eq_ok.mpr hvalid, hticket, hentry, raise_ok, ok_bind]
  rfl

omit [DecidableEq A] in
/-- A submission panics in the verifier when the check of its key or of its proof does. -/
theorem submitProof_eq_panic {origin : RawOrigin A} {vkOrHash : VkOrHash V} {proof : P} {pubs : I}
    {domainId : Option ℕ} :
    submitProof cfg origin vkOrHash proof pubs domainId s = .error (.panic .verifier) ↔
      s.disabled.getD false = false ∧ (resolveVk cfg vkOrHash s = .error (.panic .verifier) ∨
        origin ≠ .none ∧ ∃ vk, resolveVk cfg vkOrHash s = .ok vk ∧
          cfg.verifier.verifyProof vk proof pubs s.chain = .error .panic) := by
  rw [← exists_congr fun vk => and_congr_right fun _ => check_eq_panic]
  cases henabled : s.disabled.getD false with
  | true => simp [submitProof, henabled, onDisableError]
  | false =>
      cases hresolve : resolveVk cfg vkOrHash s with
      | error e => simp [submitProof, henabled, hresolve]
      | ok vk =>
          by_cases hnone : origin = .none
          · simp [submitProof, henabled, hresolve, hnone, ensureSignedOrRoot, Abort.of]
          · obtain ⟨account, horigin⟩ : ∃ account, (ensureSignedOrRoot origin :
                Except (Abort Error Panic) (Option A)) = .ok account := by
              cases origin with
              | none => exact absurd rfl hnone
              | root | signed => exact ⟨_, rfl⟩
            cases hverify : check (cfg.verifier.verifyProof vk proof pubs s.chain) with
            | error e => simp [submitProof, henabled, hresolve, hnone, horigin, hverify]
            | ok weight =>
                -- The callback can panic too, but that is another panic.
                cases hcallback : cfg.onProofVerified account domainId
                    (computeStatementHash cfg.hashing cfg.verifier vkOrHash proof pubs) s.chain <;>
                  simp [submitProof, henabled, hresolve, horigin, hverify, hcallback, pure,
                    Except.pure]

/-- What holds initially and is preserved by every successful call and by the rest of the chain
holds after every run. -/
theorem run_induction {Q : State A V X T → Prop} {steps : List (Step A V P I X)} (hinit : Q s)
    (hcall : ∀ s c s', Q s → Effect cfg s c s' → Q s')
    (henv : ∀ s x, Q s → Q { s with chain := x }) : Q (run cfg s steps) := by
  induction steps using List.reverseRecOn with
  | nil => exact hinit
  | append_singleton steps step ih =>
      rw [run_concat]
      cases step with
      | environment act => exact henv _ _ ih
      | call c =>
          simp only [exec]
          split
          · rename_i s' info hok
            exact hcall _ c s' ih (effect_of_dispatch hok)
          · exact ih

end ZkVerify.Verifiers
