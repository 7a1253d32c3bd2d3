import ZkVerify.Frame.Bytes
import ZkVerify.Frame.Collections
import ZkVerify.Frame.Dispatch
import ZkVerify.Frame.Holds

/-!
# The verifiers pallet

One pallet serves all proof systems.  What a proof system has to provide is a
`Verifier`: how it checks proofs and keys, and how it turns them into the bytes that a
statement commits to.  A check may read the state of the chain, so it takes it as an
argument, and it may panic.

The pallet keeps the registered keys with a reference count, and one ticket for every
registration.  A verified proof is announced by an event with the hash of its
statement, `computeStatementHash`.
-/

namespace ZkVerify.Verifiers

open Frame

/-! ## Verifiers -/

/-- `VerifyError`. -/
inductive VerifyError
  | invalidInput
  | invalidProofData
  | verifyError
  | invalidVerificationKey
  | unsupportedVersion
deriving DecidableEq, Repr

/-- How a check ends that does not succeed. -/
inductive Fault
  | error (e : VerifyError)
  | panic
deriving DecidableEq, Repr

/-- `NO_VERSION_HASH`. -/
def noVersionHash : H256 := h256 0xe3b0c44298fc1c149afbf4c8996fb92427ae41e4649b934ca495991b7852b855

/-- The trait `Verifier`, with keys `V`, proofs `P` and public inputs `I`, on a chain with states
`X`. -/
structure Verifier (V P I X : Type) where
  hashContextData : Bytes
  verifyProof : V → P → I → X → Except Fault (Option Weight)
  validateVk : V → X → Except Fault Unit
  /-- `encode` of a key. -/
  encodeVk : V → Bytes
  vkHash : V → H256
  pubsBytes : I → Bytes
  verifierVersionHash : P → H256

/-- A complete verification key or its hash. -/
inductive VkOrHash (V : Type)
  | hash (h : H256)
  | vk (vk : V)

variable {A V P I X T : Type}

/-- `compute_statement_hash`. -/
def computeStatementHash (H : Hashing) (verifier : Verifier V P I X) (vkOrHash : VkOrHash V)
    (proof : P) (pubs : I) : H256 :=
  let versionHash := verifier.verifierVersionHash proof
  let vkHash := match vkOrHash with
    | .hash h => h
    | .vk vk => verifier.vkHash vk
  let pubs := verifier.pubsBytes pubs
  H .keccak256 (hashBytes (H .keccak256 verifier.hashContextData) ++ hashBytes vkHash ++
    hashBytes versionHash ++ hashBytes (H .keccak256 pubs))

/-! ## Storage and configuration -/

/-- The errors of the pallet. -/
inductive Error
  | invalidInput
  | invalidProofData
  | verifyError
  | invalidVerificationKey
  | verificationKeyNotFound
  | disabledVerifier
  | verificationKeyAlreadyRegistered
  | unsupportedVersion
deriving DecidableEq, Repr

/-- `Error::from`. -/
def Error.ofVerifyError : VerifyError → Error
  | .invalidInput => .invalidInput
  | .invalidProofData => .invalidProofData
  | .verifyError => .verifyError
  | .invalidVerificationKey => .invalidVerificationKey
  | .unsupportedVersion => .unsupportedVersion

/-- Where a call can panic. -/
inductive Panic
  /-- `unreachable!()` in `unregister_vk`. -/
  | vkEntryMissing
  /-- In a check of the verifier. -/
  | verifier
  /-- In the callback. -/
  | onProofVerified
deriving DecidableEq, Repr

/-- The events of the pallet. -/
inductive Event
  | vkRegistered (hash : H256)
  | vkUnregistered (hash : H256)
  | proofVerified (statement : H256)
deriving DecidableEq

/-- A registered key with its reference count. -/
structure VkEntry (V : Type) where
  vk : V
  refCount : ℕ

/-- `VkEntry::new`. -/
def VkEntry.new (vk : V) : VkEntry V := ⟨vk, 1⟩

/-- The entry after one more registration: the argument of `Vks::mutate` in `register_vk`. -/
def VkEntry.register (vk : V) : Option (VkEntry V) → Except (DispatchError Error) (VkEntry V)
  | some entry => do
      let refCount ← okOr (checkedAdd u64Max entry.refCount 1) (.arithmetic .overflow)
      return { entry with refCount := refCount }
  | none => .ok (VkEntry.new vk)

/-- The storage of the pallet, the chain state outside of it and the events so far. -/
structure State (A V X T : Type) where
  disabled : Option Bool
  vks : Finmap fun _ : H256 => VkEntry V
  tickets : Finmap fun _ : A × H256 => T
  events : List Event
  chain : X

/-- The storage before the first operation. -/
def State.genesis (x : X) : State A V X T :=
  { disabled := none, vks := ∅, tickets := ∅, events := [], chain := x }

/-- The weights that the pallet reads. -/
structure WeightInfo (V P I : Type) where
  verifyProof : P → I → Weight
  getVk : Weight
  validateVk : V → Weight
  computeStatementHash : P → I → Weight

/-- The configuration of the pallet. -/
structure Config (A V P I X T : Type) where
  verifier : Verifier V P I X
  hashing : Hashing
  /-- The callback; it has no error result, but it can panic. -/
  onProofVerified : Option A → Option ℕ → H256 → X → Option X
  onProofVerifiedWeight : Option ℕ → Weight
  ticket : Consideration A X T (DispatchError Error)
  weightInfo : WeightInfo V P I
  dbRead : Weight
  onVerifyDisabledVerifier : Weight

/-- What a dispatchable leaves behind when it succeeds. -/
abbrev Outcome (A V X T : Type) := State A V X T × PostDispatchInfo

/-- A check of the verifier, inside a dispatchable. -/
def check {α : Type} (c : Except Fault α) : Except (Abort Error Panic) α :=
  match c with
  | .ok a => .ok a
  | .error (.error e) => .error (.of (.module (.ofVerifyError e)))
  | .error .panic => .error (.panic .verifier)

theorem check_eq_ok {α : Type} {c : Except Fault α} {a : α} : check c = .ok a ↔ c = .ok a := by
  cases c with
  | ok b => simp [check]
  | error f => cases f <;> simp [check]

theorem check_eq_panic {α : Type} {c : Except Fault α} :
    check c = .error (.panic .verifier) ↔ c = .error .panic := by
  cases c with
  | ok a => simp [check]
  | error f => cases f <;> simp [check, Abort.of]

/-- `on_disable_error`. -/
def onDisableError (cfg : Config A V P I X T) : Abort Error Panic :=
  .error ⟨⟨some cfg.onVerifyDisabledVerifier, .yes⟩, .module .disabledVerifier⟩

/-- `submit_proof_weight`. -/
def submitProofWeight (cfg : Config A V P I X T) (vkOrHash : VkOrHash V) (proof : P) (pubs : I)
    (domainId : Option ℕ) (overrideVerifyProof : Option Weight) : Weight :=
  let vkWeight := match vkOrHash with
    | .hash _ => cfg.weightInfo.getVk
    | .vk vk => cfg.weightInfo.validateVk vk
  let verify := overrideVerifyProof.getD (cfg.weightInfo.verifyProof proof pubs)
  let statement := cfg.weightInfo.computeStatementHash proof pubs
  (((cfg.dbRead.compose vkWeight).compose verify).compose statement).compose
    (cfg.onProofVerifiedWeight domainId)

/-! ## The operations -/

variable [DecidableEq A]

/-- The key that `submit_proof` verifies against: the registered one with the given hash, or the
given one if it is valid. -/
def resolveVk (cfg : Config A V P I X T) (vkOrHash : VkOrHash V) (s : State A V X T) :
    Except (Abort Error Panic) V :=
  match vkOrHash with
  | .hash h => okOr ((s.vks.lookup h).map VkEntry.vk) (.of (.module .verificationKeyNotFound))
  | .vk vk => do
      check (cfg.verifier.validateVk vk s.chain)
      return vk

/-- `submit_proof`. -/
def submitProof (cfg : Config A V P I X T) (origin : RawOrigin A) (vkOrHash : VkOrHash V)
    (proof : P) (pubs : I) (domainId : Option ℕ) (s : State A V X T) :
    Except (Abort Error Panic) (Outcome A V X T) := do
  ensure (!s.disabled.getD false) (onDisableError cfg)
  let vk ← resolveVk cfg vkOrHash s
  let account ← ensureSignedOrRoot origin
  let verifyProofWeight ← check (cfg.verifier.verifyProof vk proof pubs s.chain)
  let statement := computeStatementHash cfg.hashing cfg.verifier vkOrHash proof pubs
  let x ← okOr (cfg.onProofVerified account domainId statement s.chain) (.panic .onProofVerified)
  return ({ s with events := s.events ++ [.proofVerified statement], chain := x },
    ⟨verifyProofWeight.map fun newWeight =>
      submitProofWeight cfg vkOrHash proof pubs domainId (some newWeight), .yes⟩)

/-- `register_vk`. -/
def registerVk (cfg : Config A V P I X T) (origin : RawOrigin A) (vk : V) (s : State A V X T) :
    Except (Abort Error Panic) (Outcome A V X T) := do
  ensure (!s.disabled.getD false) (onDisableError cfg)
  let accountId ← ensureSigned origin
  let hash := cfg.verifier.vkHash vk
  ensure (decide ((accountId, hash) ∉ s.tickets))
    (.of (.module .verificationKeyAlreadyRegistered))
  check (cfg.verifier.validateVk vk s.chain)
  -- The ticket pays for one item of the size of the key.
  let (ticket, x) ← raise (cfg.ticket.new accountId ⟨1, (cfg.verifier.encodeVk vk).length⟩ s.chain)
  let entry ← raise (VkEntry.register vk (s.vks.lookup hash))
  return ({ s with
    tickets := s.tickets.insert (accountId, hash) ticket
    vks := s.vks.insert hash entry
    events := s.events ++ [.vkRegistered hash]
    chain := x }, .default)

/-- `disable`. -/
def disable (origin : RawOrigin A) (disabled : Bool) (s : State A V X T) :
    Except (Abort Error Panic) (Outcome A V X T) := do
  ensureRoot origin
  return ({ s with disabled := some disabled }, .default)

/-- `unregister_vk`. -/
def unregisterVk (cfg : Config A V P I X T) (origin : RawOrigin A) (vkHash : H256)
    (s : State A V X T) : Except (Abort Error Panic) (Outcome A V X T) := do
  let accountId ← ensureSigned origin
  match s.tickets.lookup (accountId, vkHash) with
  | none =>
      if vkHash ∈ s.vks then .error (.of .badOrigin)
      else .error (.of (.module .verificationKeyNotFound))
  | some ticket =>
      let x ← raise (cfg.ticket.drop ticket accountId s.chain)
      let s := { s with tickets := s.tickets.erase (accountId, vkHash), chain := x }
      -- `mutate_exists` on the entry, whose absence is `unreachable!()`.
      match s.vks.lookup vkHash with
      | none => .error (.panic .vkEntryMissing)
      | some entry =>
          let refCount := entry.refCount - 1
          if refCount = 0 then
            return ({ s with
              vks := s.vks.erase vkHash
              events := s.events ++ [.vkUnregistered vkHash] }, .default)
          else
            return ({ s with vks := s.vks.insert vkHash { entry with refCount := refCount } },
              .default)

end ZkVerify.Verifiers
