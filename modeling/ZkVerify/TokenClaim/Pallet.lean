import ZkVerify.Frame.Currency
import ZkVerify.Frame.OrderedMap
import ZkVerify.TokenClaim.Beneficiary

/-!
# The token-claim pallet

A manager opens a claim and lists beneficiaries with the amounts they may claim from the
account of the pallet.  While the claim is active a beneficiary is paid once, against a
signature or by the manager.  Ending the claim sends what is left to a fixed destination;
the remaining beneficiaries are removed in batches before the next claim can begin.

The currency, the signature schemes and the removal of a batch from the storage are
parameters.  A sum of words that overflows panics, as it does in a build with overflow
checks; in a build without them it would wrap around.
-/

namespace ZkVerify.TokenClaim

open Frame

/-! ## Data -/

/-- `ClaimMessage`, of at most `N` bytes. -/
abbrev ClaimMessage (N : ℕ) := BoundedVec UInt8 N

/-- The errors of the pallet. -/
inductive Error
  | alreadyStarted
  | notEligible
  | nothingToClaim
  | maxNumBeneficiariesReached
  | tooManyBeneficiaries
  | alreadyPresent
  | alreadyEnded
  | nonEmptyBeneficiaries
  | badSignature
  | invalidClaimMessage
deriving DecidableEq, Repr

/-- The events of the pallet. -/
inductive Event (A : Type) (N : ℕ)
  | claimStarted (claimId : ℕ) (claimMessage : ClaimMessage N)
  | claimed (beneficiary : Beneficiary A) (amount : ℕ)
  | claimEnded (claimId : ℕ) (claimMessage : ClaimMessage N)
  | beneficiariesRemoved (remaining : ℕ)
  | noMoreBeneficiaries

/-- The places where the pallet can panic. -/
inductive Panic
  /-- A sum that does not fit its word. -/
  | overflow
  /-- `ClaimId::get().unwrap()`. -/
  | noClaimId
  /-- A failed assertion of the genesis. -/
  | genesis
deriving DecidableEq, Repr

/-- The storage of the pallet, the events so far and the rest of the chain. -/
structure State (A X : Type) (N : ℕ) where
  beneficiaries : Finmap fun _ : Beneficiary A => ℕ
  totalClaimable : ℕ
  claimActive : Bool
  claimId : Option (ℕ × ClaimMessage N)
  palletAccountId : Option A
  events : List (Event A N)
  chain : X

variable {A R X Signer Sig : Type} {N : ℕ}

/-- The storage before the genesis. -/
def State.empty (x : X) : State A X N :=
  { beneficiaries := ∅, totalClaimable := 0, claimActive := false, claimId := none,
    palletAccountId := none, events := [], chain := x }

/-- What `clear` made of a map: the entries it left, how many it removed, and whether it stopped
before the end. -/
structure Cleared {K V : Type} (m : Finmap fun _ : K => V) [DecidableEq K] where
  remaining : Finmap fun _ : K => V
  unique : ℕ
  maybeCursor : Bool
  lookup_remaining : ∀ k v, remaining.lookup k = some v → m.lookup k = some v
  card_remaining : remaining.keys.card + unique = m.keys.card
  remaining_of_done : maybeCursor = false → remaining = ∅

/-- The configuration of the pallet. -/
structure Config (A R X Signer Sig : Type) [LinearOrder A] where
  /-- `T::PalletId::get().into_account_truncating()`. -/
  palletAccount : A
  managerOrigin : RawOrigin A → Bool
  currency : Currency A R X (DispatchError Error)
  unclaimedDestination : A
  /-- `Signer::into_account`. -/
  intoAccount : Signer → A
  signing : Signing A Sig
  /-- The encoding of an account. -/
  encodeAccount : A → Bytes
  maxBeneficiaries : UInt32
  maxOpBeneficiaries : UInt32
  /-- The profile `testnet` has overflow checks, `release` and `production` do not. -/
  overflowChecks : Bool
  /-- Without overflow checks, the limits are not so large that their sum wraps.  Those of the
  runtime are `1_000_000` and `10_000`. -/
  limits_fit : overflowChecks = true ∨
    maxBeneficiaries.toNat + maxOpBeneficiaries.toNat ≤ u32Max
  /-- `Beneficiaries::clear` with a limit.  What it removes depends on the chain: keys that were
  written in the same block do not count towards the limit. -/
  clear : X → ℕ → (m : Finmap fun _ : Beneficiary A => ℕ) → Cleared m

/-- How a function fails that returns an error of the pallet. -/
inductive Failure
  | error (error : Error)
  | panic (panic : Panic)
deriving DecidableEq, Repr

/-- `Error::into` for a dispatchable. -/
def Failure.toAbort : Failure → Abort Error Panic
  | .error e => .of (.module e)
  | .panic p => .panic p

/-- What a dispatchable returns. -/
abbrev DispatchResult (A X : Type) (N : ℕ) := Except (Abort Error Panic) (State A X N)

variable [LinearOrder A]

/-! ## The account of the pallet -/

/-- `Beneficiaries::count`. -/
def State.count (s : State A X N) : ℕ := s.beneficiaries.keys.card

/-- `account_id`: the account is stored when it is first asked for. -/
def accountId (cfg : Config A R X Signer Sig) (s : State A X N) : A × State A X N :=
  match s.palletAccountId with
  | some id => (id, s)
  | none => (cfg.palletAccount, { s with palletAccountId := some cfg.palletAccount })

/-- `pot`. -/
def pot (cfg : Config A R X Signer Sig) (s : State A X N) : ℕ × State A X N :=
  let (id, s) := accountId cfg s
  (cfg.currency.reducibleBalance id .preserve .polite s.chain, s)

/-- `do_claim`. -/
def doClaim (cfg : Config A R X Signer Sig) (dest : A) (amount : ℕ) (s : State A X N) :
    Except (DispatchError Error) (State A X N) := do
  let (id, s) := accountId cfg s
  let chain ← cfg.currency.transfer id dest amount .preserve s.chain
  return { s with chain, totalClaimable := s.totalClaimable - amount }

/-- `process_claim`. -/
def processClaim (cfg : Config A R X Signer Sig) (beneficiary : Beneficiary A)
    (s : State A X N) : Except (DispatchError Error) (ℕ × State A X N) :=
  match s.beneficiaries.lookup beneficiary with
  | some amount =>
      let (available, s) := pot cfg s
      if available < amount then .error (.token .fundsUnavailable)
      else .ok (amount, { s with
        events := s.events ++ [.claimed beneficiary amount]
        beneficiaries := s.beneficiaries.erase beneficiary })
  | none => .error (.module .notEligible)

/-! ## Adding beneficiaries -/

/-- One round of the loop of `do_add_beneficiaries`, on the required amount and the storage. -/
def addBeneficiary (available : ℕ) (acc : ℕ × Finmap fun _ : Beneficiary A => ℕ)
    (entry : Beneficiary A × ℕ) :
    Except (DispatchError Error) (ℕ × Finmap fun _ : Beneficiary A => ℕ) := do
  ensure (decide (entry.1 ∉ acc.2)) (.module .alreadyPresent)
  ensure (decide (entry.2 ≠ 0)) (.module .nothingToClaim)
  let required := saturatingAdd u128Max acc.1 entry.2
  ensure (decide (required ≤ available)) (.token .fundsUnavailable)
  return (required, acc.2.insert entry.1 entry.2)

/-- `do_add_beneficiaries`. -/
def doAddBeneficiaries (cfg : Config A R X Signer Sig)
    (beneficiaries : BTreeMap (Beneficiary A) ℕ) (s : State A X N) :
    Except (DispatchError Error) (State A X N) := do
  let (available, s) := pot cfg s
  let (required, stored) ← beneficiaries.entries.foldlM (addBeneficiary available)
    (s.totalClaimable, s.beneficiaries)
  return { s with beneficiaries := stored, totalClaimable := required }

/-- `check_claim_status`. -/
def checkClaimStatus (shouldBeActive : Bool) (s : State A X N) : Except Failure Unit :=
  match s.claimActive, shouldBeActive with
  | false, true => .error (.error .alreadyEnded)
  | true, false => .error (.error .alreadyStarted)
  | _, _ => .ok ()

/-- `check_max_op_beneficiaries`. -/
def checkMaxOpBeneficiaries (cfg : Config A R X Signer Sig) (newLen : ℕ) : Except Failure Unit :=
  ensure (decide (newLen ≤ cfg.maxOpBeneficiaries.toNat)) (.error .tooManyBeneficiaries)

/-- `check_max_beneficiaries`: the length is cast to `u32` and added to the count. -/
def checkMaxBeneficiaries (cfg : Config A R X Signer Sig) (newLen : ℕ) (s : State A X N) :
    Except Failure Unit := do
  let sum ← okOr (plainAdd cfg.overflowChecks u32Max s.count (newLen % 2 ^ 32)) (.panic .overflow)
  ensure (decide (sum ≤ cfg.maxBeneficiaries.toNat)) (.error .maxNumBeneficiariesReached)

/-- `check_beneficiaries_len`. -/
def checkBeneficiariesLen (cfg : Config A R X Signer Sig) (newLen : ℕ) (s : State A X N) :
    Except Failure Unit := do
  checkMaxOpBeneficiaries cfg newLen
  checkMaxBeneficiaries cfg newLen s

/-! ## Removing beneficiaries and checking claimants -/

/-- `do_remove_beneficiaries`. -/
def doRemoveBeneficiaries (cfg : Config A R X Signer Sig) (limit : ℕ) (s : State A X N) :
    State A X N :=
  if 0 < s.count then
    let result := cfg.clear s.chain limit s.beneficiaries
    { s with
      beneficiaries := result.remaining
      events := s.events ++
        [if result.maybeCursor then .beneficiariesRemoved (s.count - result.unique)
          else .noMoreBeneficiaries] }
  else s

/-- `check_claimant`. -/
def checkClaimant (cfg : Config A R X Signer Sig) (beneficiary : Beneficiary A)
    (signature : ClaimSignature A Sig) (s : State A X N) : Except Failure Unit := do
  checkClaimStatus true s
  ensure (decide (beneficiary ∈ s.beneficiaries)) (.error .notEligible)
  let claimId ← okOr s.claimId (.panic .noClaimId)
  ensure (signature.verify cfg.signing claimId.2.toList beneficiary) (.error .badSignature)

/-- The last two steps of every claim: the entry is taken out, then it is paid. -/
def payBeneficiary (cfg : Config A R X Signer Sig) (beneficiary : Beneficiary A) (dest : A)
    (s : State A X N) : DispatchResult A X N := do
  let (amount, s) ← raise (processClaim cfg beneficiary s)
  raise (doClaim cfg dest amount s)

/-! ## The operations -/

/-- The new value of `ClaimId` in `begin_claim`. -/
def nextClaimId (cfg : Config A R X Signer Sig) (claimMessage : ClaimMessage N) :
    Option (ℕ × ClaimMessage N) → Except Panic (ℕ × ClaimMessage N)
  | none => .ok (0, claimMessage)
  | some v => do
      let id ← okOr (plainAdd cfg.overflowChecks u64Max v.1 1) .overflow
      return (id, claimMessage)

/-- The part of `begin_claim` that adds beneficiaries. -/
def addFirst (cfg : Config A R X Signer Sig) (beneficiaries : BTreeMap (Beneficiary A) ℕ)
    (s : State A X N) : DispatchResult A X N :=
  if 0 < beneficiaries.len then do
    (checkMaxOpBeneficiaries cfg beneficiaries.len).mapError Failure.toAbort
    raise (doAddBeneficiaries cfg beneficiaries s)
  else .ok s

/-- `begin_claim`. -/
def beginClaim (cfg : Config A R X Signer Sig) (origin : RawOrigin A)
    (beneficiaries : BTreeMap (Beneficiary A) ℕ) (claimMessage : ClaimMessage N)
    (s : State A X N) : DispatchResult A X N := do
  ensure (cfg.managerOrigin origin) (.of .badOrigin)
  ensure (decide (s.count = 0)) (.of (.module .nonEmptyBeneficiaries))
  ensure (!claimMessage.toList.isEmpty) (.of (.module .invalidClaimMessage))
  (checkClaimStatus false s).mapError Failure.toAbort
  let s ← addFirst cfg beneficiaries { s with claimActive := true }
  let claimId ← unwind (nextClaimId cfg claimMessage s.claimId)
  return { s with
    claimId := some claimId
    events := s.events ++ [.claimStarted claimId.1 claimId.2] }

/-- `claim`. -/
def claim (cfg : Config A R X Signer Sig) (origin : RawOrigin A) (beneficiary : Signer)
    (signature : Sig) (s : State A X N) : DispatchResult A X N := do
  ensureNone origin
  let beneficiaryAccount := cfg.intoAccount beneficiary
  (checkClaimant cfg (.substrate beneficiaryAccount) (.substrate signature) s).mapError
    Failure.toAbort
  payBeneficiary cfg (.substrate beneficiaryAccount) beneficiaryAccount s

/-- The body that `claim_for` and `claim_ethereum_for` share. -/
def claimByManager (cfg : Config A R X Signer Sig) (origin : RawOrigin A)
    (beneficiary : Beneficiary A) (dest : A) (s : State A X N) : DispatchResult A X N := do
  ensure (cfg.managerOrigin origin) (.of .badOrigin)
  (checkClaimStatus true s).mapError Failure.toAbort
  payBeneficiary cfg beneficiary dest s

/-- `claim_for`. -/
def claimFor (cfg : Config A R X Signer Sig) (origin : RawOrigin A) (dest : A) (s : State A X N) :
    DispatchResult A X N :=
  claimByManager cfg origin (.substrate dest) dest s

/-- `add_beneficiaries`. -/
def addBeneficiaries (cfg : Config A R X Signer Sig) (origin : RawOrigin A)
    (beneficiaries : BTreeMap (Beneficiary A) ℕ) (s : State A X N) : DispatchResult A X N := do
  (checkClaimStatus true s).mapError Failure.toAbort
  ensure (cfg.managerOrigin origin) (.of .badOrigin)
  if 0 < beneficiaries.len then do
    (checkBeneficiariesLen cfg beneficiaries.len s).mapError Failure.toAbort
    raise (doAddBeneficiaries cfg beneficiaries s)
  else .ok s

/-- The part of `end_claim` that deals with the remaining balance. -/
def sweep (cfg : Config A R X Signer Sig) (s : State A X N) : DispatchResult A X N :=
  let (id, s) := accountId cfg s
  if cfg.unclaimedDestination ≠ id then do
    let (remainingFunds, s) := pot cfg s
    let (id, s) := accountId cfg s
    let chain ← raise
      (cfg.currency.transfer id cfg.unclaimedDestination remainingFunds .preserve s.chain)
    return { s with chain }
  else .ok s

/-- `end_claim`. -/
def endClaim (cfg : Config A R X Signer Sig) (origin : RawOrigin A) (s : State A X N) :
    DispatchResult A X N := do
  ensure (cfg.managerOrigin origin) (.of .badOrigin)
  (checkClaimStatus true s).mapError Failure.toAbort
  let s ← sweep cfg { s with claimActive := false }
  let claimId ← okOr s.claimId (.panic .noClaimId)
  return { s with
    totalClaimable := 0
    events := s.events ++ [.claimEnded claimId.1 claimId.2] }

/-- `remove_beneficiaries`. -/
def removeBeneficiaries (cfg : Config A R X Signer Sig) (origin : RawOrigin A)
    (limit : Option UInt32) (s : State A X N) : DispatchResult A X N := do
  let _ ← ensureSigned origin
  (checkClaimStatus false s).mapError Failure.toAbort
  return doRemoveBeneficiaries cfg (limit.getD cfg.maxOpBeneficiaries).toNat s

/-- `claim_ethereum`. -/
def claimEthereum (cfg : Config A R X Signer Sig) (origin : RawOrigin A)
    (beneficiary : EthereumAddress) (signature : EthereumSignature) (dest : A)
    (s : State A X N) : DispatchResult A X N := do
  ensureNone origin
  (checkClaimant cfg (.ethereum beneficiary) (.ethereum signature dest) s).mapError
    Failure.toAbort
  payBeneficiary cfg (.ethereum beneficiary) dest s

/-- `claim_ethereum_for`. -/
def claimEthereumFor (cfg : Config A R X Signer Sig) (origin : RawOrigin A)
    (beneficiary : EthereumAddress) (dest : A) (s : State A X N) : DispatchResult A X N :=
  claimByManager cfg origin (.ethereum beneficiary) dest s

/-- `on_initialize`: the existential deposit is minted if the account does not exist.  A mint that
fails is ignored. -/
def onInitialize (cfg : Config A R X Signer Sig) (s : State A X N) : State A X N :=
  let (id, s) := accountId cfg s
  if cfg.currency.accountExists id s.chain then s
  else
    match cfg.currency.mintInto id cfg.currency.minimumBalance s.chain with
    | .ok chain => { s with chain }
    | .error _ => s

/-! ## The genesis -/

/-- `GenesisConfig`.  It is built in a runtime with 32-bit addresses, which bounds the length of
the vector. -/
structure GenesisConfig (A : Type) (N : ℕ) where
  beneficiaries : BoundedVec (Beneficiary A × ℕ) u32Max
  claimMessage : ClaimMessage N

/-- `GenesisConfig::build`, where every failure is a failed assertion. -/
def GenesisConfig.build (cfg : Config A R X Signer Sig) (g : GenesisConfig A N) (x : X) :
    Except Panic (State A X N) := do
  ensure (decide (cfg.maxOpBeneficiaries ≤ cfg.maxBeneficiaries)) .genesis
  let s : State A X N := .empty x
  let numBeneficiaries := g.beneficiaries.toList.length
  if 0 < numBeneficiaries then do
    ensure (!g.claimMessage.toList.isEmpty) .genesis
    (checkMaxBeneficiaries cfg numBeneficiaries s).mapError fun _ => .genesis
    let s ← (doAddBeneficiaries cfg (.collect g.beneficiaries.toList) s).mapError fun _ => .genesis
    return { s with claimActive := true, claimId := some (0, g.claimMessage) }
  else .ok s

end ZkVerify.TokenClaim
