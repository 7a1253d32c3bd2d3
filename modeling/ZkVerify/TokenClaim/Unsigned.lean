import ZkVerify.TokenClaim.Payments

/-!
# Unsigned claims in the transaction pool

`claim` and `claim_ethereum` are free of fees: they have no origin, and the transaction
pool admits them if `validate_unsigned` does.  Validation checks that the claim is active,
the beneficiary is listed and the signature is right.  Dispatch makes the same checks and
then transfers, and a transfer that would leave its destination below the existential
deposit fails.  So an admitted claim succeeds exactly if the destination has or gets the
existential deposit.
-/

namespace ZkVerify.TokenClaim

open Frame

/-! ## Validation -/

/-- The reasons for which a transaction is invalid. -/
inductive InvalidTransaction
  | call
  | badProof
  | badSigner
  | stale
  | custom (code : ℕ)
deriving DecidableEq, Repr

/-- How validation fails. -/
inductive Refusal
  | invalid (reason : InvalidTransaction)
  | panic (panic : Panic)
deriving DecidableEq, Repr

/-- `TransactionValidityError::from`. -/
def Error.toInvalid : Error → InvalidTransaction
  | .alreadyEnded => .stale
  | .notEligible => .badSigner
  | .badSignature => .badProof
  | _ => .custom 0

/-- `Error::into` for validation. -/
def Failure.toRefusal : Failure → Refusal
  | .error e => .invalid e.toInvalid
  | .panic p => .panic p

/-- `ValidTransaction`. -/
structure ValidTransaction where
  priority : ℕ
  requires : List Bytes
  provides : List Bytes
  longevity : ℕ
  propagate : Bool
deriving DecidableEq, Repr

variable {A R X Signer Sig : Type} [LinearOrder A] {N : ℕ}

/-- The encoding of a beneficiary. -/
def Beneficiary.encode (cfg : Config A R X Signer Sig) : Beneficiary A → Bytes
  | .substrate account => 0 :: cfg.encodeAccount account
  | .ethereum address => 1 :: address.bytes

/-- The encoding of `(tag, ClaimId, beneficiary)`. -/
def encodeTag (cfg : Config A R X Signer Sig) (tag : List Char) (claimId : ℕ × ClaimMessage N)
    (beneficiary : Beneficiary A) : Bytes :=
  compact tag.length ++ ascii tag ++ littleEndian 8 claimId.1 ++
    compact claimId.2.toList.length ++ claimId.2.toList ++ beneficiary.encode cfg

/-- The two branches of `validate_unsigned` that accept a call. -/
def validateClaim (cfg : Config A R X Signer Sig) (tag : List Char) (beneficiary : Beneficiary A)
    (signature : ClaimSignature A Sig) (s : State A X N) : Except Refusal ValidTransaction := do
  (checkClaimant cfg beneficiary signature s).mapError Failure.toRefusal
  let claimId ← okOr s.claimId (.panic .noClaimId)
  return {
    priority := 100
    requires := []
    provides := [encodeTag cfg tag claimId beneficiary]
    longevity := u64Max
    propagate := true }

/-- `validate_unsigned`. -/
def validateUnsigned (cfg : Config A R X Signer Sig) (c : Call A Signer Sig N) (s : State A X N) :
    Except Refusal ValidTransaction :=
  match c with
  | .claim beneficiary signature =>
      validateClaim cfg "claim".toList (.substrate (cfg.intoAccount beneficiary))
        (.substrate signature) s
  | .claimEthereum beneficiary signature dest =>
      validateClaim cfg "claim_ethereum".toList (.ethereum beneficiary) (.ethereum signature dest) s
  | _ => .error (.invalid .call)

/-! ## Admitted claims -/

variable {cfg : Config A R X Signer Sig} {s : State A X N} {c : Call A Signer Sig N}
  {b : Beneficiary A} {dest : A} {valid : ValidTransaction}

private theorem validateClaim_ok {tag : List Char} {signature : ClaimSignature A Sig}
    (h : validateClaim cfg tag b signature s = .ok valid) :
    s.claimActive = true ∧ b ∈ s.beneficiaries ∧ s.Signed cfg signature b := by
  obtain ⟨_, hcheck, -⟩ := seq_eq_ok.mp h
  exact checkClaimant_eq_ok.mp (mapError_eq_ok.mp hcheck)

/-- An admitted call is an authorized claim of a listed beneficiary. -/
theorem authorized_of_validateUnsigned (h : validateUnsigned cfg c s = .ok valid)
    (hclaims : c.claims cfg = some (b, dest)) :
    s.claimActive = true ∧ b ∈ s.beneficiaries ∧ Authorized cfg s .none c := by
  cases c with
  | claim | claimEthereum =>
      obtain ⟨hactive, hmem, hsigned⟩ := validateClaim_ok h
      cases hclaims
      exact ⟨hactive, hmem, rfl, hsigned⟩
  | _ => cases h

/-- An admitted claim, dispatched in the state in which it was validated, succeeds exactly if its
destination has or gets the existential deposit.  If it succeeds the beneficiary is paid and
removed. -/
theorem unsigned_claim_succeeds_iff (hC : cfg.currency.Lawful) (hs : Reachable cfg s)
    (hvalid : validateUnsigned cfg c s = .ok valid) (hclaims : c.claims cfg = some (b, dest)) :
    ((∃ s', dispatch cfg .none c s = .ok s') ↔
      cfg.currency.minimumBalance ≤
        (cfg.currency.book s.chain).free dest + s.entitlement b) ∧
    ∀ s', dispatch cfg .none c s = .ok s' → Paid cfg s b dest (s.entitlement b) s' := by
  have hsolvent := solvent_of_reachable hC hs
  obtain ⟨hactive, hmem, hauthorized⟩ := authorized_of_validateUnsigned hvalid hclaims
  obtain ⟨amount, hlookup⟩ := Finmap.mem_iff.mp hmem
  rw [dispatch_eq_payBeneficiary hclaims hauthorized hactive hmem, entitlement_of_lookup hlookup]
  exact ⟨hsolvent.payBeneficiary_iff hC hactive hlookup, fun s' hok => hsolvent.paid hC hlookup hok⟩

theorem unsigned_claim_succeeds_iff_sample :
    validateUnsigned sampleConfig (.claim 1 (sampleMessage.toList, 1)) sampleState =
        .ok ⟨100, [], [encodeTag sampleConfig "claim".toList (0, sampleMessage) (.substrate 1)],
          u64Max, true⟩ ∧
      ∃ s', dispatch sampleConfig .none (.claim 1 (sampleMessage.toList, 1)) sampleState = .ok s' ∧
        Paid sampleConfig sampleState (.substrate 1) 1 20 s' := by
  have hvalid : validateUnsigned sampleConfig (.claim 1 (sampleMessage.toList, 1)) sampleState =
      .ok ⟨100, [], [encodeTag sampleConfig "claim".toList (0, sampleMessage) (.substrate 1)],
        u64Max, true⟩ := rfl
  obtain ⟨hiff, hpaid⟩ :=
    unsigned_claim_succeeds_iff sampleConfig_lawful sampleState_reachable hvalid rfl
  obtain ⟨s', hok⟩ := hiff.mpr (by decide)
  exact ⟨hvalid, s', hok, hpaid s' hok⟩

/-! ## An admitted claim that fails -/

/-- A claim for less than the existential deposit, begun by the manager. -/
def dustClaim : Step sampleConfig 8 :=
  .call .root (.beginClaim (.collect [(.substrate sampleHolder, 5)]) sampleMessage)

/-- The state in which the claim of the account 1 is below the existential deposit. -/
def dustState : State (Fin 3) (Ledger (Fin 3) Unit) 8 := run (.empty sampleChain) [dustClaim]

/-- The pool admits the claim, its dispatch fails, and the failure leaves it as valid as before. -/
theorem unsigned_claim_fails :
    Reachable sampleConfig dustState ∧ dustState.entitlement (.substrate 1) = 5 ∧
      (∃ valid, validateUnsigned sampleConfig (.claim 1 (sampleMessage.toList, 1)) dustState =
        .ok valid) ∧
      dispatch sampleConfig .none (.claim 1 (sampleMessage.toList, 1)) dustState =
        .error (.of (.token .belowMinimum)) ∧
      exec dustState (.call .none (.claim 1 (sampleMessage.toList, 1)) : Step sampleConfig 8) =
        dustState :=
  ⟨⟨⟨⟨[], by decide⟩, sampleMessage⟩, sampleChain, .empty sampleChain, [dustClaim], rfl, rfl⟩, rfl,
    ⟨_, rfl⟩, rfl, rfl⟩

end ZkVerify.TokenClaim
