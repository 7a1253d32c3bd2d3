import ZkVerify.TokenClaim.Solvency

/-!
# Every beneficiary can be paid

A claim call is `Authorized` when its signature or its origin is accepted; then it does
nothing but pay its beneficiary.  From a solvent state the payments of different
beneficiaries succeed in any order: each of them leaves a solvent state in which the
others are as possible as before.
-/

namespace ZkVerify.TokenClaim

open Frame

variable {A R X Signer Sig : Type} [LinearOrder A] {N : ℕ} {cfg : Config A R X Signer Sig}
  {s s' : State A X N} {c : Call A Signer Sig N} {origin : RawOrigin A} {b : Beneficiary A}
  {dest : A} {amount : ℕ}

/-! ## Authorized claims -/

/-- The signature is one of the beneficiary on the current claim message. -/
def State.Signed (cfg : Config A R X Signer Sig) (s : State A X N)
    (signature : ClaimSignature A Sig) (b : Beneficiary A) : Prop :=
  ∃ claimId, s.claimId = some claimId ∧ signature.verify cfg.signing claimId.2.toList b = true

/-- The call claims for a beneficiary and the origin may make it. -/
def Authorized (cfg : Config A R X Signer Sig) (s : State A X N) (origin : RawOrigin A) :
    Call A Signer Sig N → Prop
  | .claim beneficiary signature => origin = .none ∧
      s.Signed cfg (.substrate signature) (.substrate (cfg.intoAccount beneficiary))
  | .claimFor _ => cfg.managerOrigin origin = true
  | .claimEthereum beneficiary signature dest => origin = .none ∧
      s.Signed cfg (.ethereum signature dest) (.ethereum beneficiary)
  | .claimEthereumFor _ _ => cfg.managerOrigin origin = true
  | _ => False

theorem Authorized.of_claimId (h : Authorized cfg s origin c) (hid : s'.claimId = s.claimId) :
    Authorized cfg s' origin c := by
  have hsigned : ∀ signature b, s.Signed cfg signature b → s'.Signed cfg signature b := by
    intro signature b hb
    rwa [State.Signed, hid]
  cases c with
  | claim | claimEthereum => exact ⟨h.1, hsigned _ _ h.2⟩
  | _ => exact h

private theorem claimByManager_eq (hmanager : cfg.managerOrigin origin = true)
    (hactive : s.claimActive = true) :
    claimByManager cfg origin b dest s = payBeneficiary cfg b dest s := by
  have hstatus := checkClaimStatus_eq_ok (u := ()).mpr hactive
  simp only [claimByManager, hmanager, ensure_true, ok_bind, hstatus, Except.mapError]

/-- An authorized claim of a listed beneficiary is the payment of that beneficiary. -/
theorem dispatch_eq_payBeneficiary (hclaims : c.claims cfg = some (b, dest))
    (hauthorized : Authorized cfg s origin c) (hactive : s.claimActive = true)
    (hmem : b ∈ s.beneficiaries) : dispatch cfg origin c s = payBeneficiary cfg b dest s := by
  cases c with
  | claimFor => cases hclaims; exact claimByManager_eq hauthorized hactive
  | claimEthereumFor => cases hclaims; exact claimByManager_eq hauthorized hactive
  | claim signer signature =>
      cases hclaims
      obtain ⟨rfl, hsigned⟩ := hauthorized
      have hcheck := checkClaimant_eq_ok (u := ()).mpr ⟨hactive, hmem, hsigned⟩
      simp only [dispatch, claim, ensureNone, ok_bind, hcheck, Except.mapError]
  | claimEthereum address signature dest =>
      cases hclaims
      obtain ⟨rfl, hsigned⟩ := hauthorized
      have hcheck := checkClaimant_eq_ok (u := ()).mpr ⟨hactive, hmem, hsigned⟩
      simp only [dispatch, claimEthereum, ensureNone, ok_bind, hcheck, Except.mapError]
  | beginClaim | addBeneficiaries | endClaim | removeBeneficiaries => cases hclaims

/-! ## One payment -/

/-- The state after a payment. -/
structure Paid (cfg : Config A R X Signer Sig) (s : State A X N) (b : Beneficiary A) (dest : A)
    (amount : ℕ) (s' : State A X N) : Prop where
  beneficiaries : s'.beneficiaries = s.beneficiaries.erase b
  totalClaimable : s'.totalClaimable = s.totalClaimable - amount
  claimActive : s'.claimActive = s.claimActive
  claimId : s'.claimId = s.claimId
  events : s'.events = s.events ++ [.claimed b amount]
  book : cfg.currency.book s'.chain =
    (cfg.currency.book s.chain).move cfg.palletAccount dest amount

/-- In a solvent state a payment succeeds if it leaves the destination alive. -/
theorem Solvent.payBeneficiary_iff (hC : cfg.currency.Lawful) (h : Solvent cfg s)
    (hactive : s.claimActive = true) (hlookup : s.beneficiaries.lookup b = some amount) :
    (∃ s', payBeneficiary cfg b dest s = .ok s') ↔
      cfg.currency.minimumBalance ≤ (cfg.currency.book s.chain).free dest + amount := by
  have havailable := h.amount_le_available hactive hlookup
  have hreducible := available_eq hC s ▸ havailable
  rw [← hC.transfer_iff (h.ne_zero b amount hlookup) hreducible]
  constructor
  · rintro ⟨s', hok⟩
    obtain ⟨amount', chain, hlookup', -, htransfer, -⟩ := payBeneficiary_eq_ok.mp hok
    obtain rfl : amount = amount' := Option.some.inj (hlookup.symm.trans hlookup')
    exact ⟨chain, htransfer⟩
  · rintro ⟨chain, htransfer⟩
    exact ⟨_, payBeneficiary_eq_ok.mpr ⟨amount, chain, hlookup, havailable, htransfer, rfl⟩⟩

/-- A payment pays the whole amount and removes the beneficiary. -/
theorem Solvent.paid (hC : cfg.currency.Lawful) (h : Solvent cfg s)
    (hlookup : s.beneficiaries.lookup b = some amount)
    (hok : payBeneficiary cfg b dest s = .ok s') : Paid cfg s b dest amount s' := by
  obtain ⟨amount', chain, hlookup', -, htransfer, rfl⟩ := payBeneficiary_eq_ok.mp hok
  obtain rfl : amount = amount' := Option.some.inj (hlookup.symm.trans hlookup')
  refine ⟨rfl, rfl, rfl, rfl, rfl, ?_⟩
  rw [(hC.transfer_ok htransfer).2.2, h.account_eq]

/-! ## All payments -/

/-- A claim, with the beneficiary it is for and the account it is paid to. -/
structure Payment (A Signer Sig : Type) [LinearOrder A] (N : ℕ) where
  origin : RawOrigin A
  call : Call A Signer Sig N
  beneficiary : Beneficiary A
  dest : A

/-- What a beneficiary may claim. -/
def State.entitlement (s : State A X N) (b : Beneficiary A) : ℕ :=
  (s.beneficiaries.lookup b).getD 0

theorem entitlement_of_lookup (h : s.beneficiaries.lookup b = some amount) :
    s.entitlement b = amount := by
  rw [State.entitlement, h]
  rfl

/-- The payment is authorized, and its destination has or gets the existential deposit. -/
structure Payment.Possible (cfg : Config A R X Signer Sig) (s : State A X N)
    (p : Payment A Signer Sig N) : Prop where
  claims : p.call.claims cfg = some (p.beneficiary, p.dest)
  authorized : Authorized cfg s p.origin p.call
  mem : p.beneficiary ∈ s.beneficiaries
  alive : cfg.currency.minimumBalance ≤
    (cfg.currency.book s.chain).free p.dest + s.entitlement p.beneficiary

/-- Dispatch the claims one after the other. -/
def settle (cfg : Config A R X Signer Sig) (payments : List (Payment A Signer Sig N))
    (s : State A X N) : DispatchResult A X N :=
  payments.foldlM (fun s p => dispatch cfg p.origin p.call s) s

/-- What an account receives from a list of payments. -/
def received (s : State A X N) (payments : List (Payment A Signer Sig N)) (z : A) : ℕ :=
  (payments.map fun p => if z = p.dest then s.entitlement p.beneficiary else 0).sum

/-- Every payment was made in full. -/
structure Settled (cfg : Config A R X Signer Sig) (s : State A X N)
    (payments : List (Payment A Signer Sig N)) (s' : State A X N) : Prop where
  lookup_eq : ∀ b, s'.beneficiaries.lookup b =
    if b ∈ payments.map Payment.beneficiary then none else s.beneficiaries.lookup b
  events : s'.events = s.events ++
    payments.map fun p => .claimed p.beneficiary (s.entitlement p.beneficiary)
  free_eq : ∀ z, z ≠ cfg.palletAccount → (cfg.currency.book s'.chain).free z =
    (cfg.currency.book s.chain).free z + received s payments z

section Order

variable {p q : Payment A Signer Sig N} {payments : List (Payment A Signer Sig N)}

private theorem Paid.entitlement_of_ne (h : Paid cfg s b dest amount s') {b' : Beneficiary A}
    (hne : b' ≠ b) : s'.entitlement b' = s.entitlement b' := by
  rw [State.entitlement, h.beneficiaries, Finmap.lookup_erase_ne hne, State.entitlement]

/-- A payment leaves the payments of the other beneficiaries possible. -/
private theorem Payment.Possible.after (hC : cfg.currency.Lawful) (hsolvent : Solvent cfg s')
    (hactive : s'.claimActive = true) (hq : q.Possible cfg s)
    (hpaid : Paid cfg s b dest amount s') (hne : q.beneficiary ≠ b) : q.Possible cfg s' := by
  have hlookup : s'.beneficiaries.lookup q.beneficiary = s.beneficiaries.lookup q.beneficiary := by
    rw [hpaid.beneficiaries, Finmap.lookup_erase_ne hne]
  obtain ⟨amount', hamount⟩ := Finmap.mem_iff.mp hq.mem
  refine ⟨hq.claims, hq.authorized.of_claimId hpaid.claimId,
    Finmap.mem_iff.mpr ⟨amount', hlookup.trans hamount⟩, ?_⟩
  rw [hpaid.entitlement_of_ne hne]
  by_cases hself : q.dest = cfg.palletAccount
  · -- A solvent account keeps the existential deposit whatever it pays.
    rw [hself]
    exact (hsolvent.minimum_le_free hC hactive (hlookup.trans hamount)).trans
      (Nat.le_add_right _ _)
  · refine hq.alive.trans (Nat.add_le_add_right ?_ _)
    rw [hpaid.book, Book.free_move_of_ne hself]
    exact Nat.le_add_right _ _

/-- Possible payments of different beneficiaries succeed one after the other. -/
theorem Solvent.settle (hC : cfg.currency.Lawful) (h : Solvent cfg s)
    (hactive : s.claimActive = true) (hpossible : ∀ p ∈ payments, p.Possible cfg s)
    (hnodup : (payments.map Payment.beneficiary).Nodup) :
    ∃ s', settle cfg payments s = .ok s' ∧ Settled cfg s payments s' := by
  induction payments generalizing s with
  | nil => exact ⟨s, rfl, fun _ => rfl, (List.append_nil _).symm, fun _ _ => rfl⟩
  | cons p payments ih =>
      obtain ⟨hp, hrest⟩ := List.forall_mem_cons.mp hpossible
      obtain ⟨hnotin, hnodup⟩ := List.nodup_cons.mp hnodup
      obtain ⟨amount, hlookup⟩ := Finmap.mem_iff.mp hp.mem
      have hamount := entitlement_of_lookup hlookup
      obtain ⟨s₁, hpay⟩ := (h.payBeneficiary_iff hC hactive hlookup).mpr (hamount ▸ hp.alive)
      have hpaid := h.paid hC hlookup hpay
      have hdispatch : dispatch cfg p.origin p.call s = .ok s₁ :=
        (dispatch_eq_payBeneficiary hp.claims hp.authorized hactive hp.mem).trans hpay
      have hsolvent := h.effect hC (effect_of_dispatch hdispatch)
      have hactive₁ : s₁.claimActive = true := hpaid.claimActive.trans hactive
      have hne : ∀ q ∈ payments, q.beneficiary ≠ p.beneficiary := by
        intro q hq heq
        exact hnotin (heq ▸ List.mem_map_of_mem hq)
      obtain ⟨s', hok, hsettled⟩ := ih hsolvent hactive₁
        (fun q hq => (hrest q hq).after hC hsolvent hactive₁ hpaid (hne q hq)) hnodup
      -- The amounts of the remaining payments are those of the initial state.
      have hsame : ∀ q ∈ payments, s₁.entitlement q.beneficiary = s.entitlement q.beneficiary :=
        fun q hq => hpaid.entitlement_of_ne (hne q hq)
      refine ⟨s', ?_, fun b => ?_, ?_, fun z hz => ?_⟩
      · rw [TokenClaim.settle, List.foldlM_cons, hdispatch, ok_bind]
        exact hok
      · rw [hsettled.lookup_eq, hpaid.beneficiaries]
        by_cases hb : b = p.beneficiary
        · subst hb
          simp
        · simp [hb, Finmap.lookup_erase_ne hb]
      · rw [hsettled.events, hpaid.events, List.append_assoc, List.map_cons, hamount,
          List.singleton_append]
        congr 2
        exact List.map_congr_left fun q hq => by rw [hsame q hq]
      · have hreceived : received s₁ payments z = received s payments z := by
          rw [received, received]
          exact congrArg List.sum (List.map_congr_left fun q hq => by rw [hsame q hq])
        rw [hsettled.free_eq z hz, hpaid.book, Book.free_move_of_ne hz, hreceived, received,
          received, List.map_cons, List.sum_cons, hamount, Nat.add_assoc]

end Order

/-! ## The theorem -/

/-- In every reachable state with an active claim the total is the sum of the amounts, the pot
covers it, no amount is zero and there are at most `MaxBeneficiaries` of them.  So `process_claim`
never finds the pot too small, `do_claim` never subtracts more than there is, and all beneficiaries
can be paid in full, in any order. -/
theorem token_claim_solvent (hC : cfg.currency.Lawful) (hs : Reachable cfg s)
    (hactive : s.claimActive = true) :
    s.totalClaimable = promised s.beneficiaries ∧
    s.totalClaimable ≤ (pot cfg s).1 ∧
    (∀ b amount, s.beneficiaries.lookup b = some amount → amount ≠ 0) ∧
    s.beneficiaries.keys.card ≤ cfg.maxBeneficiaries.toNat ∧
    (∀ b, processClaim cfg b s ≠ .error (.token .fundsUnavailable)) ∧
    (∀ b amount s', processClaim cfg b s = .ok (amount, s') → amount ≤ s'.totalClaimable) ∧
    ∀ payments : List (Payment A Signer Sig N), (∀ p ∈ payments, p.Possible cfg s) →
      (payments.map Payment.beneficiary).Nodup →
      ∃ s', settle cfg payments s = .ok s' ∧ Settled cfg s payments s' := by
  have h := solvent_of_reachable hC hs
  refine ⟨h.total_active hactive, ?_, h.ne_zero, h.count_le, fun b => ?_, fun b amount s' hok => ?_,
    fun payments hpossible hnodup => h.settle hC hactive hpossible hnodup⟩
  · rw [pot_eq]
    exact h.funded
  · cases hlookup : s.beneficiaries.lookup b with
    | none => simp [processClaim, hlookup]
    | some amount =>
        have hle := h.amount_le_available hactive hlookup
        simp [processClaim, hlookup, pot_eq, Nat.not_lt.mpr hle]
  · cases hlookup : s.beneficiaries.lookup b with
    | none => simp [processClaim, hlookup] at hok
    | some amount' =>
        have hle := h.amount_le_available hactive hlookup
        simp only [processClaim, hlookup, pot_eq, if_neg (Nat.not_lt.mpr hle)] at hok
        cases hok
        exact h.amount_le hactive hlookup

/-! ## A claim with two beneficiaries -/

/-- The account 0 is that of the pallet, the account 1 does not exist and the account 2 does. -/
def sampleChain : Ledger (Fin 3) Unit where
  book :=
    { free := fun x => if x = 0 then 100 else if x = 1 then 0 else 50
      held := fun _ _ => 0
      reserved := fun _ => 0
      frozen := fun _ => 0
      issuance := 150 }
  sum_total_le := by decide
  issuance_le := by decide

/-- A signature is the message with the account that signs it; nobody has an Ethereum key. -/
def sampleSigning : Signing (Fin 3) (Bytes × Fin 3) where
  verify signature message account := decide (signature = (message, account))
  toBytesLiteral account := [UInt8.ofNat account]
  ethMsgSeparator := ascii ['@']
  hashing _ message := h256 (ofLittleEndian message)
  secp256k1EcdsaRecover _ _ := none
  publicFromFull _ := none
  toEthAddress _ := none

/-- The existential deposit is 10 and root is the manager. -/
def sampleConfig : Config (Fin 3) Unit (Ledger (Fin 3) Unit) (Fin 3) (Bytes × Fin 3) where
  palletAccount := 0
  managerOrigin origin := decide (origin = .root)
  currency := Ledger.currency 10
  unclaimedDestination := 2
  intoAccount := id
  signing := sampleSigning
  encodeAccount account := [UInt8.ofNat account]
  maxBeneficiaries := 10
  maxOpBeneficiaries := 5
  overflowChecks := false
  limits_fit := .inr (by decide)
  clear _ _ m :=
    { remaining := ∅
      unique := m.keys.card
      maybeCursor := false
      lookup_remaining := fun k v h => by
        rw [Finmap.lookup_empty] at h
        cases h
      card_remaining := Nat.zero_add _
      remaining_of_done := fun _ => rfl }

theorem sampleConfig_lawful : sampleConfig.currency.Lawful := Ledger.currency_lawful 10

/-- The message of the claim. -/
def sampleMessage : ClaimMessage 8 := ⟨ascii ['g', 'i', 'f', 't'], by decide⟩

/-- The account that claims for itself. -/
def sampleHolder : Fin 3 := 1

/-- The account 1 and an Ethereum address are beneficiaries. -/
def sampleGenesis : GenesisConfig (Fin 3) 8 where
  beneficiaries := ⟨[(.ethereum 7, 5), (.substrate 1, 20)], by decide⟩
  claimMessage := sampleMessage

/-- The state after the genesis. -/
def sampleState : State (Fin 3) (Ledger (Fin 3) Unit) 8 where
  beneficiaries := Finmap.insert (.ethereum 7) 5 (Finmap.insert (.substrate 1) 20 ∅)
  totalClaimable := 25
  claimActive := true
  claimId := some (0, sampleMessage)
  palletAccountId := some 0
  events := []
  chain := sampleChain

theorem sampleState_reachable : Reachable sampleConfig sampleState :=
  ⟨sampleGenesis, sampleChain, sampleState, [], rfl, rfl⟩

/-- The manager claims for the Ethereum address, to the account 2; the account 1 claims itself. -/
def samplePayments : List (Payment (Fin 3) (Fin 3) (Bytes × Fin 3) 8) :=
  [⟨.root, .claimEthereumFor 7 2, .ethereum 7, 2⟩,
    ⟨.none, .claim 1 (sampleMessage.toList, 1), .substrate 1, 1⟩]

theorem token_claim_solvent_sample :
    Reachable sampleConfig sampleState ∧ sampleState.claimActive = true ∧
      ∃ s', settle sampleConfig samplePayments sampleState = .ok s' ∧
        (∀ b, s'.beneficiaries.lookup b = none) ∧
        (sampleConfig.currency.book s'.chain).free 1 = 20 ∧
        (sampleConfig.currency.book s'.chain).free 2 = 55 := by
  have hpossible : ∀ p ∈ samplePayments, p.Possible sampleConfig sampleState := by
    intro p hp
    simp only [samplePayments, List.mem_cons, List.not_mem_nil, or_false] at hp
    rcases hp with rfl | rfl
    · exact ⟨rfl, rfl, by decide, by decide⟩
    · exact ⟨rfl, ⟨rfl, (0, sampleMessage), rfl, by decide⟩, by decide, by decide⟩
  obtain ⟨-, -, -, -, -, -, hall⟩ :=
    token_claim_solvent sampleConfig_lawful sampleState_reachable rfl
  obtain ⟨s', hok, hsettled⟩ := hall samplePayments hpossible (by decide)
  refine ⟨sampleState_reachable, rfl, s', hok, fun b => ?_, ?_, ?_⟩
  · rw [hsettled.lookup_eq]
    split
    · rfl
    · rename_i hb
      simp only [samplePayments, List.map_cons, List.map_nil, List.mem_cons, List.not_mem_nil,
        or_false, not_or] at hb
      rw [sampleState, Finmap.lookup_insert_of_ne _ hb.1, Finmap.lookup_insert_of_ne _ hb.2,
        Finmap.lookup_empty]
  · rw [hsettled.free_eq 1 (by decide)]
    decide
  · rw [hsettled.free_eq 2 (by decide)]
    decide

end ZkVerify.TokenClaim
