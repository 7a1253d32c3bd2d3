import ZkVerify.TokenClaim.Pallet

/-!
# Runs of the token-claim pallet

A run starts from a genesis that was built without a failed assertion.  Its steps are calls
with any origin, the initialization of blocks, and changes of the rest of the chain.  The
latter may deposit to the account of the pallet; nobody but the pallet debits, holds or
freezes that account.  A call that fails changes nothing.

`Effect cfg s c s'` lists, one constructor for each way in which a call can succeed, what
the call `c` found in the state `s` and what it made of it.  The four calls that claim
share one constructor: they differ in who may make them, not in what they do.
-/

namespace ZkVerify.TokenClaim

open Frame

variable {A R X Signer Sig : Type} [LinearOrder A] {N : ℕ}

/-! ## Calls and steps -/

/-- The calls of the pallet. -/
inductive Call (A Signer Sig : Type) [LinearOrder A] (N : ℕ)
  | beginClaim (beneficiaries : BTreeMap (Beneficiary A) ℕ) (claimMessage : ClaimMessage N)
  | claim (beneficiary : Signer) (signature : Sig)
  | claimFor (dest : A)
  | addBeneficiaries (beneficiaries : BTreeMap (Beneficiary A) ℕ)
  | endClaim
  | removeBeneficiaries (limit : Option UInt32)
  | claimEthereum (beneficiary : EthereumAddress) (signature : EthereumSignature) (dest : A)
  | claimEthereumFor (beneficiary : EthereumAddress) (dest : A)

/-- Execute a call. -/
def dispatch (cfg : Config A R X Signer Sig) (origin : RawOrigin A) (c : Call A Signer Sig N)
    (s : State A X N) : DispatchResult A X N :=
  match c with
  | .beginClaim beneficiaries claimMessage => beginClaim cfg origin beneficiaries claimMessage s
  | .claim beneficiary signature => claim cfg origin beneficiary signature s
  | .claimFor dest => claimFor cfg origin dest s
  | .addBeneficiaries beneficiaries => addBeneficiaries cfg origin beneficiaries s
  | .endClaim => endClaim cfg origin s
  | .removeBeneficiaries limit => removeBeneficiaries cfg origin limit s
  | .claimEthereum beneficiary signature dest =>
      claimEthereum cfg origin beneficiary signature dest s
  | .claimEthereumFor beneficiary dest => claimEthereumFor cfg origin beneficiary dest s

/-- The beneficiary whose entitlement a call claims, and the account it is paid to. -/
def Call.claims (cfg : Config A R X Signer Sig) : Call A Signer Sig N → Option (Beneficiary A × A)
  | .claim beneficiary _ =>
      some (.substrate (cfg.intoAccount beneficiary), cfg.intoAccount beneficiary)
  | .claimFor dest => some (.substrate dest, dest)
  | .claimEthereum beneficiary _ dest => some (.ethereum beneficiary, dest)
  | .claimEthereumFor beneficiary dest => some (.ethereum beneficiary, dest)
  | _ => none

/-- A change of the rest of the chain that only deposits to the account of the pallet. -/
structure Environment (cfg : Config A R X Signer Sig) where
  act : X → X
  free_le : ∀ x, (cfg.currency.book x).free cfg.palletAccount ≤
    (cfg.currency.book (act x)).free cfg.palletAccount
  reserved_eq : ∀ x, (cfg.currency.book (act x)).reserved cfg.palletAccount =
    (cfg.currency.book x).reserved cfg.palletAccount
  frozen_eq : ∀ x, (cfg.currency.book (act x)).frozen cfg.palletAccount =
    (cfg.currency.book x).frozen cfg.palletAccount

/-- One step of a run. -/
inductive Step (cfg : Config A R X Signer Sig) (N : ℕ)
  | call (origin : RawOrigin A) (c : Call A Signer Sig N)
  | onInitialize
  | environment (e : Environment cfg)

variable {cfg : Config A R X Signer Sig}

/-- The state after one step. -/
def exec (s : State A X N) : Step cfg N → State A X N
  | .call origin c =>
      match dispatch cfg origin c s with
      | .ok s' => s'
      | .error _ => s
  | .onInitialize => onInitialize cfg s
  | .environment e => { s with chain := e.act s.chain }

/-- The state after a list of steps. -/
def run (s : State A X N) (steps : List (Step cfg N)) : State A X N := steps.foldl exec s

/-- The state is reached by a run from a genesis. -/
def Reachable (cfg : Config A R X Signer Sig) (s : State A X N) : Prop :=
  ∃ (g : GenesisConfig A N) (x : X) (s₀ : State A X N) (steps : List (Step cfg N)),
    g.build cfg x = .ok s₀ ∧ s = run s₀ steps

variable {s s' : State A X N} {c : Call A Signer Sig N} {origin : RawOrigin A}

/-! ## The account and the pot -/

/-- The account that `account_id` returns. -/
def State.account (cfg : Config A R X Signer Sig) (s : State A X N) : A :=
  s.palletAccountId.getD cfg.palletAccount

/-- The value of `pot`. -/
def State.available (cfg : Config A R X Signer Sig) (s : State A X N) : ℕ :=
  cfg.currency.reducibleBalance (s.account cfg) .preserve .polite s.chain

theorem accountId_eq : accountId cfg s =
    (s.account cfg, { s with palletAccountId := some (s.account cfg) }) := by
  unfold accountId State.account
  split
  · rename_i id h
    rw [h]
    exact Prod.ext rfl (by rw [Option.getD_some, ← h])
  · rename_i h
    rw [h]
    rfl

theorem pot_eq : pot cfg s =
    (s.available cfg, { s with palletAccountId := some (s.account cfg) }) := by
  simp only [pot, accountId_eq]
  rfl

/-- The account is asked for, or not: what is stored about it afterwards. -/
def State.Remembers (cfg : Config A R X Signer Sig) (s : State A X N) (id : Option A) : Prop :=
  id = s.palletAccountId ∨ id = some (s.account cfg)

/-! ## The functions behind the calls -/

omit [LinearOrder A] in
theorem checkClaimStatus_eq_ok {active : Bool} {u : Unit} :
    checkClaimStatus active s = .ok u ↔ s.claimActive = active := by
  unfold checkClaimStatus
  cases s.claimActive <;> cases active <;> simp

theorem checkClaimant_eq_ok {b : Beneficiary A} {signature : ClaimSignature A Sig} {u : Unit} :
    checkClaimant cfg b signature s = .ok u ↔ s.claimActive = true ∧ b ∈ s.beneficiaries ∧
      ∃ claimId, s.claimId = some claimId ∧
        signature.verify cfg.signing claimId.2.toList b = true := by
  simp only [checkClaimant, seq_eq_ok, checkClaimStatus_eq_ok, ensure_eq_ok, okOr_eq_ok,
    decide_eq_true_eq, exists_const]

/-- The check keeps the number of beneficiaries within the limit.  It has been kept so far, so that
the sum does not wrap. -/
theorem checkBeneficiariesLen_eq_ok {n : ℕ} {u : Unit} (h : checkBeneficiariesLen cfg n s = .ok u)
    (hcount : s.count ≤ cfg.maxBeneficiaries.toNat) :
    s.count + n ≤ cfg.maxBeneficiaries.toNat := by
  obtain ⟨_, hop, h⟩ := seq_eq_ok.mp h
  obtain ⟨sum, hsum, h⟩ := seq_eq_ok.mp h
  have hn : n ≤ cfg.maxOpBeneficiaries.toNat := of_decide_eq_true (ensure_eq_ok.mp hop)
  have hword : n < 2 ^ 32 := hn.trans_lt cfg.maxOpBeneficiaries.toNat_lt
  rw [okOr_eq_ok, Nat.mod_eq_of_lt hword] at hsum
  obtain rfl : sum = s.count + n := by
    refine eq_of_plainAdd hsum (cfg.limits_fit.imp_right fun hfit => ?_)
    exact (Nat.add_le_add hcount hn).trans hfit
  exact of_decide_eq_true (ensure_eq_ok.mp h)

/-- The loop over the new beneficiaries, from the stored ones and the amount they require. -/
def addAll (cfg : Config A R X Signer Sig) (entries : List (Beneficiary A × ℕ))
    (s : State A X N) : Except (DispatchError Error) (ℕ × Finmap fun _ : Beneficiary A => ℕ) :=
  entries.foldlM (addBeneficiary (s.available cfg)) (s.totalClaimable, s.beneficiaries)

theorem doAddBeneficiaries_eq_ok {bs : BTreeMap (Beneficiary A) ℕ} :
    doAddBeneficiaries cfg bs s = .ok s' ↔ ∃ required stored,
      addAll cfg bs.entries s = .ok (required, stored) ∧
        s' = { s with
          beneficiaries := stored
          totalClaimable := required
          palletAccountId := some (s.account cfg) } := by
  unfold doAddBeneficiaries
  simp only [pot_eq, seq_eq_ok, Prod.exists]
  refine exists_congr fun required => exists_congr fun stored => and_congr_right fun _ => ?_
  exact ⟨fun h => by cases h; rfl, fun h => by rw [h]; rfl⟩

theorem payBeneficiary_eq_ok {b : Beneficiary A} {dest : A} :
    payBeneficiary cfg b dest s = .ok s' ↔ ∃ amount chain,
      s.beneficiaries.lookup b = some amount ∧ amount ≤ s.available cfg ∧
        cfg.currency.transfer (s.account cfg) dest amount .preserve s.chain = .ok chain ∧
          s' = { s with
            beneficiaries := s.beneficiaries.erase b
            totalClaimable := s.totalClaimable - amount
            palletAccountId := some (s.account cfg)
            events := s.events ++ [.claimed b amount]
            chain := chain } := by
  unfold payBeneficiary processClaim doClaim
  cases hlookup : s.beneficiaries.lookup b with
  | none => simp [raise]
  | some amount =>
      simp only [pot_eq, accountId_eq, Option.some.injEq]
      by_cases hpot : s.available cfg < amount
      · rw [if_pos hpot]
        simp [raise, hpot]
      · rw [if_neg hpot, raise_ok, ok_bind, raise_eq_ok, seq_eq_ok]
        constructor
        · rintro ⟨chain, htransfer, h⟩
          cases h
          exact ⟨amount, chain, rfl, not_lt.mp hpot, htransfer, rfl⟩
        · rintro ⟨_, chain, rfl, -, htransfer, rfl⟩
          exact ⟨chain, htransfer, rfl⟩

theorem sweep_eq_ok (h : sweep cfg s = .ok s') : ∃ chain,
    s' = { s with palletAccountId := some (s.account cfg), chain := chain } ∧
      if cfg.unclaimedDestination = s.account cfg then chain = s.chain
      else cfg.currency.transfer (s.account cfg) cfg.unclaimedDestination (s.available cfg)
        .preserve s.chain = .ok chain := by
  simp only [sweep, pot_eq, accountId_eq] at h
  split at h
  · rename_i hdest
    obtain ⟨chain, htransfer, h⟩ := seq_eq_ok.mp h
    cases h
    exact ⟨chain, rfl, by rw [if_neg hdest]; exact raise_eq_ok.mp htransfer⟩
  · rename_i hdest
    cases h
    exact ⟨s.chain, rfl, by rw [if_pos (not_not.mp hdest)]⟩

/-! ## What a successful call does -/

/-- The ways in which a call can succeed. -/
inductive Effect (cfg : Config A R X Signer Sig) (s : State A X N) :
    Call A Signer Sig N → State A X N → Prop
  /-- A claim begins; the storage of the last one is cleared. -/
  | begun {bs : BTreeMap (Beneficiary A) ℕ} {message : ClaimMessage N} {required : ℕ}
      {stored : Finmap fun _ : Beneficiary A => ℕ} {id : Option A} {claimId : ℕ × ClaimMessage N}
      (hcleared : s.beneficiaries = ∅) (hinactive : s.claimActive = false)
      (hlen : bs.len ≤ cfg.maxOpBeneficiaries.toNat)
      (hadd : addAll cfg bs.entries s = .ok (required, stored)) (hid : s.Remembers cfg id)
      (hclaimId : nextClaimId cfg message s.claimId = .ok claimId) :
      Effect cfg s (.beginClaim bs message)
        { s with
          beneficiaries := stored
          totalClaimable := required
          claimActive := true
          claimId := some claimId
          palletAccountId := id
          events := s.events ++ [.claimStarted claimId.1 claimId.2] }
  /-- Beneficiaries are added. -/
  | added {bs : BTreeMap (Beneficiary A) ℕ} {required : ℕ}
      {stored : Finmap fun _ : Beneficiary A => ℕ} {id : Option A}
      (hactive : s.claimActive = true)
      (hlen : s.count ≤ cfg.maxBeneficiaries.toNat →
        s.count + bs.len ≤ cfg.maxBeneficiaries.toNat)
      (hadd : addAll cfg bs.entries s = .ok (required, stored)) (hid : s.Remembers cfg id) :
      Effect cfg s (.addBeneficiaries bs)
        { s with beneficiaries := stored, totalClaimable := required, palletAccountId := id }
  /-- A beneficiary is paid. -/
  | claimed {c : Call A Signer Sig N} {b : Beneficiary A} {dest : A} {amount : ℕ} {chain : X}
      (hclaims : c.claims cfg = some (b, dest)) (hactive : s.claimActive = true)
      (hlookup : s.beneficiaries.lookup b = some amount) (havailable : amount ≤ s.available cfg)
      (htransfer : cfg.currency.transfer (s.account cfg) dest amount .preserve s.chain =
        .ok chain) :
      Effect cfg s c
        { s with
          beneficiaries := s.beneficiaries.erase b
          totalClaimable := s.totalClaimable - amount
          palletAccountId := some (s.account cfg)
          events := s.events ++ [.claimed b amount]
          chain := chain }
  /-- The claim ends, and what is left goes to the destination of unclaimed funds unless that is
  the account itself. -/
  | ended {claimId : ℕ × ClaimMessage N} {chain : X} (hactive : s.claimActive = true)
      (hclaimId : s.claimId = some claimId)
      (hswept : if cfg.unclaimedDestination = s.account cfg then chain = s.chain
        else cfg.currency.transfer (s.account cfg) cfg.unclaimedDestination (s.available cfg)
          .preserve s.chain = .ok chain) :
      Effect cfg s .endClaim
        { s with
          totalClaimable := 0
          claimActive := false
          palletAccountId := some (s.account cfg)
          events := s.events ++ [.claimEnded claimId.1 claimId.2]
          chain := chain }
  /-- Beneficiaries of the last claim are removed. -/
  | removed {limit : Option UInt32} {events : List (Event A N)}
      {remaining : Finmap fun _ : Beneficiary A => ℕ} (hinactive : s.claimActive = false)
      (hremaining : ∀ b amount, remaining.lookup b = some amount →
        s.beneficiaries.lookup b = some amount)
      (hcard : remaining.keys.card ≤ s.count)
      (hevents : ∀ b amount, .claimed b amount ∉ events) :
      Effect cfg s (.removeBeneficiaries limit)
        { s with beneficiaries := remaining, events := s.events ++ events }

private theorem effect_of_beginClaim {bs : BTreeMap (Beneficiary A) ℕ} {message : ClaimMessage N}
    (h : beginClaim cfg origin bs message s = .ok s') :
    Effect cfg s (.beginClaim bs message) s' := by
  unfold beginClaim at h
  obtain ⟨_, -, h⟩ := seq_eq_ok.mp h
  obtain ⟨_, hcount, h⟩ := seq_eq_ok.mp h
  obtain ⟨_, -, h⟩ := seq_eq_ok.mp h
  obtain ⟨_, hstatus, h⟩ := seq_eq_ok.mp h
  obtain ⟨s₁, hadd, h⟩ := seq_eq_ok.mp h
  obtain ⟨claimId, hclaimId, h⟩ := seq_eq_ok.mp h
  rw [unwind_eq_ok] at hclaimId
  unfold addFirst at hadd
  have hinactive := checkClaimStatus_eq_ok.mp (mapError_eq_ok.mp hstatus)
  have hcleared : s.beneficiaries = ∅ :=
    Finmap.eq_empty_of_card (of_decide_eq_true (ensure_eq_ok.mp hcount))
  cases h
  split at hadd
  · obtain ⟨_, hop, hadd⟩ := seq_eq_ok.mp hadd
    obtain ⟨required, stored, hall, rfl⟩ := doAddBeneficiaries_eq_ok.mp (raise_eq_ok.mp hadd)
    exact .begun hcleared hinactive (of_decide_eq_true (ensure_eq_ok.mp (mapError_eq_ok.mp hop)))
      hall (.inr rfl) hclaimId
  · rename_i hlen
    have hnil : bs.entries = [] := List.eq_nil_of_length_eq_zero (Nat.eq_zero_of_not_pos hlen)
    cases hadd
    exact .begun hcleared hinactive (by rw [BTreeMap.len, hnil]; exact Nat.zero_le _)
      (by rw [hnil]; rfl) (.inl rfl) hclaimId

private theorem effect_of_addBeneficiaries {bs : BTreeMap (Beneficiary A) ℕ}
    (h : addBeneficiaries cfg origin bs s = .ok s') : Effect cfg s (.addBeneficiaries bs) s' := by
  unfold addBeneficiaries at h
  obtain ⟨_, hstatus, h⟩ := seq_eq_ok.mp h
  obtain ⟨_, -, h⟩ := seq_eq_ok.mp h
  have hactive := checkClaimStatus_eq_ok.mp (mapError_eq_ok.mp hstatus)
  split at h
  · obtain ⟨_, hlen, h⟩ := seq_eq_ok.mp h
    obtain ⟨required, stored, hall, rfl⟩ := doAddBeneficiaries_eq_ok.mp (raise_eq_ok.mp h)
    exact .added hactive (checkBeneficiariesLen_eq_ok (mapError_eq_ok.mp hlen)) hall (.inr rfl)
  · rename_i hlen
    have hnil : bs.entries = [] := List.eq_nil_of_length_eq_zero (Nat.eq_zero_of_not_pos hlen)
    cases h
    have hzero : bs.len = 0 := Nat.eq_zero_of_not_pos hlen
    exact .added hactive (fun hcount => by rwa [hzero]) (by rw [hnil]; rfl) (.inl rfl)

private theorem effect_of_payBeneficiary {b : Beneficiary A} {dest : A}
    (hclaims : c.claims cfg = some (b, dest)) (hactive : s.claimActive = true)
    (h : payBeneficiary cfg b dest s = .ok s') : Effect cfg s c s' := by
  obtain ⟨amount, chain, hlookup, havailable, htransfer, rfl⟩ := payBeneficiary_eq_ok.mp h
  exact .claimed hclaims hactive hlookup havailable htransfer

private theorem effect_of_claimByManager {b : Beneficiary A} {dest : A}
    (hclaims : c.claims cfg = some (b, dest)) (h : claimByManager cfg origin b dest s = .ok s') :
    Effect cfg s c s' := by
  obtain ⟨_, -, h⟩ := seq_eq_ok.mp h
  obtain ⟨_, hstatus, h⟩ := seq_eq_ok.mp h
  exact effect_of_payBeneficiary hclaims
    (checkClaimStatus_eq_ok.mp (mapError_eq_ok.mp hstatus)) h

private theorem effect_of_endClaim (h : endClaim cfg origin s = .ok s') :
    Effect cfg s .endClaim s' := by
  unfold endClaim at h
  obtain ⟨_, -, h⟩ := seq_eq_ok.mp h
  obtain ⟨_, hstatus, h⟩ := seq_eq_ok.mp h
  obtain ⟨s₁, hsweep, h⟩ := seq_eq_ok.mp h
  obtain ⟨claimId, hclaimId, h⟩ := seq_eq_ok.mp h
  have hactive := checkClaimStatus_eq_ok.mp (mapError_eq_ok.mp hstatus)
  obtain ⟨chain, rfl, hswept⟩ := sweep_eq_ok hsweep
  cases h
  exact .ended hactive (okOr_eq_ok.mp hclaimId) hswept

private theorem effect_of_removeBeneficiaries {limit : Option UInt32}
    (h : removeBeneficiaries cfg origin limit s = .ok s') :
    Effect cfg s (.removeBeneficiaries limit) s' := by
  unfold removeBeneficiaries at h
  obtain ⟨_, -, h⟩ := seq_eq_ok.mp h
  obtain ⟨_, hstatus, h⟩ := seq_eq_ok.mp h
  have hinactive := checkClaimStatus_eq_ok.mp (mapError_eq_ok.mp hstatus)
  cases h
  unfold doRemoveBeneficiaries
  split
  · generalize cfg.clear s.chain _ s.beneficiaries = result
    refine .removed hinactive result.lookup_remaining ?_ ?_
    · rw [State.count, ← result.card_remaining]
      exact Nat.le_add_right _ _
    · intro b amount hmem
      split at hmem <;> simp at hmem
  · have hsame : Effect cfg s (.removeBeneficiaries limit) { s with events := s.events ++ [] } :=
      .removed hinactive (fun _ _ h => h) (le_refl s.count) fun _ _ hmem => nomatch hmem
    rwa [List.append_nil] at hsame

/-- Every successful call has one of the effects. -/
theorem effect_of_dispatch (h : dispatch cfg origin c s = .ok s') : Effect cfg s c s' := by
  cases c with
  | beginClaim => exact effect_of_beginClaim h
  | addBeneficiaries => exact effect_of_addBeneficiaries h
  | endClaim => exact effect_of_endClaim h
  | removeBeneficiaries => exact effect_of_removeBeneficiaries h
  | claimFor => exact effect_of_claimByManager rfl h
  | claimEthereumFor => exact effect_of_claimByManager rfl h
  | claim =>
      obtain ⟨_, -, h⟩ := seq_eq_ok.mp h
      obtain ⟨_, hcheck, h⟩ := seq_eq_ok.mp h
      exact effect_of_payBeneficiary rfl (checkClaimant_eq_ok.mp (mapError_eq_ok.mp hcheck)).1 h
  | claimEthereum =>
      obtain ⟨_, -, h⟩ := seq_eq_ok.mp h
      obtain ⟨_, hcheck, h⟩ := seq_eq_ok.mp h
      exact effect_of_payBeneficiary rfl (checkClaimant_eq_ok.mp (mapError_eq_ok.mp hcheck)).1 h

/-! ## What the other steps do -/

/-- The initialization stores the account and mints at most the existential deposit to it. -/
theorem onInitialize_eq (cfg : Config A R X Signer Sig) (s : State A X N) : ∃ chain,
    onInitialize cfg s = { s with palletAccountId := some (s.account cfg), chain := chain } ∧
      (chain = s.chain ∨ cfg.currency.mintInto (s.account cfg) cfg.currency.minimumBalance
        s.chain = .ok chain) := by
  simp only [onInitialize, accountId_eq]
  split
  · exact ⟨s.chain, rfl, .inl rfl⟩
  · split
    · rename_i chain hmint
      exact ⟨chain, rfl, .inr hmint⟩
    · exact ⟨s.chain, rfl, .inl rfl⟩

/-- A genesis is empty, or it opens a claim for the beneficiaries it lists. -/
theorem build_eq_ok {g : GenesisConfig A N} {x : X} (h : g.build cfg x = .ok s) :
    cfg.maxOpBeneficiaries.toNat ≤ cfg.maxBeneficiaries.toNat ∧
      (g.beneficiaries.toList = [] ∧ s = .empty x ∨
        ∃ required stored,
          (BTreeMap.collect g.beneficiaries.toList).len ≤ cfg.maxBeneficiaries.toNat ∧
          addAll cfg (BTreeMap.collect g.beneficiaries.toList).entries (.empty x : State A X N) =
            .ok (required, stored) ∧
          s = {
            beneficiaries := stored
            totalClaimable := required
            claimActive := true
            claimId := some (0, g.claimMessage)
            palletAccountId := some cfg.palletAccount
            events := []
            chain := x }) := by
  unfold GenesisConfig.build at h
  obtain ⟨_, hmax, h⟩ := seq_eq_ok.mp h
  refine ⟨of_decide_eq_true (ensure_eq_ok.mp hmax), ?_⟩
  dsimp only at h
  split at h
  · right
    obtain ⟨_, -, h⟩ := seq_eq_ok.mp h
    obtain ⟨_, hlen, h⟩ := seq_eq_ok.mp h
    obtain ⟨s₁, hadd, h⟩ := seq_eq_ok.mp h
    obtain ⟨required, stored, hall, rfl⟩ := doAddBeneficiaries_eq_ok.mp (mapError_eq_ok.mp hadd)
    obtain ⟨sum, hsum, hlen⟩ := seq_eq_ok.mp (mapError_eq_ok.mp hlen)
    have hle := of_decide_eq_true (ensure_eq_ok.mp hlen)
    have hlength := g.beneficiaries.length_le
    rw [okOr_eq_ok, Nat.mod_eq_of_lt (Nat.lt_of_le_of_lt hlength (by decide))] at hsum
    -- Nobody is stored yet, and the length of a vector fits.
    have hempty : (.empty x : State A X N).count = 0 := rfl
    obtain rfl : sum = g.beneficiaries.toList.length := by
      rw [eq_of_plainAdd hsum (.inr (by rwa [hempty, Nat.zero_add])), hempty, Nat.zero_add]
    cases h
    exact ⟨required, stored, (BTreeMap.len_collect_le _).trans hle, hall, rfl⟩
  · rename_i hlen
    left
    cases h
    exact ⟨List.eq_nil_of_length_eq_zero (Nat.eq_zero_of_not_pos hlen), rfl⟩

/-- What holds initially and is preserved by every successful call, by the initialization and by
the rest of the chain holds after every run. -/
theorem run_induction {Q : State A X N → Prop} {steps : List (Step cfg N)} (hinit : Q s)
    (hcall : ∀ s c s', Q s → Effect cfg s c s' → Q s')
    (hblock : ∀ s, Q s → Q (onInitialize cfg s))
    (henv : ∀ s (e : Environment cfg), Q s → Q { s with chain := e.act s.chain }) :
    Q (run s steps) := by
  induction steps generalizing s with
  | nil => exact hinit
  | cons step steps ih =>
      refine ih ?_
      cases step with
      | onInitialize => exact hblock s hinit
      | environment e => exact henv s e hinit
      | call origin c =>
          simp only [exec]
          split
          · rename_i s' hok
            exact hcall s c s' hinit (effect_of_dispatch hok)
          · exact hinit

end ZkVerify.TokenClaim
