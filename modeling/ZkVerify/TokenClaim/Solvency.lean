import ZkVerify.TokenClaim.Run

/-!
# The pallet can pay what it promises

`Solvent` is the invariant of every run: while a claim is active the total is the sum of
the stored amounts, and the account can spend at least the total without falling below
the existential deposit.  `TotalClaimable` is zero while no claim is active, although
entries of the last claim may still be stored; this is what makes the sum right again
when the next claim begins.
-/

namespace ZkVerify.TokenClaim

open Frame

variable {A R X Signer Sig : Type} [LinearOrder A] {N : ℕ} {cfg : Config A R X Signer Sig}
  {s s' : State A X N} {c : Call A Signer Sig N} {origin : RawOrigin A}

/-! ## Adding beneficiaries -/

/-- The sum of all amounts in a table of beneficiaries. -/
def promised (m : Finmap fun _ : Beneficiary A => ℕ) : ℕ := m.total fun _ amount => amount

/-- A round of the loop.  Below the largest balance the sum does not saturate. -/
theorem addBeneficiary_eq_ok {available : ℕ} (havailable : available < u128Max)
    {acc acc' : ℕ × Finmap fun _ : Beneficiary A => ℕ} {entry : Beneficiary A × ℕ} :
    addBeneficiary available acc entry = .ok acc' ↔ entry.1 ∉ acc.2 ∧ entry.2 ≠ 0 ∧
      acc.1 + entry.2 ≤ available ∧ acc' = (acc.1 + entry.2, acc.2.insert entry.1 entry.2) := by
  have hsum : saturatingAdd u128Max acc.1 entry.2 ≤ available ↔ acc.1 + entry.2 ≤ available := by
    unfold saturatingAdd
    omega
  have hexact : acc.1 + entry.2 ≤ available →
      saturatingAdd u128Max acc.1 entry.2 = acc.1 + entry.2 :=
    fun hle => min_eq_left (hle.trans havailable.le)
  unfold addBeneficiary
  simp only [seq_eq_ok, ensure_eq_ok, decide_eq_true_eq, exists_const, hsum]
  refine and_congr_right fun _ => and_congr_right fun _ => and_congr_right fun hle => ?_
  rw [hexact hle]
  exact ⟨fun h => by cases h; rfl, fun h => by rw [h]; rfl⟩

/-- What the loop over the new beneficiaries makes of the total and of the table. -/
structure Extends (available : ℕ) (entries : List (Beneficiary A × ℕ))
    (acc acc' : ℕ × Finmap fun _ : Beneficiary A => ℕ) : Prop where
  balanced : acc'.1 + promised acc.2 = acc.1 + promised acc'.2
  funded : acc.1 ≤ available → acc'.1 ≤ available
  card_eq : acc'.2.keys.card = acc.2.keys.card + entries.length
  ne_zero : (∀ b amount, acc.2.lookup b = some amount → amount ≠ 0) →
    ∀ b amount, acc'.2.lookup b = some amount → amount ≠ 0

theorem extends_of_foldlM {available : ℕ} (havailable : available < u128Max)
    {entries : List (Beneficiary A × ℕ)} {acc acc' : ℕ × Finmap fun _ : Beneficiary A => ℕ}
    (h : entries.foldlM (addBeneficiary available) acc = .ok acc') :
    Extends available entries acc acc' := by
  induction entries generalizing acc with
  | nil =>
      cases h
      exact ⟨rfl, id, rfl, id⟩
  | cons entry entries ih =>
      rw [List.foldlM_cons] at h
      obtain ⟨middle, hround, hrest⟩ := seq_eq_ok.mp h
      obtain ⟨hnew, hne, hle, rfl⟩ := (addBeneficiary_eq_ok havailable).mp hround
      have hrest := ih hrest
      have hpromised : promised (acc.2.insert entry.1 entry.2) = promised acc.2 + entry.2 :=
        Finmap.total_insert_of_notMem entry.2 hnew
      refine ⟨?_, fun _ => hrest.funded hle, ?_, fun hold => hrest.ne_zero ?_⟩
      · have hbalanced := hrest.balanced
        rw [hpromised] at hbalanced
        omega
      · rw [hrest.card_eq, Finmap.card_keys_insert entry.2 hnew, List.length_cons]
        omega
      · exact Finmap.forall_lookup_insert hne fun b amount _ => hold b amount

/-! ## The invariant -/

/-- The state of the pallet is consistent and its account can pay for it. -/
structure Solvent (cfg : Config A R X Signer Sig) (s : State A X N) : Prop where
  account_eq : s.account cfg = cfg.palletAccount
  op_le : cfg.maxOpBeneficiaries.toNat ≤ cfg.maxBeneficiaries.toNat
  count_le : s.count ≤ cfg.maxBeneficiaries.toNat
  ne_zero : ∀ b amount, s.beneficiaries.lookup b = some amount → amount ≠ 0
  total_active : s.claimActive = true → s.totalClaimable = promised s.beneficiaries
  total_inactive : s.claimActive = false → s.totalClaimable = 0
  funded : s.totalClaimable ≤ s.available cfg
  claimId_active : s.claimActive = true → s.claimId.isSome

theorem account_of_remembers {id : Option A} (h : s.Remembers cfg id) :
    id.getD cfg.palletAccount = s.account cfg := by
  rcases h with rfl | rfl <;> rfl

theorem available_eq (hC : cfg.currency.Lawful) (s : State A X N) : s.available cfg =
    (cfg.currency.book s.chain).reducible cfg.currency.minimumBalance (s.account cfg) :=
  hC.reducible_eq s.chain (s.account cfg)

theorem available_lt (hC : cfg.currency.Lawful) (s : State A X N) : s.available cfg < u128Max := by
  rw [available_eq hC]
  exact Nat.lt_of_le_of_lt Book.reducible_le_free (hC.free_lt s.chain (s.account cfg))

/-- The pot after a payment. -/
theorem available_of_transfer (hC : cfg.currency.Lawful) {dest : A} {amount : ℕ} {chain : X}
    (htransfer : cfg.currency.transfer (s.account cfg) dest amount .preserve s.chain = .ok chain)
    (hchain : s'.chain = chain) (haccount : s'.account cfg = s.account cfg) :
    s.available cfg - amount ≤ s'.available cfg := by
  rw [available_eq hC, available_eq hC, haccount, hchain, (hC.transfer_ok htransfer).2.2]
  exact Book.reducible_sub_le_move

namespace Solvent

theorem build {g : GenesisConfig A N} {x : X} (hC : cfg.currency.Lawful)
    (h : g.build cfg x = .ok s) : Solvent cfg s := by
  have hnone : ∀ (b : Beneficiary A) (amount : ℕ),
      (∅ : Finmap fun _ : Beneficiary A => ℕ).lookup b = some amount → amount ≠ 0 := by
    intro b amount hb
    rw [Finmap.lookup_empty] at hb
    cases hb
  obtain ⟨hmax, ⟨-, rfl⟩ | ⟨required, stored, hlen, hadd, rfl⟩⟩ := build_eq_ok h
  · exact ⟨rfl, hmax, Nat.zero_le _, hnone, nofun, fun _ => rfl, Nat.zero_le _, nofun⟩
  · have hext := extends_of_foldlM (available_lt hC _) hadd
    refine ⟨rfl, hmax, ?_, hext.ne_zero hnone, fun _ => ?_, nofun,
      hext.funded (Nat.zero_le _), fun _ => rfl⟩
    · have hcard := hext.card_eq
      simp only [State.empty, Finmap.keys_empty, Finset.card_empty, Nat.zero_add] at hcard
      exact hcard.trans_le hlen
    · have hbalanced := hext.balanced
      simpa [State.empty, promised] using hbalanced

/-- The state after beneficiaries were added. -/
private theorem extend (hC : cfg.currency.Lawful) (h : Solvent cfg s)
    {entries : List (Beneficiary A × ℕ)} {required : ℕ}
    {stored : Finmap fun _ : Beneficiary A => ℕ}
    (hadd : addAll cfg entries s = .ok (required, stored))
    (htotal : s.totalClaimable = promised s.beneficiaries) :
    required = promised stored ∧ required ≤ s.available cfg ∧
      stored.keys.card = s.count + entries.length ∧
      ∀ b amount, stored.lookup b = some amount → amount ≠ 0 := by
  have hext := extends_of_foldlM (available_lt hC s) hadd
  have hbalanced := hext.balanced
  refine ⟨?_, hext.funded h.funded, hext.card_eq, hext.ne_zero h.ne_zero⟩
  rw [htotal] at hbalanced
  simp only at hbalanced
  omega

theorem effect (hC : cfg.currency.Lawful) (h : Solvent cfg s) (heffect : Effect cfg s c s') :
    Solvent cfg s' := by
  cases heffect with
  | @begun bs message required stored id claimId hcleared hinactive hlen hadd hid =>
      -- The table is empty and the total is zero, so they agree.
      have htotal : s.totalClaimable = promised s.beneficiaries := by
        rw [h.total_inactive hinactive, hcleared]
        exact (Finmap.total_empty _).symm
      obtain ⟨hsum, hfunded, hcard, hne⟩ := h.extend hC hadd htotal
      have haccount := account_of_remembers hid
      have hcount : s.count = 0 := by
        rw [State.count, hcleared]
        rfl
      refine ⟨haccount.trans h.account_eq, h.op_le, ?_, hne, fun _ => hsum,
        fun hinactive => Bool.noConfusion hinactive, ?_, fun _ => rfl⟩
      · rw [State.count, hcard, hcount, Nat.zero_add]
        exact hlen.trans h.op_le
      · simpa only [State.available, State.account, haccount] using hfunded
  | @added bs required stored id hactive hlen hadd hid =>
      obtain ⟨hsum, hfunded, hcard, hne⟩ := h.extend hC hadd (h.total_active hactive)
      have haccount := account_of_remembers hid
      refine ⟨haccount.trans h.account_eq, h.op_le, ?_, hne, fun _ => hsum,
        fun hinactive => Bool.noConfusion (hactive.symm.trans hinactive), ?_, h.claimId_active⟩
      · rw [State.count, hcard]
        exact hlen h.count_le
      · simpa only [State.available, State.account, haccount] using hfunded
  | @claimed _ b dest amount chain hclaims hactive hlookup havailable htransfer =>
      have herase : promised (s.beneficiaries.erase b) + amount = promised s.beneficiaries :=
        Finmap.total_erase_of_lookup hlookup
      have htotal := h.total_active hactive
      refine ⟨h.account_eq, h.op_le, ?_, ?_, fun _ => ?_,
        fun hinactive => Bool.noConfusion (hactive.symm.trans hinactive), ?_, h.claimId_active⟩
      · refine Nat.le_trans ?_ h.count_le
        simp only [State.count, Finmap.keys_erase]
        exact Finset.card_erase_le
      · exact Finmap.forall_lookup_erase fun b amount _ => h.ne_zero b amount
      · simp only [htotal]
        omega
      · refine Nat.le_trans (Nat.sub_le_sub_right h.funded amount) ?_
        exact available_of_transfer hC htransfer rfl rfl
  | @ended claimId chain hactive hclaimId hswept =>
      exact ⟨h.account_eq, h.op_le, h.count_le, h.ne_zero,
        fun hactive => Bool.noConfusion hactive, fun _ => rfl, Nat.zero_le _,
        fun hactive => Bool.noConfusion hactive⟩
  | @removed limit events remaining hinactive hremaining hcard hevents =>
      exact ⟨h.account_eq, h.op_le, Nat.le_trans hcard h.count_le,
        fun b amount hb => h.ne_zero b amount (hremaining b amount hb),
        fun hactive => Bool.noConfusion (hactive.symm.trans hinactive), h.total_inactive, h.funded,
        h.claimId_active⟩

/-- A change of the chain that takes nothing from the account. -/
private theorem of_reducible_le (hC : cfg.currency.Lawful) (h : Solvent cfg s) {id : Option A}
    {chain : X} (hid : s.Remembers cfg id)
    (hle : (cfg.currency.book s.chain).reducible cfg.currency.minimumBalance cfg.palletAccount ≤
      (cfg.currency.book chain).reducible cfg.currency.minimumBalance cfg.palletAccount) :
    Solvent cfg { s with palletAccountId := id, chain := chain } := by
  have haccount := (account_of_remembers hid).trans h.account_eq
  refine ⟨haccount, h.op_le, h.count_le, h.ne_zero, h.total_active, h.total_inactive, ?_,
    h.claimId_active⟩
  have hfunded := h.funded
  rw [available_eq hC, h.account_eq] at hfunded
  rw [available_eq hC, State.account, haccount]
  exact hfunded.trans hle

theorem onInitialize (hC : cfg.currency.Lawful) (h : Solvent cfg s) :
    Solvent cfg (onInitialize cfg s) := by
  obtain ⟨chain, heq, hchain⟩ := onInitialize_eq cfg s
  rw [heq]
  refine h.of_reducible_le hC (.inr rfl) ?_
  rcases hchain with rfl | hmint
  · exact le_rfl
  · rw [hC.mint_ok hmint]
    exact Book.reducible_mono (Nat.le_add_right _ _) rfl rfl

theorem environment (hC : cfg.currency.Lawful) (h : Solvent cfg s) (e : Environment cfg) :
    Solvent cfg { s with chain := e.act s.chain } :=
  h.of_reducible_le hC (.inl rfl)
    (Book.reducible_mono (e.free_le s.chain) (e.reserved_eq s.chain) (e.frozen_eq s.chain))

variable {b : Beneficiary A} {amount : ℕ}

theorem amount_le (h : Solvent cfg s) (hactive : s.claimActive = true)
    (hlookup : s.beneficiaries.lookup b = some amount) : amount ≤ s.totalClaimable := by
  rw [h.total_active hactive, promised, ← Finmap.total_erase_of_lookup hlookup]
  exact Nat.le_add_left _ _

/-- No claim finds the pot empty. -/
theorem amount_le_available (h : Solvent cfg s) (hactive : s.claimActive = true)
    (hlookup : s.beneficiaries.lookup b = some amount) : amount ≤ s.available cfg :=
  (h.amount_le hactive hlookup).trans h.funded

/-- The account itself is alive as long as there is something to pay. -/
theorem minimum_le_free (hC : cfg.currency.Lawful) (h : Solvent cfg s)
    (hactive : s.claimActive = true) (hlookup : s.beneficiaries.lookup b = some amount) :
    cfg.currency.minimumBalance ≤ (cfg.currency.book s.chain).free cfg.palletAccount := by
  have havailable := h.amount_le_available hactive hlookup
  have hne := h.ne_zero b amount hlookup
  rw [available_eq hC, h.account_eq, Book.reducible] at havailable
  omega

end Solvent

theorem Solvent.run (hC : cfg.currency.Lawful) (h : Solvent cfg s) (steps : List (Step cfg N)) :
    Solvent cfg (run s steps) :=
  run_induction h (fun _ _ _ h heffect => h.effect hC heffect) (fun _ h => h.onInitialize hC)
    fun _ e h => h.environment hC e

theorem solvent_of_reachable (hC : cfg.currency.Lawful) (hs : Reachable cfg s) : Solvent cfg s := by
  obtain ⟨g, x, s₀, steps, hbuild, rfl⟩ := hs
  exact (Solvent.build hC hbuild).run hC steps

end ZkVerify.TokenClaim
