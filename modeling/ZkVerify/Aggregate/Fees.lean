import ZkVerify.Aggregate.Acceptance
import ZkVerify.Aggregate.Authority

/-!
# What a statement pays

A statement pays its share of two sums, rounded down: of the estimated fee of the
publication with the tip of the publisher, and of the delivery fee with the tip of the
delivery owner.  The first sum saturates.  The second is a plain `u128` sum of two amounts
that the owner chooses and nothing bounds, so it can wrap around, and then the statements
pay next to nothing for the delivery.

`reserves_exact_iff` says that the delivery share is the right one exactly if the sum fits,
and that then `n` statements pay the sum up to less than `n`.
-/

namespace ZkVerify.Aggregate

open Frame DomainEntry

variable {A X T₁ T₂ : Type} {S M : ℕ}

/-! ## Shares -/

/-- A share of a sum that wrapped around is too small. -/
theorem wrappingAdd_div_eq_iff {n : ℕ} (hpos : 0 < n) (hle : n ≤ u128Max) (fee tip : ℕ) :
    wrappingAdd u128Max fee tip / n = (fee + tip) / n ↔ fee + tip ≤ u128Max := by
  unfold wrappingAdd
  constructor
  · intro heq
    by_contra hwraps
    -- At least one whole word is lost, and a word is at least one share.
    have hlost : (fee + tip) % (u128Max + 1) + n ≤ fee + tip := by
      have hmod := Nat.mod_add_div (fee + tip) (u128Max + 1)
      have hquotient : 1 ≤ (fee + tip) / (u128Max + 1) :=
        (Nat.one_le_div_iff (Nat.succ_pos _)).mpr (by omega)
      have hword : u128Max + 1 ≤ (u128Max + 1) * ((fee + tip) / (u128Max + 1)) :=
        Nat.le_mul_of_pos_right _ hquotient
      omega
    have hshare : (fee + tip) % (u128Max + 1) / n + 1 ≤ (fee + tip) / n := by
      calc (fee + tip) % (u128Max + 1) / n + 1
          = ((fee + tip) % (u128Max + 1) + n) / n := (Nat.add_div_right _ hpos).symm
        _ ≤ (fee + tip) / n := Nat.div_le_div_right hlost
    omega
  · intro hfits
    rw [Nat.mod_eq_of_lt (Nat.lt_succ_of_le hfits)]

/-- The shares of `n` statements add up to the sum, up to less than `n`, exactly if the sum does not
wrap around. -/
theorem shares_bound_iff {n : ℕ} (hpos : 0 < n) (hle : n ≤ u128Max) (fee tip : ℕ) :
    fee + tip < n * (wrappingAdd u128Max fee tip / n) + n ∧
        n * (wrappingAdd u128Max fee tip / n) ≤ fee + tip ↔
      fee + tip ≤ u128Max := by
  rw [← wrappingAdd_div_eq_iff hpos hle fee tip]
  constructor
  · rintro ⟨hlower, hupper⟩
    refine (Nat.div_eq_of_lt_le ?_ ?_).symm
    · rwa [Nat.mul_comm]
    · rwa [Nat.succ_mul, Nat.mul_comm]
  · intro heq
    have hdivision := Nat.div_add_mod (fee + tip) n
    have hremainder := Nat.mod_lt (fee + tip) hpos
    rw [heq]
    omega

/-! ## The pending statements of a call -/

/-- The statements that are pending in the aggregation `a` of the domain `d`. -/
def State.pendingEntries (s : State A X T₁ T₂ S M) (d a : ℕ) : List (StatementEntry A) :=
  (s.domains.lookup d).elim [] fun D => D.pendingEntries a

theorem State.pendingEntries_of_lookup {s : State A X T₁ T₂ S M} {d : ℕ}
    {D : DomainEntry A T₁ T₂ S M} (h : s.domains.lookup d = some D) (a : ℕ) :
    s.pendingEntries d a = D.pendingEntries a := by
  rw [State.pendingEntries, h, Option.elim_some]

theorem DomainEntry.pendingEntries_congr {D D' : DomainEntry A T₁ T₂ S M}
    (hnext : D'.next = D.next) (hqueue : D'.shouldPublish = D.shouldPublish) (a : ℕ) :
    D'.pendingEntries a = D.pendingEntries a := by
  rw [pendingEntries, hnext, hqueue, pendingEntries]

/-- Publishing removes the statements of one aggregation. -/
theorem DomainEntry.Retired.pendingEntries {D D' : DomainEntry A T₁ T₂ S M} {a : ℕ}
    {rows : Finset (ℕ × A)} (h : D.Retired D' a rows) (k : ℕ) :
    D'.pendingEntries k = D.pendingEntries k ∨ D'.pendingEntries k = [] := by
  have hnext := h.next
  have hqueue := h.queue k
  unfold DomainEntry.pendingEntries
  by_cases hid : D.next.id = a
  · -- The next aggregation is empty now, and its id is not in the queue.
    rw [if_pos hid] at hnext
    by_cases hk : D'.next.id = k
    · right
      rw [if_pos hk, hnext]
      rfl
    · rw [if_neg hk, hqueue]
      by_cases ha : k = a
      · right
        rw [if_pos ha, Option.elim_none]
      · left
        rw [if_neg ha, if_neg (by omega)]
  · rw [if_neg hid] at hnext
    rw [hnext]
    by_cases hk : D.next.id = k
    · left
      rw [if_pos hk, if_pos hk]
    · rw [if_neg hk, if_neg hk, hqueue]
      by_cases ha : k = a
      · right
        rw [if_pos ha, Option.elim_none]
      · left
        rw [if_neg ha]

variable [DecidableEq A] {cfg : Config A X T₁ T₂} {kept : Set HoldReason}
  {s s' : State A X T₁ T₂ S M} {c : Call A}

/-- A call keeps the pending statements of an aggregation, removes them all or appends one, which
pays the fees of the moment. -/
theorem effect_pendingEntries (hrep : Represented s) (hids : IdsBounded s)
    (heffect : Effect cfg s c s') (d a : ℕ) :
    (s'.pendingEntries d a = s.pendingEntries d a ∨ s'.pendingEntries d a = []) ∨
      ∃ D account statement, s.domains.lookup d = some D ∧
        s'.pendingEntries d a =
          s.pendingEntries d a ++ [⟨account, D.feeReserve cfg s.chain, statement⟩] := by
  have hinsert : ∀ {d₁ : ℕ} {D₁ D₁' : DomainEntry A T₁ T₂ S M}, s.domains.lookup d₁ = some D₁ →
      s'.domains = s.domains.insert d₁ D₁' →
      (D₁'.pendingEntries a = D₁.pendingEntries a ∨ D₁'.pendingEntries a = []) →
        s'.pendingEntries d a = s.pendingEntries d a ∨ s'.pendingEntries d a = [] := by
    intro d₁ D₁ D₁' hlookup hdomains hentries
    unfold State.pendingEntries
    rw [hdomains]
    by_cases hd : d = d₁
    · subst hd
      rwa [Finmap.lookup_insert, hlookup]
    · left
      rw [Finmap.lookup_insert_of_ne _ hd]
  cases heffect with
  | skipped | initialized => exact .inl (.inl rfl)
  | @accepted account d₁ statement D₁ D₁' reserve events x hlookup hready hroom _ hreserve
      haccept =>
      have hentries :=
        acceptStatement_pendingEntries (hrep.wf _ _ hlookup) hready hroom haccept a
      obtain ⟨rfl, -⟩ := reserveCurrency_reserve hreserve
      by_cases ha : a = D₁.next.id
      · by_cases hd : d = d₁
        · subst hd
          rw [if_pos ha] at hentries
          refine .inr ⟨D₁, account, statement, hlookup, ?_⟩
          rw [State.pendingEntries_of_lookup hlookup, ← hentries]
          exact State.pendingEntries_of_lookup (Finmap.lookup_insert _) a
        · refine .inl (.inl ?_)
          unfold State.pendingEntries
          rw [Finmap.lookup_insert_of_ne _ hd]
      · rw [if_neg ha] at hentries
        exact .inl (hinsert hlookup rfl (.inl hentries))
  | aggregated _ hlookup htake =>
      have hretired := retired_of_takeAggregation s.submittersAllowlist (hrep.wf _ _ hlookup)
        (hids _ _ hlookup) htake
      exact .inl (hinsert hlookup rfl (hretired.pendingEntries a))
  | registered _ _ _ _ _ hcreate =>
      obtain ⟨-, rfl⟩ := tryCreate_ok hcreate
      left
      unfold State.pendingEntries
      by_cases hd : d = s.nextDomainId
      · right
        rw [hd, Finmap.lookup_insert]
        simp [DomainEntry.pendingEntries]
      · left
        rw [Finmap.lookup_insert_of_ne _ hd]
  | held _ hlookup => exact .inl (hinsert hlookup rfl (.inl (pendingEntries_congr rfl rfl a)))
  | @unregistered _ d₁ =>
      left
      unfold State.pendingEntries
      by_cases hd : d = d₁
      · right
        rw [hd, Finmap.lookup_erase, Option.elim_none]
      · left
        rw [Finmap.lookup_erase_ne hd]
  | feeSet _ hlookup => exact .inl (hinsert hlookup rfl (.inl (pendingEntries_congr rfl rfl a)))
  | allowlisted _ hlookup _ _ _ hcount =>
      refine .inl (hinsert hlookup rfl (.inl ?_))
      rw [changeFootprintCount_frame hcount]
      exact pendingEntries_congr rfl rfl a
  | submittersRemoved _ hlookup _ _ _ hcount =>
      refine .inl (hinsert hlookup rfl (.inl ?_))
      rw [pendingEntries_congr (handleHoldState_next _ _) (handleHoldState_shouldPublish _ _),
        changeFootprintCount_frame hcount]
      exact pendingEntries_congr rfl rfl a

/-! ## Runs -/

/-- Whenever a step of the run adds a statement to the aggregation `a` of the domain `d`, the prices
of the domain are `fee` and `tip`. -/
def PricesWhileFilled (s : State A X T₁ T₂ S M) (steps : List (Step cfg kept))
    (d a fee tip : ℕ) : Prop :=
  ∀ first step last D, steps = first ++ step :: last →
    ((run s first).pendingEntries d a).length <
      ((exec (run s first) step).pendingEntries d a).length →
    (run s first).domains.lookup d = some D →
      D.delivery.data.fee = fee ∧ D.delivery.data.ownerTip = tip

/-- The statements of the aggregation `a` of the domain `d` reserved a share of `total` for the
delivery. -/
def DeliveryShares (s : State A X T₁ T₂ S M) (d a total : ℕ) : Prop :=
  ∀ D, s.domains.lookup d = some D → ∀ entry ∈ s.pendingEntries d a,
    entry.reserve.delivery = total / D.maxAggregationSize

/-- A step keeps the shares if it adds no statement at other prices. -/
theorem DeliveryShares.exec {d a fee tip : ℕ} {step : Step cfg kept} (hrep : Represented s)
    (hids : IdsBounded s) (h : DeliveryShares s d a (wrappingAdd u128Max fee tip))
    (hprices : ∀ D, (s.pendingEntries d a).length < ((exec s step).pendingEntries d a).length →
      s.domains.lookup d = some D → D.delivery.data.fee = fee ∧ D.delivery.data.ownerTip = tip) :
    DeliveryShares (exec s step) d a (wrappingAdd u128Max fee tip) := by
  cases step with
  | environment e => exact h
  | call c =>
      simp only [Aggregate.exec] at hprices ⊢
      split
      · rename_i s' info hok
        simp only [hok] at hprices
        have heffect := effect_of_dispatch hok
        intro D' hlookup' entry hmem
        rcases effect_pendingEntries hrep hids heffect d a with
          (hsame | hempty) | ⟨D, account, statement, hlookup, hadded⟩
        · rw [hsame] at hmem
          cases hlookup : s.domains.lookup d with
          | none => simp [State.pendingEntries, hlookup] at hmem
          | some D =>
              have hfixed := effect_fixed hrep heffect hlookup hlookup'
              rw [hfixed.maxAggregationSize]
              exact h D hlookup entry hmem
        · rw [hempty] at hmem
          cases hmem
        · have hfixed := effect_fixed hrep heffect hlookup hlookup'
          rw [hfixed.maxAggregationSize]
          rw [hadded] at hmem hprices
          rcases List.mem_append.mp hmem with hmem | hmem
          · exact h D hlookup entry hmem
          · obtain rfl := List.mem_singleton.mp hmem
            obtain ⟨rfl, rfl⟩ := hprices D (by simp) hlookup
            show D.delivery.totalFee / D.next.size = _
            rw [(hrep.wf d D hlookup).next_size]
            rfl
      · exact h

theorem deliveryShares_run {d a fee tip : ℕ} (hrep : Represented s) (hids : IdsBounded s)
    (h : DeliveryShares s d a (wrappingAdd u128Max fee tip)) {steps : List (Step cfg kept)}
    (hprices : PricesWhileFilled s steps d a fee tip) :
    DeliveryShares (run s steps) d a (wrappingAdd u128Max fee tip) := by
  induction steps generalizing s with
  | nil => exact h
  | cons step steps ih =>
      apply ih
      · exact represented_run hrep [step]
      · exact idsBounded_run hrep hids [step]
      · apply h.exec hrep hids
        intro D hgrows hlookup
        exact hprices [] step steps D rfl hgrows hlookup
      · intro first step' last D hsplit hgrows hlookup
        subst hsplit
        exact hprices (step :: first) step' last D rfl hgrows hlookup

/-! ## Prices that fit -/

/-- The fee and the tip that a call sets fit a word together. -/
def Call.pricesFit : Call A → Bool
  | .registerDomain _ _ _ _ _ delivery _ => decide (delivery.fee + delivery.ownerTip ≤ u128Max)
  | .setTotalDeliveryFee _ _ fee ownerTip => decide (fee + ownerTip ≤ u128Max)
  | _ => true

/-- The prices of all stored domains fit. -/
def PricesFit (s : State A X T₁ T₂ S M) : Prop :=
  ∀ d D, s.domains.lookup d = some D →
    D.delivery.data.fee + D.delivery.data.ownerTip ≤ u128Max

theorem PricesFit.effect (hrep : Represented s) (h : PricesFit s) (heffect : Effect cfg s c s')
    (hcall : c.pricesFit = true) : PricesFit s' := by
  intro d D' hlookup'
  cases stored_of_effect hrep heffect hlookup' with
  | kept D hlookup hupdated =>
      have hfits := h d D hlookup
      cases hupdated with
      | moved hmoved => rwa [hmoved.delivery]
      | repriced _ _ fee ownerTip hsets hdelivery =>
          subst hsets hdelivery
          exact of_decide_eq_true hcall
      | recounted ticket hmoved => rwa [hmoved.delivery]
  | registered hregisters _ _ _ hcreate =>
      obtain ⟨-, rfl⟩ := tryCreate_ok hcreate
      subst hregisters
      exact of_decide_eq_true hcall

theorem pricesFit_run (hrep : Represented s) (h : PricesFit s) (steps : List (Step cfg kept))
    (hsteps : ∀ c, .call c ∈ steps → c.pricesFit = true) : PricesFit (run s steps) := by
  apply effect_induction hrep h
  · intro s c s' hmem hrep h heffect
    exact h.effect hrep heffect (hsteps c hmem)
  · intro s e h
    exact h

/-! ## Exact reserves -/

/-- After every run, an accepted statement reserves its share of the capped sum for the publication,
and its share of the delivery price exactly if that fits a word.  If the prices are the same for all
statements of a complete aggregation, the shares add up to the price, up to less than their number,
under the same condition.  In a run that sets only prices that fit, it always holds. -/
theorem reserves_exact_iff (hS : S ≤ u32Max) (x : X) (steps : List (Step cfg kept)) :
    let s : State A X T₁ T₂ S M := run (.genesis x) steps
    (∀ account d statement s' D a entry, s.domains.lookup d = some D →
      onProofVerified cfg (some account) (some d) statement s = .ok s' →
      s'.pendingEntries d a = s.pendingEntries d a ++ [entry] →
        let estimated := estimatePublishAggregationFee cfg D.maxAggregationSize s.chain
        entry.reserve.aggregate =
            min (estimated + (cfg.computePublisherTip estimated).getD 0) u128Max /
              D.maxAggregationSize ∧
          (entry.reserve.delivery =
              (D.delivery.data.fee + D.delivery.data.ownerTip) / D.maxAggregationSize ↔
            D.delivery.data.fee + D.delivery.data.ownerTip ≤ u128Max)) ∧
      (∀ d a fee tip D aggregation, s.domains.lookup d = some D →
        D.shouldPublish.get a = some aggregation →
        PricesWhileFilled (.genesis x : State A X T₁ T₂ S M) steps d a fee tip →
          let total := (aggregation.statements.toList.map fun entry => entry.reserve.delivery).sum
          (fee + tip < total + D.maxAggregationSize ∧ total ≤ fee + tip ↔
            fee + tip ≤ u128Max)) ∧
      ((∀ c, .call c ∈ steps → c.pricesFit = true) → ∀ d D, s.domains.lookup d = some D →
        D.delivery.data.fee + D.delivery.data.ownerTip ≤ u128Max) := by
  intro s
  have hrep : Represented s := represented_run (Represented.genesis x) steps
  have hids : IdsBounded s :=
    idsBounded_run (Represented.genesis x) (IdsBounded.genesis x) steps
  have hword : u32Max ≤ u128Max := by decide
  refine ⟨?_, ?_, ?_⟩
  · intro account d statement s' D a entry hlookup hok happend estimated
    have hwf := hrep.wf d D hlookup
    have hdispatch : dispatch cfg (.onProofVerified (some account) (some d) statement) s =
        .ok (s', .default) := by
      simp only [dispatch, hok, unwind_ok, ok_bind]
      rfl
    have hentry : entry.reserve = D.feeReserve cfg s.chain := by
      rcases effect_pendingEntries hrep hids (effect_of_dispatch hdispatch) d a with
        (hsame | hempty) | ⟨D₁, account₁, statement₁, hlookup₁, hadded⟩
      · simp [happend] at hsame
      · simp [happend] at hempty
      · rw [hlookup] at hlookup₁
        cases hlookup₁
        rw [happend] at hadded
        rw [List.singleton_inj.mp (List.append_cancel_left hadded)]
    rw [hentry, ← wrappingAdd_div_eq_iff hwf.size_pos
      (hwf.size_le.trans (hS.trans hword)) D.delivery.data.fee D.delivery.data.ownerTip]
    simp only [feeReserve, hwf.next_size]
    exact ⟨rfl, Iff.rfl⟩
  · intro d a fee tip D aggregation hlookup hget hprices total
    have hwf := hrep.wf d D hlookup
    have hshares : DeliveryShares s d a (wrappingAdd u128Max fee tip) := by
      refine deliveryShares_run (Represented.genesis x) (IdsBounded.genesis x) ?_ hprices
      intro D₁ hlookup₁
      simp [State.genesis] at hlookup₁
    have hentries : s.pendingEntries d a = aggregation.statements.toList := by
      have hid : D.next.id ≠ a := by
        rintro rfl
        simp [hwf.get_next_id] at hget
      rw [State.pendingEntries_of_lookup hlookup, DomainEntry.pendingEntries, if_neg hid, hget,
        Option.elim_some]
    have htotal : total =
        D.maxAggregationSize * (wrappingAdd u128Max fee tip / D.maxAggregationSize) := by
      have hsum : total =
          (aggregation.statements.toList.map fun entry => entry.reserve.delivery).length •
            (wrappingAdd u128Max fee tip / D.maxAggregationSize) := by
        apply List.sum_eq_card_nsmul
        intro share hmem
        obtain ⟨entry, hentry, rfl⟩ := List.mem_map.mp hmem
        exact hshares D hlookup entry (hentries ▸ hentry)
      rw [hsum, List.length_map, (hwf.queued a aggregation hget).2.2.2]
      rfl
    rw [htotal]
    exact shares_bound_iff hwf.size_pos (hwf.size_le.trans (hS.trans hword)) fee tip
  · intro hsteps
    refine pricesFit_run (Represented.genesis x) ?_ steps hsteps
    intro d D hlookup
    simp [State.genesis] at hlookup

theorem reserves_exact_sample :
    let s : State ℕ (Book ℕ HoldReason) ℕ ℕ 4 2 := run (.genesis sampleBook) sampleOpenDomain
    ∃ s' D entry, s.domains.lookup 0 = some D ∧
      onProofVerified sampleConfig (some 1) (some 0) (Vector.replicate 32 0) s = .ok s' ∧
      s'.pendingEntries 0 1 = s.pendingEntries 0 1 ++ [entry] ∧
      entry.reserve.delivery =
        (D.delivery.data.fee + D.delivery.data.ownerTip) / D.maxAggregationSize := by
  have hexact := (reserves_exact_iff (S := 4) (M := 2) (by decide) sampleBook sampleOpenDomain).1
  refine ⟨_, _, ⟨1, ⟨10, 7⟩, Vector.replicate 32 0⟩, rfl, rfl, ?_, ?_⟩
  · rfl
  · apply (hexact 1 0 (Vector.replicate 32 0) _ _ 1 _ rfl rfl rfl).2.mpr
    decide

/-- A domain whose delivery fee and tip do not fit a word together. -/
def sampleWrapping : List (Step sampleConfig ∅) :=
  [.call (.registerDomain .root 2 none .untrusted .untrusted ⟨.none, u128Max, 1⟩ (some 7))]

/-- An accepted statement reserves nothing for a delivery whose price is not zero. -/
theorem delivery_reserve_wraps :
    let s : State ℕ (Book ℕ HoldReason) ℕ ℕ 4 2 := run (.genesis sampleBook) sampleWrapping
    ∃ s' D entry, s.domains.lookup 0 = some D ∧
      onProofVerified sampleConfig (some 1) (some 0) (Vector.replicate 32 0) s = .ok s' ∧
      s'.pendingEntries 0 1 = s.pendingEntries 0 1 ++ [entry] ∧ entry.reserve.delivery = 0 ∧
      (D.delivery.data.fee + D.delivery.data.ownerTip) / D.maxAggregationSize = 2 ^ 127 := by
  refine ⟨_, _, ⟨1, ⟨10, 0⟩, Vector.replicate 32 0⟩, rfl, rfl, ?_, rfl, ?_⟩
  · rfl
  · rfl

end ZkVerify.Aggregate
