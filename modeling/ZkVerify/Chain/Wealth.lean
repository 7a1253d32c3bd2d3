import ZkVerify.Aggregate.Wealth
import ZkVerify.Chain.Verified

/-!
# Money on the chain

All pallets work on one currency.  They hold deposits and fees, give them back and pay them out, and
the aggregate pallet is called by the settlement pallets on the way.  `wealth_accounted` says what
becomes of the money in a whole run, as long as nobody else moves any: the wealth of all accounts
changes by a list of transfers, one for each amount that is reserved for a statement that is
published in the run.  Its submitter pays it, at most in full, to the publisher or to the owner of
the delivery, or keeps it.  Nothing is created or lost, and nobody pays for anything else than the
publication of its own statements.
-/

namespace ZkVerify.Chain

open Frame Transfer

variable {A X C T T₁ T₂ : Type}

instance : Fintype RuntimeHoldReason where
  elems := insert .commonVerifiers (Finset.univ.map ⟨.aggregate, Config.Lawful.aggregate_injective⟩)
  complete r := by cases r <;> simp

/-- Deposits are taken from what is free. -/
structure Config.Covered (cfg : Config A X C T T₁ T₂) : Prop where
  vkRegistration : cfg.vkRegistration.Covered cfg.balances
  domain : cfg.considerationDomain.Covered cfg.balances
  allowlist : cfg.considerationAllowList.Covered cfg.balances

/-- What an account owns. -/
def Config.wealth (cfg : Config A X C T T₁ T₂) (x : X) : A → ℕ := (cfg.balances.book x).wealth

variable {cfg : Config A X C T T₁ T₂} {kept : Set RuntimeHoldReason}

theorem Config.Covered.aggregate (hcovered : cfg.Covered) : cfg.aggregate.Covered where
  domain := hcovered.domain.view
  allowlist := hcovered.allowlist.view

/-- The aggregate pallet sees everything but the deposits of the settlement pallets. -/
theorem wealth_eq (x : X) (y : A) :
    cfg.wealth x y = cfg.aggregate.wealth x y + (cfg.balances.book x).held .commonVerifiers y := by
  have hsum : ∑ r, (cfg.balances.book x).held r y =
      (cfg.balances.book x).held .commonVerifiers y +
        ∑ r, (cfg.balances.book x).held (.aggregate r) y := by
    have hnew : RuntimeHoldReason.commonVerifiers ∉
        Finset.univ.map ⟨RuntimeHoldReason.aggregate, Config.Lawful.aggregate_injective⟩ := by
      simp
    exact (Finset.sum_insert hnew).trans (congrArg _ (Finset.sum_map _ _ _))
  have haggregate : cfg.aggregate.wealth x y = (cfg.balances.book x).free y +
      ∑ r, (cfg.balances.book x).held (.aggregate r) y := rfl
  rw [Config.wealth, Book.wealth, hsum, haggregate]
  omega

variable [DecidableEq A]

/-! ## What is due -/

/-- What a step makes due. -/
def Step.dues (s : State A X T T₁ T₂) (step : Step cfg kept) : List (Due A) :=
  match step with
  | .call (.aggregate c _) =>
      Aggregate.dues cfg.aggregate s.aggregate c (exec s step).aggregate
  | _ => []

/-- What the steps of a run make due. -/
def dues (s : State A X T T₁ T₂) : List (Step cfg kept) → List (Due A)
  | [] => []
  | step :: steps => step.dues s ++ dues (exec s step) steps

/-! ## One step -/

/-- The operations of the aggregate pallet on the chain. -/
theorem explained_of_effect (hcfg : cfg.Lawful) (hcovered : cfg.Covered)
    {a a' : AggregateState A X T₁ T₂} (hrep : Aggregate.Represented a) {c : Aggregate.Call A}
    (h : Aggregate.Effect cfg.aggregate a c a') :
    ∃ ts, Covers (Aggregate.dues cfg.aggregate a c a') ts ∧
      Explains ts (cfg.wealth a.chain) (cfg.wealth a'.chain) := by
  obtain ⟨ts, hcovers, hexplains⟩ := h.explained hcfg.aggregate hcovered.aggregate hrep
  refine ⟨ts, hcovers, fun y => ?_⟩
  have hy := hexplains y
  have hkept := congrFun (h.keeps hcfg.keeps) y
  rw [wealth_eq, wealth_eq, hkept]
  omega

/-- A settlement call moves no money between accounts. -/
theorem Touches.wealth (hcfg : cfg.Lawful) (hcovered : cfg.Covered)
    {a a' : AggregateState A X T₁ T₂} (hrep : Aggregate.Represented a) (h : Touches cfg a a') :
    cfg.wealth a'.chain = cfg.wealth a.chain := by
  have hdeposit : cfg.vkRegistration.Keeps cfg.wealth :=
    hcovered.vkRegistration.keeps_wealth hcfg.vkRegistration
  cases h with
  | callback h =>
      obtain ⟨ts, hcovers, hexplains⟩ := explained_of_effect hcfg hcovered hrep
        (Aggregate.effect_of_dispatch (dispatch_callback h))
      obtain rfl : ts = [] := List.forall₂_nil_right_iff.mp hcovers
      exact funext hexplains
  | bought h => exact hdeposit.new h
  | dropped h => exact hdeposit.drop h
  | nothing => rfl

/-- The step does not move money from outside of the pallets. -/
def Step.Quiet (step : Step cfg kept) : Prop :=
  match step with
  | .environment e => ∀ x, cfg.wealth (e.act x) = cfg.wealth x
  | .call _ => True

theorem exec_explained (hcfg : cfg.Lawful) (hcovered : cfg.Covered) {s : State A X T T₁ T₂}
    (hrep : Aggregate.Represented s.aggregate) (step : Step cfg kept) (hquiet : step.Quiet) :
    ∃ ts, Covers (step.dues s) ts ∧
      Explains ts (cfg.wealth s.aggregate.chain) (cfg.wealth (exec s step).aggregate.chain) := by
  cases step with
  | environment e => exact ⟨[], .nil, explains_nil (hquiet _)⟩
  | call c =>
      cases c with
      | settlement k c =>
          refine ⟨[], .nil, explains_nil ?_⟩
          simp only [exec]
          split
          · rename_i v info hok
            exact (touches_of_effect (Verifiers.effect_of_dispatch hok)).wealth hcfg hcovered hrep
          · rfl
      | aggregate c hc =>
          cases hok : Aggregate.dispatch cfg.aggregate c s.aggregate with
          | ok result =>
              have hexec : (exec s (.call (.aggregate c hc) : Step cfg kept)).aggregate =
                  result.1 := by simp only [exec, hok]
              simp only [Step.dues, hexec]
              exact explained_of_effect hcfg hcovered hrep (Aggregate.effect_of_dispatch hok)
          | error e =>
              have hexec : exec s (.call (.aggregate c hc) : Step cfg kept) = s := by
                simp only [exec, hok]
              refine ⟨[], ?_, explains_nil (by rw [hexec])⟩
              simp only [Step.dues, hexec, Aggregate.dues_self]
              exact .nil

/-! ## Runs -/

theorem run_explained (hcfg : cfg.Lawful) (hcovered : cfg.Covered) {s : State A X T T₁ T₂}
    (hs : Reachable cfg kept s) (steps : List (Step cfg kept))
    (hquiet : ∀ step ∈ steps, step.Quiet) :
    ∃ ts, Covers (dues s steps) ts ∧
      Explains ts (cfg.wealth s.aggregate.chain) (cfg.wealth (run s steps).aggregate.chain) := by
  induction steps generalizing s with
  | nil => exact ⟨[], .nil, explains_nil rfl⟩
  | cons step steps ih =>
      obtain ⟨ts, hcovers, hfirst⟩ := exec_explained hcfg hcovered hs.aggregate.represented step
        (hquiet step List.mem_cons_self)
      obtain ⟨us, hcovers', hrest⟩ := ih (hs.exec step)
        fun step' hstep' => hquiet step' (List.mem_cons_of_mem step hstep')
      exact ⟨ts ++ us, hcovers.append hcovers', hfirst.append hrest⟩

/-- Money moves only as fees for statements that are published.  In every run of the chain in which
nobody else moves money, the wealth of all accounts changes by transfers, one for each amount that
is reserved for a published statement: its submitter pays at most this amount, to the publisher, to
the owner of the delivery or to itself.  In particular no account loses more than what was reserved
for its own statements that are published in the run. -/
theorem wealth_accounted (hcfg : cfg.Lawful) (hcovered : cfg.Covered) (x : X)
    (steps : List (Step cfg kept)) (hquiet : ∀ step ∈ steps, step.Quiet) :
    let s₀ : State A X T T₁ T₂ := .genesis x
    let s := run s₀ steps
    (∃ ts, Covers (dues s₀ steps) ts ∧
        Explains ts (cfg.wealth x) (cfg.wealth s.aggregate.chain)) ∧
      ∀ y, cfg.wealth x y ≤ cfg.wealth s.aggregate.chain y + owed y (dues s₀ steps) := by
  intro s₀ s
  have hs : Reachable cfg kept s₀ := ⟨x, [], rfl⟩
  obtain ⟨ts, hcovers, hexplains⟩ : ∃ ts, Covers (dues s₀ steps) ts ∧
      Explains ts (cfg.wealth x) (cfg.wealth s.aggregate.chain) :=
    run_explained hcfg hcovered hs steps hquiet
  refine ⟨⟨ts, hcovers, hexplains⟩, fun y => ?_⟩
  have hy := hexplains y
  have hsent := hcovers.sent_le y
  omega

theorem sampleConfig_covered : sampleConfig.Covered where
  vkRegistration := Book.consideration_covered 1 RuntimeHoldReason.commonVerifiers _
  domain := Book.consideration_covered 1 (RuntimeHoldReason.aggregate .domain) _
  allowlist := Book.consideration_covered 1 (RuntimeHoldReason.aggregate .allowlist) _

theorem wealth_accounted_sample :
    let s₀ : State ℕ (Book ℕ RuntimeHoldReason) ℕ ℕ ℕ := .genesis sampleBook
    let s := run s₀ sampleSteps
    (∃ ts, Covers (dues s₀ sampleSteps) ts ∧
        Explains ts (sampleConfig.wealth sampleBook) (sampleConfig.wealth s.aggregate.chain)) ∧
      ∀ y, sampleConfig.wealth sampleBook y ≤
        sampleConfig.wealth s.aggregate.chain y + owed y (dues s₀ sampleSteps) :=
  wealth_accounted sampleConfig_lawful sampleConfig_covered sampleBook sampleSteps (by
    intro step hstep
    simp only [sampleSteps, List.mem_cons, List.not_mem_nil, or_false] at hstep
    rcases hstep with rfl | rfl | rfl | rfl | rfl <;> exact trivial)

end ZkVerify.Chain
