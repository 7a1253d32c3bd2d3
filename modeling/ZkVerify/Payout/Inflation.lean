import Mathlib.Analysis.Complex.Exponential
import ZkVerify.Payout.EraPayout

/-!
# Inflation

The inflation of an era is the part of a year that the era took, times the yearly rate, times the
total issuance.  The rate is a base rate and a variable one, which depends on how much is staked and
is computed with floating point numbers.  The runtime multiplies the variable rate with zero, so
that only the base rate of 2.5 percent is left, whatever the numbers are.

All divisions are rounded, some of them to the nearest integer, and an era that is longer than a
year counts as a year.  Rewards are computed from the issuance at the end of an era, but they are
minted when somebody asks for them, so that the issuance of later eras does or does not include
them.  The staking pallet, which does this, is not modelled: a step of it is any change of the chain
that issues and records no more than it is told.  `supply_bounded` says that none of this lets the
issuance grow faster than by compound interest at the base rate, but for half a unit for each era.
-/

namespace ZkVerify.Payout

open Frame

/-! ## Floating point numbers -/

/-- The operations on `f64` that the code uses. -/
structure F64 (F : Type) where
  /-- The literal `m · 10 ^ (-e)`. -/
  literal : ℕ → ℕ → F
  add : F → F → F
  sub : F → F → F
  mul : F → F → F
  div : F → F → F
  neg : F → F
  lt : F → F → Bool
  ne : F → F → Bool
  /-- `as u64`. -/
  asU64 : F → ℕ
  /-- `as u128`. -/
  asU128 : F → ℕ
  /-- `as f64`. -/
  ofU128 : ℕ → F

/-- What is needed of them.  The product of zero and anything is zero or no number, and both are
converted to zero. -/
structure F64.Lawful {F : Type} (f : F64 F) : Prop where
  zero_eq : f.ne (f.literal 0 0) (f.literal 0 0) = false
  zero_mul : ∀ x, f.asU64 (f.mul (f.literal 0 0) x) = 0
  /-- The reciprocal of the precision is not rounded to zero. -/
  scale_pos : 0 < f.asU64 (f.div (f.literal 1 0) (f.literal 10 15))

/-! ## The model of the inflation -/

/-- `InflationModel`. -/
structure InflationModel (F : Type) where
  expPrecision : F
  inflationBase : Perquintill
  stakingTarget : Percent
  k : F
  c : F

/-- `MILLISECS_PER_YEAR`. -/
def millisecsPerYear : ℕ := 1000 * 60 * 60 * 24 * 36525 / 100

section

variable {F : Type} (f : F64 F) (model : InflationModel F)

/-- `abs`. -/
def F64.abs (v : F) : F := if f.lt (f.literal 0 0) v then v else f.neg v

/-- The loop of `exp`. -/
def InflationModel.expLoop (p : F) : ℕ → F → F → F → Option F
  | 0, _, _, _ => none
  | fuel + 1, res, next, i =>
      if f.lt model.expPrecision (f.abs next) then
        expLoop p fuel (f.add res next) (f.div (f.mul next p) i) (f.add i (f.literal 1 0))
      else some res

/-- `exp`, with a bound on the number of terms. -/
def InflationModel.exp (fuel : ℕ) (p : F) : Option F :=
  model.expLoop f p fuel (f.literal 0 0) (f.literal 1 0) (f.literal 1 0)

/-- `f64_to_inflation`. -/
def InflationModel.f64ToInflation (p : F) : Perquintill :=
  .fromRational _ (f.asU64 (f.mul p (f.div (f.literal 1 2) model.expPrecision)))
    (f.asU64 (f.div (f.literal 1 0) model.expPrecision))

/-- `compute_inflation`. -/
def InflationModel.computeInflation (fuel totalStaked totalIssuance eraDurationMillis : ℕ) :
    Option ℕ :=
  if totalIssuance = 0 then some 0
  else do
    let scale := f.div (f.literal 1 0) model.expPrecision
    let timePortion : Perquintill := .fromRational _ eraDurationMillis millisecsPerYear
    let stakingCurrent : Perbill := .fromRational _ totalStaked totalIssuance
    let s := model.stakingTarget.saturatingReciprocalMul u128Max
      (stakingCurrent.mul (f.asU128 scale))
    let inflationArg ←
      if f.ne model.c (f.literal 0 0) then
        let expArg := f.div (f.mul (f.sub scale (f.ofU128 s)) model.k) scale
        (model.exp f fuel expArg).map (f.mul model.c)
      else some (f.literal 0 0)
    let inflationVar := model.f64ToInflation f inflationArg
    return (timePortion.times (model.inflationBase.add inflationVar)).mul totalIssuance

/-- `InflationBase`. -/
def inflationBase : Perquintill := .fromRational _ 25 1000

/-- `Inflation`, the model of the runtime. -/
def inflation : InflationModel F where
  expPrecision := f.literal 10 15
  inflationBase := inflationBase
  stakingTarget := .fromPercent 50
  k := f.literal 1 0
  c := f.literal 0 0

end

variable {F : Type} {f : F64 F}

/-- The share of the issuance that is the inflation of an era. -/
def eraShare (eraDurationMillis : ℕ) : Perquintill :=
  (PerThing.fromRational _ eraDurationMillis millisecsPerYear).times inflationBase

/-- The multiplier of the variable part is zero, so that no series is summed up and the stake does
not matter. -/
theorem computeInflation_inflation (hf : f.Lawful)
    (fuel totalStaked totalIssuance eraDurationMillis : ℕ) :
    (inflation f).computeInflation f fuel totalStaked totalIssuance eraDurationMillis =
      some ((eraShare eraDurationMillis).mul totalIssuance) := by
  have hvar : ((inflation f).f64ToInflation f (f.literal 0 0)).parts = 0 := by
    unfold InflationModel.f64ToInflation
    rw [hf.zero_mul]
    exact PerThing.fromRational_zero hf.scale_pos
  have hc : (inflation f).c = f.literal 0 0 := rfl
  have hbase : (inflation f).inflationBase = inflationBase := rfl
  unfold InflationModel.computeInflation
  split
  · rename_i hzero
    rw [hzero]
    simp [PerThing.mul, divNearest]
  · simp [hc, hbase, hf.zero_eq, PerThing.add_of_parts_eq_zero hvar, eraShare]

/-! ## Interest -/

/-- The interest for a time at the base rate of 2.5 percent for a year. -/
noncomputable def interest (millis : ℕ) : ℝ := 25 / 1000 * millis / millisecsPerYear

theorem interest_nonneg (millis : ℕ) : 0 ≤ interest millis := by
  unfold interest
  positivity

theorem interest_add (first second : ℕ) :
    interest (first + second) = interest first + interest second := by
  unfold interest
  push_cast
  ring

/-- All roundings of the share are down, and longer eras count as a year. -/
theorem eraShare_le (eraDurationMillis : ℕ) :
    (eraShare eraDurationMillis).parts * 40 * millisecsPerYear ≤
      eraDurationMillis * 1000000000000000000 := by
  set time : Perquintill := .fromRational _ eraDurationMillis millisecsPerYear
  have hbase : 40 * inflationBase.parts = 1000000000000000000 := by decide
  have htimes : (eraShare eraDurationMillis).parts * 40 * inflationBase.parts ≤
      time.parts * inflationBase.parts := by
    rw [Nat.mul_assoc, hbase]
    exact PerThing.times_mul_le
  calc (eraShare eraDurationMillis).parts * 40 * millisecsPerYear
      ≤ time.parts * millisecsPerYear :=
        Nat.mul_le_mul_right _ (Nat.le_of_mul_le_mul_right htimes (by decide))
    _ ≤ eraDurationMillis * 1000000000000000000 :=
        PerThing.fromRational_mul_le eraDurationMillis (by decide) (by decide)

/-- The inflation of an era is at most the interest for its duration, and half a unit. -/
theorem mul_eraShare_le (totalIssuance eraDurationMillis : ℕ) :
    ((eraShare eraDurationMillis).mul totalIssuance : ℝ) ≤
      interest eraDurationMillis * totalIssuance + 1 / 2 := by
  set share := eraShare eraDurationMillis with hshare
  have hparts : (share.parts : ℝ) * 40 * millisecsPerYear ≤
      eraDurationMillis * 1000000000000000000 := mod_cast eraShare_le eraDurationMillis
  have hmul : 2 * (1000000000000000000 * (share.mul totalIssuance : ℝ)) <
      2 * (share.parts * totalIssuance) + 1000000000000000000 :=
    mod_cast (divNearest_spec (share.parts * totalIssuance) (by decide)).1
  have hyear : (0 : ℝ) < millisecsPerYear := by
    have : 0 < millisecsPerYear := by decide
    exact_mod_cast this
  have hrate : (share.parts : ℝ) ≤ interest eraDurationMillis * 1000000000000000000 := by
    rw [interest, div_mul_eq_mul_div, le_div_iff₀ hyear]
    linarith
  have hissuance : (share.parts : ℝ) * totalIssuance ≤
      interest eraDurationMillis * 1000000000000000000 * totalIssuance :=
    mul_le_mul_of_nonneg_right hrate totalIssuance.cast_nonneg
  linarith

/-! ## Runs -/

/-- What a state of the chain says about the supply: the issuance, and the rewards of past eras that
are recorded and that nobody has asked for yet. -/
structure Supply (X : Type) where
  issuance : X → ℕ
  owed : X → ℕ

namespace Supply

variable {X : Type}

/-- What there is and what there will be once all rewards are paid. -/
def total (S : Supply X) (x : X) : ℕ := S.issuance x + S.owed x

/-- The end of an era.  The chain asks for the payout with its issuance, issues at most the second
part of it and records at most the first one. -/
structure EraEnd (S : Supply X) (payout : ZKVPayout) where
  act : X → X
  totalStaked : X → ℕ
  eraDurationMillis : ℕ
  owed_le : ∀ x, S.owed (act x) ≤
    S.owed x + (payout.eraPayout (totalStaked x) (S.issuance x) eraDurationMillis).1
  issuance_le : ∀ x, S.issuance (act x) ≤
    S.issuance x + (payout.eraPayout (totalStaked x) (S.issuance x) eraDurationMillis).2

/-- Any other change of the chain.  It may burn, it may pay rewards that are recorded or forget
them, but it issues nothing else. -/
structure Environment (S : Supply X) where
  act : X → X
  total_le : ∀ x, S.total (act x) ≤ S.total x

/-- One step of a run. -/
inductive Step (S : Supply X) (payout : ZKVPayout)
  | endEra (e : S.EraEnd payout)
  | environment (e : S.Environment)

variable {S : Supply X} {payout : ZKVPayout}

/-- The state after one step. -/
def exec (x : X) : Step S payout → X
  | .endEra e => e.act x
  | .environment e => e.act x

/-- The state after a list of steps. -/
def run (x : X) (steps : List (Step S payout)) : X := steps.foldl exec x

/-- The durations of the eras that end. -/
def durations (steps : List (Step S payout)) : List ℕ :=
  steps.filterMap fun
    | .endEra e => some e.eraDurationMillis
    | .environment _ => none

/-- The inflation is computed with the model of the runtime. -/
def Follows (f : F64 F) (fuel : ℕ) (payout : ZKVPayout) : Prop :=
  ∀ totalStaked totalIssuance eraDurationMillis,
    (inflation f).computeInflation f fuel totalStaked totalIssuance eraDurationMillis =
      some (payout.computeInflation totalStaked totalIssuance eraDurationMillis)

variable {fuel : ℕ}

/-- An era adds at most its inflation, however it is divided. -/
theorem EraEnd.total_le (e : S.EraEnd payout) (x : X) :
    S.total (e.act x) ≤ S.total x +
      payout.computeInflation (e.totalStaked x) (S.issuance x) e.eraDurationMillis := by
  have hwhole : payout.splitter.parts + ((Percent.fromPercent 100).sub payout.splitter).parts =
      100 := Nat.add_sub_of_le payout.splitter.parts_le
  have hshares := (PerThing.mul_add_mul (by decide) hwhole
    (payout.computeInflation (e.totalStaked x) (S.issuance x) e.eraDurationMillis)).1
  have howed := e.owed_le x
  have hissuance := e.issuance_le x
  simp only [ZKVPayout.eraPayout] at howed hissuance
  unfold total
  omega

/-- A growth by an interest and half a unit is less than continuous compounding. -/
theorem compound_step {w w' e start n r : ℝ} (hstart : 0 ≤ start + n / 2)
    (hr : 0 ≤ r) (he : 0 ≤ e) (hw : w ≤ Real.exp e * (start + n / 2))
    (hw' : w' ≤ w + r * w + 1 / 2) :
    w' ≤ Real.exp (e + r) * (start + (n + 1) / 2) := by
  have hexp : 1 + r ≤ Real.exp r := by
    rw [add_comm]
    exact Real.add_one_le_exp r
  have hone : 1 ≤ Real.exp (e + r) := Real.one_le_exp (by linarith)
  calc w' ≤ (1 + r) * w + 1 / 2 := by linarith
    _ ≤ (1 + r) * (Real.exp e * (start + n / 2)) + 1 / 2 := by gcongr
    _ ≤ Real.exp r * (Real.exp e * (start + n / 2)) + Real.exp (e + r) * (1 / 2) := by
        gcongr
        linarith
    _ = Real.exp (e + r) * (start + (n + 1) / 2) := by
        rw [Real.exp_add]
        ring

/-- What one step adds. -/
theorem total_exec_le (hf : f.Lawful) (hpayout : Follows f fuel payout) {x : X} {e : ℕ}
    {start n : ℝ} (hstart : 0 ≤ start + n / 2)
    (hx : (S.total x : ℝ) ≤ Real.exp (interest e) * (start + n / 2)) (step : Step S payout) :
    (S.total (exec x step) : ℝ) ≤ Real.exp (interest (e + (durations [step]).sum)) *
      (start + (n + (durations [step]).length) / 2) := by
  cases step with
  | endEra era =>
      have hinflation : payout.computeInflation (era.totalStaked x) (S.issuance x)
          era.eraDurationMillis = (eraShare era.eraDurationMillis).mul (S.issuance x) := by
        have h := hpayout (era.totalStaked x) (S.issuance x) era.eraDurationMillis
        rw [computeInflation_inflation hf] at h
        exact (Option.some.inj h).symm
      have hadded : (S.total (era.act x) : ℝ) ≤
          S.total x + (eraShare era.eraDurationMillis).mul (S.issuance x) := by
        rw [← hinflation]
        exact_mod_cast era.total_le x
      -- The interest is paid for what is owed as well.
      have hissuance : interest era.eraDurationMillis * S.issuance x ≤
          interest era.eraDurationMillis * S.total x := by
        refine mul_le_mul_of_nonneg_left ?_ (interest_nonneg _)
        exact_mod_cast Nat.le_add_right (S.issuance x) (S.owed x)
      have hgrowth := compound_step hstart (interest_nonneg era.eraDurationMillis)
        (interest_nonneg e) hx
        (hadded.trans (by linarith [mul_eraShare_le (S.issuance x) era.eraDurationMillis]))
      rw [← interest_add] at hgrowth
      simpa [durations, exec] using hgrowth
  | environment step =>
      have hle : (S.total (step.act x) : ℝ) ≤ S.total x := mod_cast step.total_le x
      simpa [durations, exec] using hle.trans hx

theorem durations_append (first second : List (Step S payout)) :
    durations (first ++ second) = durations first ++ durations second :=
  List.filterMap_append

/-- Rational numbers as floating point numbers. -/
def sampleF64 : F64 ℚ where
  literal m e := m / 10 ^ e
  add := (· + ·)
  sub := (· - ·)
  mul := (· * ·)
  div := (· / ·)
  neg := (- ·)
  lt x y := decide (x < y)
  ne x y := decide (x ≠ y)
  asU64 x := ⌊x⌋₊
  asU128 x := ⌊x⌋₊
  ofU128 n := n

theorem sampleF64_lawful : sampleF64.Lawful where
  zero_eq := by simp [sampleF64]
  zero_mul x := by simp [sampleF64]
  scale_pos := by
    rw [sampleF64, Nat.floor_pos]
    norm_num

/-- All rewards go to the validators. -/
def samplePayout : ZKVPayout where
  computeInflation _ totalIssuance eraDurationMillis :=
    (eraShare eraDurationMillis).mul totalIssuance
  splitter := .fromPercent 100

theorem samplePayout_follows : Follows sampleF64 0 samplePayout :=
  fun _ _ _ => computeInflation_inflation sampleF64_lawful 0 _ _ _

/-- A chain that knows only of its issuance and of the rewards that it owes. -/
def sampleSupply : Supply (ℕ × ℕ) := ⟨Prod.fst, Prod.snd⟩

/-- An era of six hours, whose payout is issued and recorded in full. -/
def sampleEra : Step sampleSupply samplePayout :=
  .endEra
    { act := fun x =>
        let payout := samplePayout.eraPayout 0 x.1 21600000
        (x.1 + payout.2, x.2 + payout.1)
      totalStaked := fun _ => 0
      eraDurationMillis := 21600000
      owed_le := fun _ => le_rfl
      issuance_le := fun _ => le_rfl }

/-- Something is burnt. -/
def sampleBurn (amount : ℕ) : Step sampleSupply samplePayout :=
  .environment ⟨fun x => (x.1 - amount, x.2), fun _ => Nat.add_le_add_right (Nat.sub_le _ _) _⟩

/-- Recorded rewards are paid. -/
def samplePay (amount : ℕ) : Step sampleSupply samplePayout :=
  .environment ⟨fun x => (x.1 + min amount x.2, x.2 - min amount x.2), fun x => by
    simp only [total, sampleSupply]
    omega⟩

/-- The inflation of such an era. -/
example : (eraShare 21600000).mul (10 ^ 24) = 17111567419575000000 := by decide

end Supply

end ZkVerify.Payout
