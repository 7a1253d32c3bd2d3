import ZkVerify.Frame.PerThing

/-!
# The payout of an era

At the end of an era the inflation is divided between the validators and the treasury.  Each
of the two shares is a percentage of the whole inflation, rounded for itself; neither is
the remainder of the other.  `eraPayout_sum` says that the shares never exceed the
inflation, and when they fall short of it.

The inflation is computed with floating point numbers and is a parameter here.
-/

namespace ZkVerify.Payout

open Frame

/-- `ZKVPayout`: the inflation model and the percentage of the validators. -/
structure ZKVPayout where
  /-- `compute_inflation`, of the total stake, the total issuance and the duration of the era. -/
  computeInflation : ℕ → ℕ → ℕ → ℕ
  splitter : Percent

/-- `era_payout`: what the validators get, and the rest. -/
def ZKVPayout.eraPayout (payout : ZKVPayout) (totalStaked totalIssuance eraDurationMillis : ℕ) :
    ℕ × ℕ :=
  let inflationTot := payout.computeInflation totalStaked totalIssuance eraDurationMillis
  let toAuthor := payout.splitter.mul inflationTot
  let other := ((Percent.fromPercent 100).sub payout.splitter).mul inflationTot
  (toAuthor, other)

/-- The two shares of an era never exceed its inflation.  They fall short of it by at most one
unit, exactly where the share of the validators lies in the middle between two integers. -/
theorem eraPayout_sum (payout : ZKVPayout) (totalStaked totalIssuance eraDurationMillis : ℕ) :
    let x := payout.computeInflation totalStaked totalIssuance eraDurationMillis
    let shares := payout.eraPayout totalStaked totalIssuance eraDurationMillis
    shares.1 + shares.2 ≤ x ∧ x ≤ shares.1 + shares.2 + 1 ∧
      (shares.1 + shares.2 + 1 = x ↔ payout.splitter.parts * x % 100 = 50) := by
  intro x shares
  have hwhole : payout.splitter.parts + ((Percent.fromPercent 100).sub payout.splitter).parts =
      100 := Nat.add_sub_of_le payout.splitter.parts_le
  obtain ⟨hle, hge, htie⟩ := PerThing.mul_add_mul (by decide) hwhole x
  refine ⟨hle, hge, htie.trans ?_⟩
  omega

/-- At one percent, half a unit is lost on both sides. -/
example : (ZKVPayout.mk (fun _ _ _ => 50) (.fromPercent 1)).eraPayout 0 0 0 = (0, 49) := by decide

end ZkVerify.Payout
