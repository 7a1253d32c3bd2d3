import ZkVerify.Frame.Prelude

/-!
# Parts of a whole

A share is given as a number of parts of a whole, of a hundred for a `Percent`.  A share of
an amount is rounded to the nearest integer, and a tie is rounded down.

Two shares that make up the whole are rounded independently of each other.
`PerThing.mul_add_mul` says what they miss together: one unit exactly where both are ties,
and nothing otherwise.
-/

namespace Frame

/-! ## Rounding to the nearest integer -/

/-- `a / n`, rounded to the nearest integer with ties rounded down. -/
def divNearest (a n : ℕ) : ℕ := if n < 2 * (a % n) then a / n + 1 else a / n

variable {a b n x : ℕ}

/-- The error is at most one half, exactly one half at a tie, and more than minus one half. -/
theorem divNearest_spec (a : ℕ) (hn : 0 < n) :
    2 * (n * divNearest a n) < 2 * a + n ∧ 2 * a ≤ 2 * (n * divNearest a n) + n ∧
      (2 * a = 2 * (n * divNearest a n) + n ↔ 2 * (a % n) = n) := by
  have hdiv := Nat.div_add_mod a n
  have hmod := Nat.mod_lt a hn
  unfold divNearest
  split
  · rw [Nat.mul_succ]
    omega
  · omega

theorem divNearest_mul_right (hn : 0 < n) : divNearest (a * n) n = a := by
  rw [divNearest, Nat.mul_mod_left, if_neg (by omega), Nat.mul_div_cancel a hn]

/-- Two amounts that add up to a multiple of `n` miss at most one unit after rounding, and they
miss it exactly at a tie. -/
theorem divNearest_add_divNearest (hn : 0 < n) (h : a + b = n * x) :
    divNearest a n + divNearest b n ≤ x ∧ x ≤ divNearest a n + divNearest b n + 1 ∧
      (divNearest a n + divNearest b n + 1 = x ↔ 2 * (a % n) = n) := by
  obtain ⟨ha, ha', htie⟩ := divNearest_spec a hn
  obtain ⟨hb, hb', -⟩ := divNearest_spec b hn
  have hsum : n * (divNearest a n + divNearest b n) = n * divNearest a n + n * divNearest b n :=
    Nat.mul_add _ _ _
  have hsucc : n * (divNearest a n + divNearest b n + 1) =
      n * (divNearest a n + divNearest b n) + n := Nat.mul_succ _ _
  refine ⟨?_, ?_, ?_⟩
  · -- Both errors together are less than one unit.
    have hlt : n * (divNearest a n + divNearest b n) < n * (x + 1) := by
      rw [Nat.mul_succ]
      omega
    exact Nat.lt_succ_iff.mp (Nat.lt_of_mul_lt_mul_left hlt)
  · apply Nat.le_of_mul_le_mul_left _ hn
    omega
  · rw [← htie]
    constructor
    · -- A whole unit is missing only if both errors are one half.
      intro heq
      rw [← heq] at h
      omega
    · -- The first amount loses one half, and the second one wins less than that.
      intro hhalf
      have hlt : n * (divNearest a n + divNearest b n) < n * x := by omega
      have hle : n * x ≤ n * (divNearest a n + divNearest b n + 1) := by omega
      exact le_antisymm (Nat.lt_of_mul_lt_mul_left hlt) (Nat.le_of_mul_le_mul_left hle hn)

/-! ## Shares -/

/-- A share of at most `n` parts of `n`. -/
structure PerThing (n : ℕ) where
  parts : ℕ
  parts_le : parts ≤ n
deriving DecidableEq

/-- `Percent`. -/
abbrev Percent := PerThing 100

/-- `Percent::from_percent`. -/
def Percent.fromPercent (x : ℕ) : Percent := ⟨min x 100, min_le_right x 100⟩

/-- `Permill`. -/
abbrev Permill := PerThing 1000000

/-- `Perbill`. -/
abbrev Perbill := PerThing 1000000000

/-- `Perquintill`. -/
abbrev Perquintill := PerThing 1000000000000000000

namespace PerThing

variable (p q : PerThing n)

/-- `from_rational`, rounded down; the whole if `b` is not a positive number of at least `a`.  For
large numbers both are divided by a common factor at first. -/
def fromRational (n a b : ℕ) : PerThing n :=
  if h : 0 < b ∧ a ≤ b then
    let factor := max 1 ((b + n - 1) / n)
    ⟨a / factor * n / (b / factor),
      Nat.div_le_of_le_mul (Nat.mul_le_mul_right n (Nat.div_le_div_right h.2))⟩
  else ⟨n, le_rfl⟩

/-- `+` on shares. -/
def add : PerThing n := ⟨min (p.parts + q.parts) n, min_le_right _ _⟩

/-- `-` on shares. -/
def sub : PerThing n := ⟨p.parts - q.parts, Nat.le_trans (Nat.sub_le _ _) p.parts_le⟩

/-- `*`: a share of an amount. -/
def mul (x : ℕ) : ℕ := divNearest (p.parts * x) n

/-- `mul_floor`: a share of an amount, rounded down. -/
def mulFloor (x : ℕ) : ℕ := p.parts * x / n

/-- `*` of two shares, rounded down. -/
def times : PerThing n :=
  ⟨p.parts * q.parts / n, Nat.div_le_of_le_mul (Nat.mul_le_mul p.parts_le q.parts_le)⟩

/-- `saturating_reciprocal_mul` of a share that is not zero, at most `bound`: rounded to the nearest
integer, ties up. -/
def saturatingReciprocalMul (bound x : ℕ) : ℕ := min bound ((2 * (x * n) + p.parts) / (2 * p.parts))

variable {p q}

theorem fromRational_zero (hb : 0 < b) : (fromRational n 0 b).parts = 0 := by
  simp [fromRational, hb]

/-- As long as the denominator is at most the number of parts, nothing is divided beforehand. -/
theorem fromRational_mul_le (a : ℕ) (hb : 0 < b) (hbn : b ≤ n) :
    (fromRational n a b).parts * b ≤ a * n := by
  have hfactor : max 1 ((b + n - 1) / n) = 1 := by
    refine max_eq_left (Nat.lt_succ_iff.mp ?_)
    rw [Nat.div_lt_iff_lt_mul (by omega)]
    omega
  unfold fromRational
  split
  · simp only [hfactor, Nat.div_one]
    exact Nat.div_mul_le_self _ _
  · rw [Nat.mul_comm]
    exact Nat.mul_le_mul_right n (by omega)

theorem add_of_parts_eq_zero (hq : q.parts = 0) : p.add q = p := by
  cases p with
  | mk parts parts_le => simp [add, hq, parts_le]

theorem times_mul_le : (p.times q).parts * n ≤ p.parts * q.parts := Nat.div_mul_le_self _ _

/-- A share of as many units as there are parts is not rounded. -/
theorem mul_whole (hn : 0 < n) : p.mul n = p.parts := divNearest_mul_right hn

/-- Two shares that make up the whole miss at most one unit, and they miss it exactly at a tie. -/
theorem mul_add_mul (hn : 0 < n) (hwhole : p.parts + q.parts = n) (x : ℕ) :
    p.mul x + q.mul x ≤ x ∧ x ≤ p.mul x + q.mul x + 1 ∧
      (p.mul x + q.mul x + 1 = x ↔ 2 * (p.parts * x % n) = n) := by
  apply divNearest_add_divNearest hn
  rw [← Nat.add_mul, hwhole]

end PerThing

end Frame
