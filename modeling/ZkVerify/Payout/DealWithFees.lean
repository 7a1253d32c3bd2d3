import ZkVerify.Frame.Credit
import ZkVerify.Frame.PerThing

/-!
# What becomes of a fee

A fee is split twice: a percentage is burned, and of the rest a percentage goes to the author
of the block and the remainder to the treasury.  A tip goes to the author.  Both deposits
can fail, and there may be no author; then the share is dropped, and the failure is
ignored.

So every unit of a fee and its tip ends in one of three places: on the account of the
treasury, on that of the author, or out of the issuance.  `onUnbalanceds_conserves` says how
many end where.
-/

namespace ZkVerify.Payout

open Frame

/-- `DealWithFees`: the currency, the percentages and who is paid. -/
structure DealWithFees (A R X : Type) where
  currency : Balanced A R X
  feesBurnSplit : Percent
  feesAuthorSplit : Percent
  /-- `Author::author`, if the author of the block is known. -/
  author : Option A
  treasuryAccount : A

namespace DealWithFees

variable {A R X : Type} (d : DealWithFees A R X)

/-- `ToAuthor::on_nonzero_unbalanced`. -/
def toAuthor (amount : ℕ) (x : X) : X :=
  match d.author with
  | some author => d.currency.resolveOrDrop author amount x
  | none => d.currency.dropCredit amount x

/-- `DealWithFees::on_unbalanceds`. -/
def onUnbalanceds (feesThenTips : List ℕ) (x : X) : X :=
  match feesThenTips with
  | [] => x
  | fees :: feesThenTips =>
      let burnSplit := d.feesBurnSplit.mul 100
      let feesSplit := 100 - burnSplit
      let ((burned, fees), x) := d.currency.ration fees burnSplit feesSplit x
      let valSplit := d.feesAuthorSplit.mul 100
      let treasurySplit := 100 - valSplit
      let ((treasury, author), x) := d.currency.ration fees treasurySplit valSplit x
      let (author, feesThenTips) := match feesThenTips with
        | tips :: feesThenTips => (mergeCredit author tips, feesThenTips)
        | [] => (author, [])
      let x := Balanced.onUnbalanced (d.currency.resolveOrDrop d.treasuryAccount) treasury x
      let x := Balanced.onUnbalanced d.toAuthor author x
      -- What was burned is dropped when its scope ends, then what the iterator still holds.
      feesThenTips.foldl (fun x credit => d.currency.dropCredit credit x)
        (d.currency.dropCredit burned x)

/-! ## The shares -/

/-- The part of a fee that is burned. -/
def burnedShare (fee : ℕ) : ℕ := fee * d.feesBurnSplit.parts / 100

/-- The part of a fee that is for the treasury. -/
def treasuryShare (fee : ℕ) : ℕ :=
  (fee - d.burnedShare fee) * (100 - d.feesAuthorSplit.parts) / 100

/-- What is left of a fee for the author, and the tip. -/
def authorShare (fee tip : ℕ) : ℕ := fee - d.burnedShare fee - d.treasuryShare fee + tip

theorem burnedShare_le (fee : ℕ) : d.burnedShare fee ≤ fee := by
  unfold burnedShare
  have hparts : fee * d.feesBurnSplit.parts ≤ fee * 100 :=
    Nat.mul_le_mul_left fee d.feesBurnSplit.parts_le
  omega

theorem treasuryShare_le (fee : ℕ) : d.treasuryShare fee ≤ fee - d.burnedShare fee := by
  unfold treasuryShare
  have hparts : (fee - d.burnedShare fee) * (100 - d.feesAuthorSplit.parts) ≤
      (fee - d.burnedShare fee) * 100 := Nat.mul_le_mul_left _ (Nat.sub_le _ _)
  omega

/-- Nothing is left over. -/
theorem shares_add (fee tip : ℕ) :
    d.burnedShare fee + d.treasuryShare fee + d.authorShare fee tip = fee + tip := by
  have hburned := d.burnedShare_le fee
  have htreasury := d.treasuryShare_le fee
  unfold authorShare
  omega

/-! ## Where the shares end -/

variable {d} {x : X} {fee : ℕ} {tip : Option ℕ}

/-- The two rations are the shares. -/
theorem onUnbalanceds_eq (hfee : 100 * fee < 2 ^ 128) (hsum : fee + tip.getD 0 ≤ u128Max) :
    d.onUnbalanceds (fee :: tip.toList) x =
      d.currency.dropCredit (d.burnedShare fee)
        (Balanced.onUnbalanced d.toAuthor (d.authorShare fee (tip.getD 0))
          (Balanced.onUnbalanced (d.currency.resolveOrDrop d.treasuryAccount)
            (d.treasuryShare fee) x)) := by
  have hfits : fee * 100 ≤ u128Max := by
    unfold u128Max
    omega
  have hrest : (fee - d.burnedShare fee) * 100 ≤ u128Max :=
    (Nat.mul_le_mul_right 100 (Nat.sub_le _ _)).trans hfits
  have hburn : d.currency.ration fee d.feesBurnSplit.parts (100 - d.feesBurnSplit.parts) x =
      ((d.burnedShare fee, fee - d.burnedShare fee), x) :=
    d.currency.ration_parts x d.feesBurnSplit.parts_le (by decide) (by decide) hfits
  have hsplit : d.currency.ration (fee - d.burnedShare fee) (100 - d.feesAuthorSplit.parts)
      d.feesAuthorSplit.parts x =
        ((d.treasuryShare fee, fee - d.burnedShare fee - d.treasuryShare fee), x) := by
    have hration := d.currency.ration_parts x (Nat.sub_le 100 d.feesAuthorSplit.parts) (by decide)
      (by decide) hrest
    rwa [Nat.sub_sub_self d.feesAuthorSplit.parts_le] at hration
  have hburnSplit : d.feesBurnSplit.mul 100 = d.feesBurnSplit.parts :=
    PerThing.mul_whole (by decide)
  have hvalSplit : d.feesAuthorSplit.mul 100 = d.feesAuthorSplit.parts :=
    PerThing.mul_whole (by decide)
  cases tip with
  | none =>
      simp only [onUnbalanceds, hburnSplit, hvalSplit, hburn, hsplit]
      rfl
  | some tip =>
      have hmerge : mergeCredit (fee - d.burnedShare fee - d.treasuryShare fee) tip =
          d.authorShare fee tip := by
        apply saturatingAdd_of_le
        simp only [Option.getD_some] at hsum
        omega
      simp only [onUnbalanceds, hburnSplit, hvalSplit, hburn, hsplit, Option.toList_some, hmerge]
      rfl

variable [DecidableEq A]

/-- The share of the treasury is settled with its account. -/
theorem book_resolveTreasury (hC : d.currency.Lawful) {n : ℕ}
    (houtside : (d.currency.book x).Outside n) :
    d.currency.book (Balanced.onUnbalanced
      (d.currency.resolveOrDrop d.treasuryAccount) n x) =
        (d.currency.book x).settle d.currency.minimumBalance (some d.treasuryAccount) n := by
  unfold Balanced.onUnbalanced
  split
  · rename_i hzero
    rw [hzero, Book.settle_zero]
  · rename_i hnonzero
    exact hC.book_resolveOrDrop d.treasuryAccount hnonzero houtside

/-- The share of the author is settled with the account of the author, if there is one. -/
theorem book_toAuthor (hC : d.currency.Lawful) {n : ℕ}
    (houtside : (d.currency.book x).Outside n) :
    d.currency.book (Balanced.onUnbalanced d.toAuthor n x) =
      (d.currency.book x).settle d.currency.minimumBalance d.author n := by
  unfold Balanced.onUnbalanced
  split
  · rename_i hzero
    rw [hzero, Book.settle_zero]
  · rename_i hnonzero
    unfold toAuthor
    cases d.author with
    | none => exact hC.drop_eq x n
    | some author => exact hC.book_resolveOrDrop author hnonzero houtside

/-- The book after a fee and a tip: the shares are settled one after the other. -/
theorem book_onUnbalanceds (hC : d.currency.Lawful) (hfee : 100 * fee < 2 ^ 128)
    (houtside : (d.currency.book x).Outside (fee + tip.getD 0)) :
    d.currency.book (d.onUnbalanceds (fee :: tip.toList) x) =
      (((d.currency.book x).settle d.currency.minimumBalance (some d.treasuryAccount)
        (d.treasuryShare fee)).settle d.currency.minimumBalance d.author
          (d.authorShare fee (tip.getD 0))).burn (d.burnedShare fee) := by
  have hissued := houtside d.treasuryAccount
  have hissuance := hC.issuance_le x
  have hshares := d.shares_add fee (tip.getD 0)
  have houtside : (d.currency.book x).Outside
      (d.treasuryShare fee + d.authorShare fee (tip.getD 0)) := houtside.mono (by omega)
  have htreasury := book_resolveTreasury hC (houtside.mono (Nat.le_add_right _ _))
  rw [onUnbalanceds_eq hfee (by omega), hC.drop_eq, book_toAuthor hC, htreasury]
  rw [htreasury]
  exact houtside.settle

/-- A fee and a tip that are parts of the issuance, and on no account, are split without a
remainder.  The treasury and the author are credited with their shares if the deposits are
possible, that of the author after that of the treasury, which only matters where they are one
account.  The issuance shrinks by what is burned and by the shares that are not deposited.
Nothing else changes. -/
theorem onUnbalanceds_conserves (hC : d.currency.Lawful) (hfee : 100 * fee < 2 ^ 128)
    (houtside : (d.currency.book x).Outside (fee + tip.getD 0)) :
    let ed := d.currency.minimumBalance
    let burned := fee * d.feesBurnSplit.parts / 100
    let treasury := (fee - burned) * (100 - d.feesAuthorSplit.parts) / 100
    let author := fee - burned - treasury + tip.getD 0
    let before := d.currency.book x
    let between := before.settle ed (some d.treasuryAccount) treasury
    let after := d.currency.book (d.onUnbalanceds (fee :: tip.toList) x)
    burned + treasury + author = fee + tip.getD 0 ∧
      (∀ y, after.free y = before.free y +
        (if d.treasuryAccount = y ∧ before.canDeposit ed y treasury = true then treasury else 0) +
        if d.author = some y ∧ between.canDeposit ed y author = true then author else 0) ∧
      after.issuance + burned +
        (if before.canDeposit ed d.treasuryAccount treasury then 0 else treasury) +
        (if between.receives ed d.author author then 0 else author) = before.issuance ∧
      (∀ y, y ≠ d.treasuryAccount →
        between.canDeposit ed y author = before.canDeposit ed y author) ∧
      after.held = before.held ∧ after.reserved = before.reserved ∧
      after.frozen = before.frozen := by
  intro ed burned treasury author before between after
  have hshares : burned + treasury + author = fee + tip.getD 0 := d.shares_add fee _
  have hafter : after = (between.settle ed d.author author).burn burned :=
    book_onUnbalanceds hC hfee houtside
  have hcovered : treasury + author + burned ≤ before.issuance := by
    rw [Nat.add_comm, ← Nat.add_assoc, hshares]
    exact (Nat.le_add_left _ _).trans (houtside d.treasuryAccount)
  obtain ⟨hfree, hissuance, hrest⟩ := Book.settle_settle_burn hcovered
  rw [hafter]
  refine ⟨hshares, fun y => ?_, hissuance, fun y hy => ?_, hrest⟩
  · simpa only [Option.some.injEq] using hfree y
  · exact Book.canDeposit_settle (fun h => hy (Option.some.inj h).symm) author

/-- Ten percent are burned, and seventy percent of the rest are for the author. -/
def sampleDeal : DealWithFees ℕ Unit { b : Book ℕ Unit // b.issuance ≤ u128Max } where
  currency := Book.balanced 1
  feesBurnSplit := .fromPercent 10
  feesAuthorSplit := .fromPercent 70
  author := some 1
  treasuryAccount := 0

/-- The treasury and the author have `10` each. -/
def sampleSavings : { b : Book ℕ Unit // b.issuance ≤ u128Max } :=
  ⟨⟨fun y => if y < 2 then 10 else 0, fun _ _ => 0, fun _ => 0, fun _ => 0, 10000⟩, by decide⟩

theorem onUnbalanceds_conserves_sample :
    let after := sampleDeal.currency.book (sampleDeal.onUnbalanceds [1000, 500] sampleSavings)
    after.free 0 = 10 + 270 ∧ after.free 1 = 10 + 1130 ∧ after.issuance + 100 = 10000 := by
  intro after
  have houtside : (sampleDeal.currency.book sampleSavings).Outside (1000 + (some 500).getD 0) := by
    intro y
    show 0 + (if y < 2 then 10 else 0) + 1500 ≤ 10000
    split <;> decide
  obtain ⟨-, hfree, hissuance, -⟩ :=
    onUnbalanceds_conserves (Book.balanced_lawful 1) (by decide : 100 * 1000 < 2 ^ 128) houtside
  exact ⟨hfree 0, hfree 1, hissuance⟩

end DealWithFees

end ZkVerify.Payout
