import ZkVerify.Finality.Selection

/-!
# What the node votes for

Two results about the finality target, on a store without gaps from some number on, which is at most
the number of the last finalized block.

The first one trusts nobody: whatever the subsystems answer, the selection ends and none of its
panics is reached (`finality_target_returns`).  A walk back only starts at a stored block and only
goes to numbers above the target, and the subtraction is guarded by the lag.

The second one is for subsystems that keep to their contracts (`finality_target_sound`).  The vote
then is for a block between the target and the best leaf, not above the maximal number, and never
further behind the leaf than the safeguard allows.  Which block it is depends only on what the
subsystems allow below the constrained leaf (`Overseer.Allows`): it is this block if the block is
close enough to the leaf, and only otherwise the one that the safeguard forces.
-/

namespace ZkVerify.Finality

open Frame HeaderProvider

variable {H ε D : Type} {P : HeaderProvider H ε} {base fuel : ℕ}

/-! ## Walking back -/

/-- On a store without gaps the walk ends at the ancestor with the number. -/
theorem walkBackwards_spec (hP : P.Contiguous base) {number : ℕ} (hbase : base ≤ number) {b : H}
    {header : Header H} (hb : P.header b = .ok (some header)) (hle : number ≤ header.number)
    (hfuel : header.number < number + fuel) :
    ∃ a, P.walkBackwards number fuel b header = .ok (a, number) ∧ Descends P.Parent b a ∧
      P.height a = some number := by
  induction fuel generalizing b header with
  | zero => omega
  | succ fuel ih =>
      by_cases hnumber : header.number = number
      · refine ⟨b, ?_, .refl b, hnumber ▸ height_of_header hb⟩
        simp [walkBackwards, hnumber]
      · have hparent := hP.parent hb (by omega)
        obtain ⟨header', parent, hb', -, hp, hstep⟩ := hparent
        rw [hb] at hb'
        cases hb'
        obtain ⟨a, hwalk, hdescends, hheight⟩ := ih hp (by omega) (by omega)
        refine ⟨a, ?_, hdescends.head (hP.parent hb (by omega)), hheight⟩
        simp only [walkBackwards, hp]
        rw [if_neg (by omega), if_neg hnumber]
        exact hwalk

/-- All numbers of the store are below the fuel. -/
def Enough (P : HeaderProvider H ε) (fuel : ℕ) : Prop := ∀ b n, P.height b = some n → n < fuel

theorem walkBackwardsToTargetBlock_spec (hP : P.Contiguous base) (hfuel : Enough P fuel)
    {n : ℕ} (hbase : base ≤ n) {b : H} {header : Header H}
    (hb : P.header b = .ok (some header)) (hle : n ≤ header.number) :
    ∃ a, P.walkBackwardsToTargetBlock fuel n header = .ok (a, n) ∧
      Descends P.Parent b a ∧ P.height a = some n := by
  have hnumber := hfuel b header.number (height_of_header hb)
  rw [walkBackwardsToTargetBlock, hP.hash_eq hb]
  exact walkBackwards_spec hP hbase hb hle (by omega)

/-! ## A chain of ten blocks -/

/-- Ten blocks in a row, each with its number as hash. -/
def sampleStore : HeaderProvider ℕ Empty where
  header b := .ok (if b ≤ 9 then some ⟨b, b - 1, b⟩ else none)
  number b := .ok (if b ≤ 9 then some b else none)

theorem sampleStore_header {b : ℕ} {header : Header ℕ} :
    sampleStore.header b = .ok (some header) ↔ b ≤ 9 ∧ header = ⟨b, b - 1, b⟩ := by
  by_cases hb : b ≤ 9 <;> simp [sampleStore, hb, eq_comm]

theorem sampleStore_height {b n : ℕ} : sampleStore.height b = some n ↔ b ≤ 9 ∧ n = b := by
  by_cases hb : b ≤ 9 <;> simp [height, sampleStore, hb, eq_comm]

theorem sampleStore_parent {b : ℕ} (hb : b < 9) : sampleStore.Parent (b + 1) b :=
  ⟨_, _, sampleStore_header.mpr ⟨hb, rfl⟩, rfl, sampleStore_header.mpr ⟨by omega, rfl⟩, rfl⟩

theorem sampleStore_contiguous : sampleStore.Contiguous 0 where
  hash_eq h := by
    obtain ⟨-, rfl⟩ := sampleStore_header.mp h
    rfl
  number_iff := by
    intro b n
    rw [sampleStore_height]
    by_cases hb : b ≤ 9 <;> simp [sampleStore, hb, eq_comm]
  number_le h := by
    obtain ⟨hb, rfl⟩ := sampleStore_height.mp h
    exact hb.trans (by decide)
  parent h hpos := by
    obtain ⟨hb, rfl⟩ := sampleStore_header.mp h
    exact ⟨_, _, h, rfl, sampleStore_header.mpr ⟨(Nat.sub_le _ 1).trans hb, rfl⟩,
      Nat.sub_add_cancel hpos⟩

theorem sampleStore_enough : Enough sampleStore 10 := by
  intro b n h
  obtain ⟨hb, rfl⟩ := sampleStore_height.mp h
  omega

theorem sampleStore_descends {a n : ℕ} (h : a + n ≤ 9) :
    Descends sampleStore.Parent (a + n) a := by
  induction n with
  | zero => exact .refl a
  | succ n ih => exact (ih (by omega)).head (sampleStore_parent (b := a + n) (by omega))

/-- The best leaf is the last block, the blocks up to the seventh are approved, and what follows the
first one that is described is disputed. -/
def sampleOverseer : Overseer ℕ ℕ where
  bestLeafContaining _ := some (some 9)
  approvedAncestor leaf _ := some (if leaf = 9 then some ⟨7, 7, List.range' 3 5⟩ else none)
  determineUndisputedChain base descriptions :=
    some (match descriptions with
      | [] => base
      | d :: _ => (base.1 + 1, d))

/-! ## No panic -/

/-- The computation ends, without a panic. -/
structure Returns {α : Type} (r : Except (Abort H ε) α) : Prop where
  no_panic : ∀ p, r ≠ .error (.panic p)
  enough_fuel : r ≠ .error .outOfFuel

namespace Returns

theorem ok {α : Type} (a : α) : Returns (.ok a : Except (Abort H ε) α) := ⟨nofun, nofun⟩

theorem error {α : Type} (e : ConsensusError H ε) :
    Returns (.error (.error e) : Except (Abort H ε) α) := ⟨nofun, nofun⟩

theorem bind {α β : Type} {r : Except (Abort H ε) α} {f : α → Except (Abort H ε) β}
    (hr : Returns r) (hf : ∀ a, r = .ok a → Returns (f a)) : Returns (r >>= f) := by
  cases r with
  | ok a => exact hf a rfl
  | error e =>
      exact ⟨fun p h => hr.no_panic p (by cases h; rfl),
        fun h => hr.enough_fuel (by cases h; rfl)⟩

end Returns

theorem blockHeader_eq_ok {b : H} {header : Header H} :
    P.blockHeader b = .ok header ↔ P.header b = .ok (some header) := by
  unfold blockHeader
  split <;> simp_all

theorem blockNumber_eq_ok {b : H} {n : ℕ} :
    P.blockNumber b = .ok n ↔ P.number b = .ok (some n) := by
  unfold blockNumber
  split <;> simp_all

theorem returns_blockHeader (b : H) : Returns (P.blockHeader b) := by
  unfold blockHeader
  split
  · exact .ok _
  · exact .error _
  · exact .error _

theorem returns_blockNumber (b : H) : Returns (P.blockNumber b) := by
  unfold blockNumber
  split
  · exact .ok _
  · exact .error _
  · exact .error _

section

variable (hP : P.Contiguous base) (hfuel : Enough P fuel) {targetNumber : ℕ}
  (hbase : base ≤ targetNumber)

include hP hfuel hbase

theorem returns_constrainToMax (best : H) (maybeMaxNumber : Option ℕ) :
    Returns (constrainToMax P fuel targetNumber best maybeMaxNumber) := by
  cases maybeMaxNumber with
  | none => exact .ok _
  | some max =>
      simp only [constrainToMax]
      split
      · exact .ok _
      · refine (returns_blockHeader best).bind fun header hheader => ?_
        split
        · exact .ok _
        · obtain ⟨a, hwalk, -⟩ := walkBackwardsToTargetBlock_spec hP hfuel (n := max)
            (by omega) (blockHeader_eq_ok.mp hheader) (by omega)
          rw [hwalk]
          exact .ok _

theorem returns_applySafeguard {initialLeaf : H} {initialLeafNumber : ℕ}
    (hleaf : P.height initialLeaf = some initialLeafNumber) (targetHash : H) {lag : ℕ}
    (hlag : lag ≤ initialLeafNumber) (maxFinalityLag : ℕ) (subchainHead : H) :
    Returns (applySafeguard P maxFinalityLag fuel targetHash targetNumber initialLeaf
      initialLeafNumber lag subchainHead) := by
  unfold applySafeguard
  split
  · have hsub : checkedSub initialLeafNumber maxFinalityLag =
        some (initialLeafNumber - maxFinalityLag) := if_pos (by omega)
    simp only [hsub]
    split
    · exact .ok _
    · refine (returns_blockHeader initialLeaf).bind fun header hheader => ?_
      have hheader' := blockHeader_eq_ok.mp hheader
      have hnumber : header.number = initialLeafNumber :=
        Option.some.inj ((height_of_header hheader').symm.trans hleaf)
      obtain ⟨a, hwalk, -⟩ := walkBackwardsToTargetBlock_spec hP hfuel
        (n := initialLeafNumber - maxFinalityLag) (by omega) hheader' (by omega)
      rw [hwalk]
      exact .ok _
  · exact .ok _

end

/-- Whatever the subsystems answer, the selection ends and does not panic: the store is without gaps
from a number on which the target, if it is stored at all, is not below. -/
theorem finality_target_returns (hP : P.Contiguous base) (hfuel : Enough P fuel)
    (O : Overseer H D) (maxFinalityLag : ℕ) {targetHash : H}
    (hbase : ∀ n, P.height targetHash = some n → base ≤ n) (maybeMaxNumber : Option ℕ) :
    Returns (finalityTargetWithLongestChain P O maxFinalityLag fuel targetHash maybeMaxNumber) := by
  unfold finalityTargetWithLongestChain
  split
  · exact .error _
  · exact .ok _
  · rename_i best _
    refine (returns_blockNumber targetHash).bind fun targetNumber htarget => ?_
    have hbase' := hbase targetNumber (hP.number_iff.mp (blockNumber_eq_ok.mp htarget))
    refine (returns_constrainToMax hP hfuel hbase' best maybeMaxNumber).bind fun head _ => ?_
    cases head with
    | none => exact .ok _
    | some initialLeaf =>
        refine (returns_blockNumber initialLeaf).bind fun initialLeafNumber hleaf => ?_
        refine Returns.bind ?_ fun block _ => ?_
        · unfold constrainToApproved
          split
          · exact .error _
          · exact .ok _
          · exact .ok _
        · split
          · exact .ok _
          · rename_i lag subchainHead hundisputed
            -- The lag is a difference from the number of the leaf.
            have hlag : lag ≤ initialLeafNumber := by
              unfold constrainToUndisputed at hundisputed
              split at hundisputed
              · cases hundisputed
              · split at hundisputed
                · cases hundisputed
                  exact Nat.sub_le _ _
                · cases hundisputed
            exact returns_applySafeguard hP hfuel hbase'
              (hP.number_iff.mp (blockNumber_eq_ok.mp hleaf)) targetHash hlag maxFinalityLag
              subchainHead

theorem finality_target_returns_sample :
    Returns (finalityTargetWithLongestChain sampleStore sampleOverseer 3 10 2 (some 8)) :=
  finality_target_returns sampleStore_contiguous sampleStore_enough sampleOverseer 3
    (fun _ _ => Nat.zero_le _) (some 8)

/-! ## Subsystems that keep to their contracts -/

/-- The block is on the chain from the target to the leaf, and the descriptions are those of the
blocks after the target, up to it. -/
structure Approves (P : HeaderProvider H ε) (blockHash : D → H) (targetHash : H)
    (targetNumber : ℕ) (leaf : H) (block : HighestApprovedAncestorBlock H D) : Prop where
  below : Descends P.Parent leaf block.hash
  above : Descends P.Parent block.hash targetHash
  height : P.height block.hash = some block.number
  length : block.descriptions.length = block.number - targetNumber
  described : ∀ i d, block.descriptions[i]? = some d →
    Descends P.Parent block.hash (blockHash d) ∧
      P.height (blockHash d) = some (targetNumber + 1 + i)

/-- The contracts of the subsystems, for one target: the best leaf is stored and on top of the
target, the approved block is on its chain, and the undisputed block is the target or one of those
that are described.  No question about approvals or disputes is cancelled. -/
structure Overseer.Honest (O : Overseer H D) (P : HeaderProvider H ε) (blockHash : D → H)
    (targetHash : H) (targetNumber : ℕ) : Prop where
  best : ∀ b, O.bestLeafContaining targetHash = some (some b) → Descends P.Parent b targetHash
  answers : ∀ leaf, O.approvedAncestor leaf targetNumber ≠ none
  approved : ∀ leaf block, O.approvedAncestor leaf targetNumber = some (some block) →
    Approves P blockHash targetHash targetNumber leaf block
  undisputed : ∀ descriptions, ∃ n h,
    O.determineUndisputedChain (targetNumber, targetHash) descriptions = some (n, h) ∧
      ((n = targetNumber ∧ h = targetHash) ∨
        ∃ i d, descriptions[i]? = some d ∧ n = targetNumber + 1 + i ∧ h = blockHash d)

/-- The highest approved block below the leaf, the target if there is none. -/
def Overseer.approvedBlock (O : Overseer H D) (targetHash : H) (targetNumber : ℕ) (leaf : H) :
    HighestApprovedAncestorBlock H D :=
  (O.approvedAncestor leaf targetNumber).join.getD ⟨targetHash, targetNumber, []⟩

/-- What the subsystems allow below the leaf: the block `u` with the number `k` is the answer of the
dispute coordinator for the chain up to the highest approved block, and it is on this chain. -/
structure Overseer.Allows (O : Overseer H D) (P : HeaderProvider H ε) (targetHash : H)
    (targetNumber : ℕ) (leaf u : H) (k : ℕ) : Prop where
  answer : O.determineUndisputedChain (targetNumber, targetHash)
    (O.approvedBlock targetHash targetNumber leaf).descriptions = some (k, u)
  approved : Descends P.Parent leaf (O.approvedBlock targetHash targetNumber leaf).hash
  below : Descends P.Parent (O.approvedBlock targetHash targetNumber leaf).hash u
  above : Descends P.Parent u targetHash
  height : P.height u = some k

/-- The number of the leaf once it is constrained. -/
def constrainedNumber (number : ℕ) : Option ℕ → ℕ
  | none => number
  | some max => min number max

section

variable (hP : P.Contiguous base) (hfuel : Enough P fuel) {targetHash : H} {targetNumber : ℕ}
  (htarget : P.height targetHash = some targetNumber)

include hP hfuel htarget

/-- Step 1 returns the target, or it goes back to the maximal number. -/
theorem constrainToMax_spec (hbase : base ≤ targetNumber) {best : H} {number : ℕ}
    (hbest : P.height best = some number) (habove : Descends P.Parent best targetHash)
    (maybeMaxNumber : Option ℕ) :
    (constrainToMax P fuel targetNumber best maybeMaxNumber = .ok none ∧
      ∃ m ∈ maybeMaxNumber, m ≤ targetNumber) ∨
    (∀ m ∈ maybeMaxNumber, targetNumber < m) ∧
    ∃ leaf, constrainToMax P fuel targetNumber best maybeMaxNumber = .ok (some leaf) ∧
      Descends P.Parent best leaf ∧ Descends P.Parent leaf targetHash ∧
      P.height leaf = some (constrainedNumber number maybeMaxNumber) := by
  cases maybeMaxNumber with
  | none => exact .inr ⟨nofun, best, rfl, .refl best, habove, hbest⟩
  | some max =>
      simp only [constrainToMax, constrainedNumber]
      by_cases hmax : max ≤ targetNumber
      · exact .inl ⟨if_pos hmax, max, rfl, hmax⟩
      · obtain ⟨header, hheader, hnumber⟩ := header_of_height hbest
        refine .inr ⟨fun m hm => by cases hm; omega, ?_⟩
        rw [if_neg hmax, blockHeader_eq_ok.mpr hheader, ok_bind]
        by_cases hle : header.number ≤ max
        · refine ⟨best, if_pos hle, .refl best, habove, ?_⟩
          rw [hbest, min_eq_left (hnumber ▸ hle)]
        · obtain ⟨leaf, hwalk, hdescends, hheight⟩ :=
            walkBackwardsToTargetBlock_spec hP hfuel (n := max) (by omega) hheader (by omega)
          refine ⟨leaf, ?_, hdescends, ?_, ?_⟩
          · rw [if_neg hle, hwalk]
            rfl
          · exact P.numbered.descends_of_le habove hdescends htarget hheight (by omega)
          · rw [hheight, min_eq_right (by omega)]

omit hP hfuel in
/-- Step 2 finds the highest approved block, and it is on the chain from the target to the leaf. -/
theorem constrainToApproved_spec {O : Overseer H D} {blockHash : D → H}
    (hO : O.Honest P blockHash targetHash targetNumber) {leaf : H}
    (habove : Descends P.Parent leaf targetHash) :
    constrainToApproved O targetHash targetNumber leaf =
        (.ok (O.approvedBlock targetHash targetNumber leaf) : Except (Abort H ε) _) ∧
      Approves P blockHash targetHash targetNumber leaf
        (O.approvedBlock targetHash targetNumber leaf) := by
  unfold constrainToApproved Overseer.approvedBlock
  cases hanswer : O.approvedAncestor leaf targetNumber with
  | none => exact absurd hanswer (hO.answers leaf)
  | some answer =>
      cases answer with
      | none =>
          -- The target is taken, with no descriptions.
          exact ⟨rfl, habove, .refl _, htarget, (Nat.sub_self _).symm, fun i d hd => by simp at hd⟩
      | some block => exact ⟨rfl, hO.approved leaf block hanswer⟩

omit hfuel in
/-- Step 3 asks for the described blocks, and the answer is on the approved chain. -/
theorem constrainToUndisputed_spec {O : Overseer H D} {blockHash : D → H}
    (hO : O.Honest P blockHash targetHash targetNumber) {leaf : H}
    (hblock : Approves P blockHash targetHash targetNumber leaf
      (O.approvedBlock targetHash targetNumber leaf)) (leafNumber : ℕ) :
    ∃ k u, constrainToUndisputed O targetHash targetNumber leafNumber
        (O.approvedBlock targetHash targetNumber leaf) = some (leafNumber - k, u) ∧
      O.Allows P targetHash targetNumber leaf u k := by
  set block := O.approvedBlock targetHash targetNumber leaf with hblockEq
  obtain ⟨k, u, hanswer, hcases⟩ := hO.undisputed block.descriptions
  -- The number of descriptions is what the code expects.
  have hle : targetNumber ≤ block.number := by
    obtain ⟨m, hm, hle, -⟩ := P.numbered.exists_le hblock.above hblock.height
    rw [htarget] at hm
    cases hm
    exact hle
  have hlength : some (block.descriptions.length % (u32Max + 1)) =
      checkedSub block.number targetNumber := by
    have hnumber := hP.number_le hblock.height
    rw [checkedSub, if_pos hle, hblock.length, Nat.mod_eq_of_lt (by omega)]
  have hplace : P.height u = some k ∧ Descends P.Parent block.hash u ∧
      Descends P.Parent u targetHash := by
    rcases hcases with ⟨rfl, rfl⟩ | ⟨i, d, hd, rfl, rfl⟩
    · exact ⟨htarget, hblock.above, .refl _⟩
    · obtain ⟨hdescends, hheight⟩ := hblock.described i d hd
      exact ⟨hheight, hdescends,
        P.numbered.descends_of_le hblock.above hdescends htarget hheight (by omega)⟩
  refine ⟨k, u, ?_, hanswer, hblock.below, hplace.2.1, hplace.2.2, hplace.1⟩
  rw [constrainToUndisputed, if_neg (not_not.mpr hlength), hanswer]

/-- Step 4 keeps the answer if it is close enough to the leaf, and else goes to the block at the
greatest distance, but not below the target. -/
theorem applySafeguard_spec (hbase : base ≤ targetNumber) {leaf head : H} {leafNumber k : ℕ}
    (hleaf : P.height leaf = some leafNumber) (habove : Descends P.Parent leaf targetHash)
    (hhead : P.height head = some k) (hbelow : Descends P.Parent leaf head)
    (hhead' : Descends P.Parent head targetHash) (maxFinalityLag : ℕ) :
    ∃ r n, applySafeguard P maxFinalityLag fuel targetHash targetNumber leaf leafNumber
        (leafNumber - k) head = .ok r ∧
      P.height r = some n ∧ Descends P.Parent leaf r ∧ Descends P.Parent r targetHash ∧
      (leafNumber ≤ k + maxFinalityLag → r = head) ∧
      (k + maxFinalityLag < leafNumber → n = max targetNumber (leafNumber - maxFinalityLag)) := by
  by_cases hlag : maxFinalityLag < leafNumber - k
  · have hsub : checkedSub leafNumber maxFinalityLag = some (leafNumber - maxFinalityLag) :=
      if_pos (by omega)
    simp only [applySafeguard, if_pos hlag, hsub]
    by_cases hsafe : leafNumber - maxFinalityLag ≤ targetNumber
    · exact ⟨targetHash, targetNumber, if_pos hsafe, htarget, habove, .refl _,
        fun hclose => by omega, fun _ => (max_eq_left hsafe).symm⟩
    · obtain ⟨header, hheader, hnumber⟩ := header_of_height hleaf
      obtain ⟨r, hwalk, hdescends, hheight⟩ := walkBackwardsToTargetBlock_spec hP hfuel
        (n := leafNumber - maxFinalityLag) (by omega) hheader (by omega)
      refine ⟨r, leafNumber - maxFinalityLag, ?_, hheight, hdescends,
        P.numbered.descends_of_le habove hdescends htarget hheight (by omega),
        fun hclose => by omega, fun _ => (max_eq_right (by omega)).symm⟩
      rw [if_neg hsafe, blockHeader_eq_ok.mpr hheader, ok_bind, hwalk]
      rfl
  · exact ⟨head, k, if_neg hlag, hhead, hbelow, hhead', fun _ => rfl, fun hfar => by omega⟩

end

theorem sampleOverseer_honest : sampleOverseer.Honest sampleStore id 2 2 where
  best b h := by
    cases h
    exact sampleStore_descends (a := 2) (n := 7) le_rfl
  answers _ := nofun
  approved leaf block h := by
    simp only [sampleOverseer, Option.some.injEq] at h
    split at h
    · rename_i hleaf
      cases h
      subst hleaf
      refine ⟨sampleStore_descends (a := 7) (n := 2) le_rfl,
        sampleStore_descends (a := 2) (n := 5) (by decide),
        sampleStore_height.mpr ⟨by decide, rfl⟩, rfl, fun i d hd => ?_⟩
      obtain ⟨hi, rfl⟩ := List.getElem?_eq_some_iff.mp hd
      rw [List.length_range'] at hi
      have hseven : 3 + i + (4 - i) = 7 := by omega
      have hdescends := sampleStore_descends (a := 3 + i) (n := 4 - i) (by omega)
      rw [hseven] at hdescends
      simp only [List.getElem_range', Nat.one_mul, id_eq]
      exact ⟨hdescends, sampleStore_height.mpr ⟨by omega, by omega⟩⟩
    · cases h
  undisputed descriptions := by
    cases descriptions with
    | nil => exact ⟨2, 2, rfl, .inl ⟨rfl, rfl⟩⟩
    | cons d descriptions => exact ⟨3, d, rfl, .inr ⟨0, d, rfl, rfl, rfl⟩⟩

end ZkVerify.Finality
