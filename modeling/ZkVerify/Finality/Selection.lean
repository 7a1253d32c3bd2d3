import ZkVerify.Frame.Ancestry
import ZkVerify.Frame.Prelude

/-!
# The finality target

Before every vote the node asks for the block to vote for: the finality target.  It takes the best
leaf on top of the last finalized block, goes back to the maximal number that the voter allows, then
to the highest block that is approved, then to the highest one without a dispute.  If the answer is
too far behind the leaf, the block at the greatest distance that is allowed is taken instead.

The header store and the subsystems that answer the questions are parameters, and a question may be
cancelled.  The loop over the headers has no bound of its own, so that it runs with fuel here.
-/

namespace ZkVerify.Finality

open Frame

/-- What the code reads of a header. -/
structure Header (H : Type) where
  hash : H
  parentHash : H
  number : ℕ
deriving DecidableEq

/-- `HeaderProvider`. -/
structure HeaderProvider (H ε : Type) where
  header : H → Except ε (Option (Header H))
  number : H → Except ε (Option ℕ)

/-- The errors of the questions. -/
inductive Error
  | bestLeafContainingCanceled
  | approvedAncestorCanceled
deriving DecidableEq

/-- `ConsensusError`. -/
inductive ConsensusError (H ε : Type)
  /-- `ChainLookup("Missing header with hash ..")`. -/
  | missingHeader (hash : H)
  /-- `ChainLookup("Lookup failed for header with hash ..")`. -/
  | headerLookupFailed (hash : H) (e : ε)
  /-- `ChainLookup("Missing number with hash ..")`. -/
  | missingNumber (hash : H)
  /-- `ChainLookup("Lookup failed for number with hash ..")`. -/
  | numberLookupFailed (hash : H) (e : ε)
  /-- `ChainLookup`, with the error of the store. -/
  | walkFailed (e : ε)
  | other (e : Error)

inductive Panic
  /-- `unreachable!` in `walk_backwards_to_target_block`. -/
  | belowTarget
  /-- `expect` on the parent in `walk_backwards_to_target_block`. -/
  | missingParent
  /-- The subtraction of `MAX_FINALITY_LAG`. -/
  | subtractionOverflow
deriving DecidableEq

/-- How a computation can stop without a result. -/
inductive Abort (H ε : Type)
  | error (e : ConsensusError H ε)
  | panic (p : Panic)
  | outOfFuel

variable {H ε D : Type}

/-! ## The header store -/

namespace HeaderProvider

/-- `block_header`. -/
def blockHeader (P : HeaderProvider H ε) (hash : H) : Except (Abort H ε) (Header H) :=
  match P.header hash with
  | .ok (some header) => .ok header
  | .ok none => .error (.error (.missingHeader hash))
  | .error e => .error (.error (.headerLookupFailed hash e))

/-- `block_number`. -/
def blockNumber (P : HeaderProvider H ε) (hash : H) : Except (Abort H ε) ℕ :=
  match P.number hash with
  | .ok (some number) => .ok number
  | .ok none => .error (.error (.missingNumber hash))
  | .error e => .error (.error (.numberLookupFailed hash e))

/-- The loop of `walk_backwards_to_target_block`. -/
def walkBackwards (P : HeaderProvider H ε) (targetNumber : ℕ) :
    ℕ → H → Header H → Except (Abort H ε) (H × ℕ)
  | 0, _, _ => .error .outOfFuel
  | fuel + 1, targetHash, targetHeader =>
      if targetHeader.number < targetNumber then .error (.panic .belowTarget)
      else if targetHeader.number = targetNumber then .ok (targetHash, targetNumber)
      else
        match P.header targetHeader.parentHash with
        | .error e => .error (.error (.walkFailed e))
        | .ok none => .error (.panic .missingParent)
        | .ok (some header) => walkBackwards P targetNumber fuel targetHeader.parentHash header

/-- `walk_backwards_to_target_block`. -/
def walkBackwardsToTargetBlock (P : HeaderProvider H ε) (fuel targetNumber : ℕ)
    (currentHeader : Header H) : Except (Abort H ε) (H × ℕ) :=
  P.walkBackwards targetNumber fuel currentHeader.hash currentHeader

end HeaderProvider

/-! ## The subsystems -/

/-- `HighestApprovedAncestorBlock`. -/
structure HighestApprovedAncestorBlock (H D : Type) where
  hash : H
  number : ℕ
  descriptions : List D

/-- The answers of the subsystems, `none` if the question is cancelled. -/
structure Overseer (H D : Type) where
  /-- `BestLeafContaining`. -/
  bestLeafContaining : H → Option (Option H)
  /-- `ApprovedAncestor`. -/
  approvedAncestor : H → ℕ → Option (Option (HighestApprovedAncestorBlock H D))
  /-- `DetermineUndisputedChain`. -/
  determineUndisputedChain : ℕ × H → List D → Option (ℕ × H)

/-! ## The steps -/

section

variable (P : HeaderProvider H ε) (O : Overseer H D) (maxFinalityLag fuel : ℕ)

/-- Step 1: constrain the leaf according to `maybe_max_number`.  `none` is the early return of the
target. -/
def constrainToMax (targetNumber : ℕ) (subchainHead : H) :
    Option ℕ → Except (Abort H ε) (Option H)
  | none => .ok (some subchainHead)
  | some max =>
      if max ≤ targetNumber then .ok none
      else do
        let subchainHeader ← P.blockHeader subchainHead
        if subchainHeader.number ≤ max then return some subchainHead
        else do
          let (ancestorHash, _) ← P.walkBackwardsToTargetBlock fuel max subchainHeader
          return some ancestorHash

/-- Step 2: constrain according to `ApprovedAncestor`. -/
def constrainToApproved (targetHash : H) (targetNumber : ℕ) (subchainHead : H) :
    Except (Abort H ε) (HighestApprovedAncestorBlock H D) :=
  match O.approvedAncestor subchainHead targetNumber with
  | none => .error (.error (.other .approvedAncestorCanceled))
  | some none => .ok ⟨targetHash, targetNumber, []⟩
  | some (some block) => .ok block

/-- Step 3: constrain according to disputes.  The lag and the head, or `none` for the early return
of the target. -/
def constrainToUndisputed (targetHash : H) (targetNumber initialLeafNumber : ℕ)
    (block : HighestApprovedAncestorBlock H D) : Option (ℕ × H) :=
  -- The number of descriptions is cast to `u32`.
  if some (block.descriptions.length % (u32Max + 1)) ≠ checkedSub block.number targetNumber then
    none
  else
    match O.determineUndisputedChain (targetNumber, targetHash) block.descriptions with
    | some (subchainNumber, subchainHead) => some (initialLeafNumber - subchainNumber, subchainHead)
    | none => none

/-- Step 4: apply the maximum safeguard to the finality lag. -/
def applySafeguard (targetHash : H) (targetNumber : ℕ) (initialLeaf : H) (initialLeafNumber lag : ℕ)
    (subchainHead : H) : Except (Abort H ε) H :=
  if maxFinalityLag < lag then
    match checkedSub initialLeafNumber maxFinalityLag with
    | none => .error (.panic .subtractionOverflow)
    | some safeTarget =>
        if safeTarget ≤ targetNumber then .ok targetHash
        else do
          let initialLeafHeader ← P.blockHeader initialLeaf
          let (forcedTarget, _) ← P.walkBackwardsToTargetBlock fuel safeTarget initialLeafHeader
          return forcedTarget
  else .ok subchainHead

/-- `finality_target_with_longest_chain`, once the best leaf is known. -/
def finalityTargetBelow (targetHash : H) (maybeMaxNumber : Option ℕ) (best : H) :
    Except (Abort H ε) H := do
  let targetNumber ← P.blockNumber targetHash
  match ← constrainToMax P fuel targetNumber best maybeMaxNumber with
  | none => return targetHash
  | some initialLeaf => do
      let initialLeafNumber ← P.blockNumber initialLeaf
      let block ← constrainToApproved O targetHash targetNumber initialLeaf
      match constrainToUndisputed O targetHash targetNumber initialLeafNumber block with
      | none => return targetHash
      | some (lag, subchainHead) =>
          applySafeguard P maxFinalityLag fuel targetHash targetNumber initialLeaf
            initialLeafNumber lag subchainHead

/-- `finality_target_with_longest_chain`. -/
def finalityTargetWithLongestChain (targetHash : H) (maybeMaxNumber : Option ℕ) :
    Except (Abort H ε) H :=
  match O.bestLeafContaining targetHash with
  | none => .error (.error (.other .bestLeafContainingCanceled))
  -- No viable leaves containing the block.
  | some none => .ok targetHash
  | some (some best) => finalityTargetBelow P O maxFinalityLag fuel targetHash maybeMaxNumber best

end

/-! ## Stores without gaps -/

/-- The block `p` is the parent of `b`, and both are stored. -/
def HeaderProvider.Parent (P : HeaderProvider H ε) (b p : H) : Prop :=
  ∃ header parent, P.header b = .ok (some header) ∧ header.parentHash = p ∧
    P.header p = .ok (some parent) ∧ parent.number + 1 = header.number

/-- The number of a stored block. -/
def HeaderProvider.height (P : HeaderProvider H ε) (b : H) : Option ℕ :=
  match P.header b with
  | .ok (some header) => some header.number
  | _ => none

/-- The blocks from the number `base` on are stored without gaps, under their hashes. -/
structure HeaderProvider.Contiguous (P : HeaderProvider H ε) (base : ℕ) : Prop where
  hash_eq : ∀ {b header}, P.header b = .ok (some header) → header.hash = b
  number_iff : ∀ {b n}, P.number b = .ok (some n) ↔ P.height b = some n
  number_le : ∀ {b n}, P.height b = some n → n ≤ u32Max
  parent : ∀ {b header}, P.header b = .ok (some header) → base < header.number →
    P.Parent b header.parentHash

section

variable {P : HeaderProvider H ε} {b : H} {header : Header H} {n base : ℕ}

theorem HeaderProvider.height_of_header (h : P.header b = .ok (some header)) :
    P.height b = some header.number := by
  simp [HeaderProvider.height, h]

theorem HeaderProvider.header_of_height (h : P.height b = some n) :
    ∃ header, P.header b = .ok (some header) ∧ header.number = n := by
  unfold HeaderProvider.height at h
  split at h
  · rename_i header hheader
    exact ⟨header, hheader, Option.some.inj h⟩
  · cases h

theorem HeaderProvider.numbered (P : HeaderProvider H ε) : Numbered P.Parent P.height where
  unique := by
    rintro b p p' ⟨header, -, hb, rfl, -⟩ ⟨header', -, hb', rfl, -⟩
    rw [hb] at hb'
    cases hb'
    rfl
  step := by
    rintro b p ⟨header, parent, hb, -, hp, hnumber⟩
    exact ⟨parent.number, P.height_of_header hp, hnumber ▸ P.height_of_header hb⟩

end

end ZkVerify.Finality
