import ZkVerify.Aggregate.Pallet
import Mathlib.Data.Set.Basic

/-!
# Runs of the aggregate pallet

An operation of the pallet is a `Call`, with its origin and its arguments.  A run is a
list of steps from the empty storage: calls in any order, and between them steps of the
environment, which change the chain state outside the pallet.  `kept` is the set of
hold reasons that the environment leaves alone.

A call that returns an error changes nothing.  Neither does a call that panics: the
block it would be in is never built.
-/

namespace ZkVerify.Aggregate

open Frame

/-- The operations of the pallet.  A submitter list is decoded from an extrinsic, so its length
is a `u32`. -/
inductive Call (A : Type)
  | onProofVerified (account : Option A) (domainId : Option ℕ) (statement : H256)
  | aggregate (origin : RawOrigin A) (domainId aggregationId : ℕ)
  | registerDomain (origin : RawOrigin A) (aggregationSize : ℕ) (queueSize : Option ℕ)
      (aggregateRules : AggregateSecurityRules) (proofRules : ProofSecurityRules)
      (delivery : Delivery) (deliveryOwner : Option A)
  | holdDomain (origin : RawOrigin A) (domainId : ℕ)
  | unregisterDomain (origin : RawOrigin A) (domainId : ℕ)
  | setTotalDeliveryFee (origin : RawOrigin A) (domainId fee ownerTip : ℕ)
  | allowlistProofSubmitters (origin : RawOrigin A) (domainId : ℕ)
      (submitters : BoundedVec A u32Max)
  | removeProofSubmitters (origin : RawOrigin A) (domainId : ℕ) (submitters : BoundedVec A u32Max)
  | onInitialize

variable {A X T₁ T₂ : Type} {S M : ℕ}

/-- A change of the chain state that leaves the balances held for the reasons in `kept` alone. -/
structure Environment (cfg : Config A X T₁ T₂) (kept : Set HoldReason) where
  act : X → X
  keeps : ∀ x, ∀ r ∈ kept, ∀ a,
    (cfg.hold.book (act x)).held r a = (cfg.hold.book x).held r a

/-- One step of a run. -/
inductive Step (cfg : Config A X T₁ T₂) (kept : Set HoldReason)
  | call (c : Call A)
  | environment (e : Environment cfg kept)

variable [DecidableEq A]

/-- Execute a call. -/
def dispatch (cfg : Config A X T₁ T₂) (c : Call A) (s : State A X T₁ T₂ S M) :
    DispatchResult A X T₁ T₂ S M :=
  match c with
  | .onProofVerified account domainId statement => do
      return (← unwind (onProofVerified cfg account domainId statement s), .default)
  | .aggregate origin domainId aggregationId => aggregate cfg origin domainId aggregationId s
  | .registerDomain origin aggregationSize queueSize aggregateRules proofRules delivery owner =>
      registerDomain cfg origin aggregationSize queueSize aggregateRules proofRules delivery owner s
  | .holdDomain origin domainId => holdDomain cfg origin domainId s
  | .unregisterDomain origin domainId => unregisterDomain cfg origin domainId s
  | .setTotalDeliveryFee origin domainId fee ownerTip =>
      setTotalDeliveryFee cfg origin domainId fee ownerTip s
  | .allowlistProofSubmitters origin domainId submitters =>
      allowlistProofSubmitters cfg origin domainId submitters.toList s
  | .removeProofSubmitters origin domainId submitters =>
      removeProofSubmitters cfg origin domainId submitters.toList s
  | .onInitialize => .ok (onInitialize s, .default)

variable {cfg : Config A X T₁ T₂} {kept : Set HoldReason}

/-- The state after one step. -/
def exec (s : State A X T₁ T₂ S M) : Step cfg kept → State A X T₁ T₂ S M
  | .call c =>
      match dispatch cfg c s with
      | .ok (s', _) => s'
      | .error _ => s
  | .environment e => { s with chain := e.act s.chain }

/-- The state after a list of steps. -/
def run (s : State A X T₁ T₂ S M) (steps : List (Step cfg kept)) : State A X T₁ T₂ S M :=
  steps.foldl exec s

/-- The state is reached by a run from the empty storage. -/
def Reachable (cfg : Config A X T₁ T₂) (kept : Set HoldReason) (s : State A X T₁ T₂ S M) : Prop :=
  ∃ (x : X) (steps : List (Step cfg kept)), s = run (.genesis x) steps

@[simp] theorem run_nil (s : State A X T₁ T₂ S M) : run s ([] : List (Step cfg kept)) = s := rfl

theorem run_append (s : State A X T₁ T₂ S M) (first second : List (Step cfg kept)) :
    run s (first ++ second) = run (run s first) second :=
  List.foldl_append

/-- The step, if fewer reasons are watched. -/
def Step.weaken {watched : Set HoldReason} (h : watched ⊆ kept) : Step cfg kept → Step cfg watched
  | .call c => .call c
  | .environment e => .environment ⟨e.act, fun x r hr => e.keeps x r (h hr)⟩

theorem run_weaken {watched : Set HoldReason} (h : watched ⊆ kept) (s : State A X T₁ T₂ S M)
    (steps : List (Step cfg kept)) : run s (steps.map (Step.weaken h)) = run s steps := by
  induction steps generalizing s with
  | nil => rfl
  | cons step steps ih =>
      cases step with
      | call c => exact ih _
      | environment e => exact ih _

/-- What holds initially and is preserved by every successful call of a run and by the environment
holds after the run. -/
theorem run_induction {P : State A X T₁ T₂ S M → Prop} {s : State A X T₁ T₂ S M}
    {steps : List (Step cfg kept)} (hinit : P s)
    (hcall : ∀ s c s' info, .call c ∈ steps → P s → dispatch cfg c s = .ok (s', info) → P s')
    (henv : ∀ s (e : Environment cfg kept), P s → P { s with chain := e.act s.chain }) :
    P (run s steps) := by
  induction steps generalizing s with
  | nil => exact hinit
  | cons step steps ih =>
      refine ih ?_ fun s c s' info hmem => hcall s c s' info (List.mem_cons_of_mem _ hmem)
      cases step with
      | environment e => exact henv s e hinit
      | call c =>
          simp only [exec]
          split
          · rename_i s' info hok
            exact hcall s c s' info List.mem_cons_self hinit hok
          · exact hinit

end ZkVerify.Aggregate
