import ZkVerify.Frame.PerThing
import ZkVerify.Frame.Shared
import ZkVerify.Aggregate.Isolation
import ZkVerify.Aggregate.Paths
import ZkVerify.Verifiers.Binding
import ZkVerify.Verifiers.Groth16Inputs
import Mathlib.Data.Fintype.Basic

/-!
# The runtime

The nine settlement pallets and the aggregate pallet on one chain, as the runtime puts them
together.  Each settlement pallet is an instance of the verifiers pallet, with a storage of its
own; the callback of all of them is the aggregate pallet, and all of them take their deposits under
the same hold reason of the one currency.

A settlement pallet runs on the chain state that the aggregate pallet has: its storage and
what is outside of it.  `State.view` is what it sees, `State.put` what becomes of the whole
state.  A run of the chain then is, for every pallet, a run of that pallet with steps of the
environment in between: `view_run` and `aggregate_run`.  What is known about the runs of
one pallet holds on the chain because of these two.
-/

namespace ZkVerify.Chain

open Frame

/-! ## The settlement pallets -/

/-- The settlement pallets. -/
inductive Settlement
  | groth16
  | other (kind : Verifiers.Kind)
deriving DecidableEq, Repr

namespace Settlement

/-- The verification keys. -/
@[reducible] def Vk : Settlement → Type
  | groth16 => Verifiers.Groth16.VerificationKeyWithCurve
  | other kind => kind.Vk

/-- The proofs. -/
@[reducible] def Proof : Settlement → Type
  | groth16 => Verifiers.Groth16.ProofWithCurve
  | other kind => kind.Proof

/-- The public inputs. -/
@[reducible] def Pubs : Settlement → Type
  | groth16 => Verifiers.Groth16.Pubs
  | other kind => kind.Pubs

/-- All settlement pallets, in the order of the runtime. -/
def all : List Settlement :=
  [.groth16, .other .risc0, .other .ultraplonk, .other .plonky2, .other .fflonk, .other .sp1,
    .other .ultrahonk, .other .ezkl, .other .tee]

instance : Fintype Settlement where
  elems := ⟨all, by decide⟩
  complete k := by
    cases k with
    | groth16 => decide
    | other kind => cases kind <;> decide

/-- `GROTH16_MAX_NUM_INPUTS`. -/
def groth16MaxNumInputs : ℕ := 64

/-- The verifier of each pallet. -/
def verifier {X C : Type} (H : Hashing) (crates : Verifiers.Crates X C)
    (ark : Verifiers.Groth16.Curve → Verifiers.Groth16.Pairing) :
    (k : Settlement) → Verifiers.Verifier k.Vk k.Proof k.Pubs X
  | groth16 => Verifiers.Groth16.verifier H ark groth16MaxNumInputs
  | other kind => kind.verifier H crates

end Settlement

/-! ## The configuration of the runtime -/

/-- The hold reasons of the pallets. -/
inductive RuntimeHoldReason
  | aggregate (reason : Aggregate.HoldReason)
  /-- `VkRegistration`. -/
  | commonVerifiers
deriving DecidableEq

/-- `AggregateMaxSize`. -/
def aggregateMaxSize : ℕ := 128

/-- `AggregateQueueSize`. -/
def aggregateQueueSize : ℕ := 16

/-- `VFY`. -/
def vfy : ℕ := 10 ^ 18

/-- `CENTS`. -/
def cents : ℕ := vfy / 100

/-- `AggregateBaseTip`. -/
def aggregateBaseTip : ℕ := 10 * cents

/-- `AggregateLinearTip`, ten percent. -/
def aggregateLinearTip : Permill := ⟨100000, by decide⟩

/-- `Linear::compute_tip`. -/
def Linear.computeTip (base : ℕ) (slope : Permill) (estimated : ℕ) : Option ℕ :=
  some (saturatingAdd u128Max base (slope.mulFloor estimated))

/-- The storage of the aggregate pallet, on the chain. -/
abbrev AggregateState (A X T₁ T₂ : Type) :=
  Aggregate.State A X T₁ T₂ aggregateMaxSize aggregateQueueSize

/-- What the runtime leaves to others: the currency and the deposits, the verification crates, the
Merkle trees, fees and weights. -/
structure Config (A X C T T₁ T₂ : Type) where
  hashing : Hashing
  crates : Verifiers.Crates X C
  ark : Verifiers.Groth16.Curve → Verifiers.Groth16.Pairing
  balances : Fungible A RuntimeHoldReason X (DispatchError Empty)
  vkRegistration : Consideration A X T (DispatchError Empty)
  considerationDomain : Consideration A X T₁ (DispatchError Empty)
  considerationAllowList : Consideration A X T₂ (DispatchError Empty)
  estimateCallFee : Weight → X → ℕ
  aggregateWeight : Aggregate.WeightInfo
  onProofVerifiedWeight : Weight
  settlementWeight : (k : Settlement) → Verifiers.WeightInfo k.Vk k.Proof k.Pubs
  dbRead : Weight
  onVerifyDisabledVerifier : Weight
  encodedSizes : Aggregate.EncodedSizes
  /-- `merkle_root::<Keccak256, _>`. -/
  merkleRoot : List H256 → H256
  /-- `merkle_proof::<Keccak256, _, _>` and `verify_proof::<Keccak256, _, _>`. -/
  merkleTree : Aggregate.MerkleTree

variable {A X C T T₁ T₂ : Type}

namespace Config

variable (cfg : Config A X C T T₁ T₂)

/-- `impl pallet_aggregate::Config for Runtime`. -/
def aggregate : Aggregate.Config A X T₁ T₂ where
  -- `EnsureRoot`.
  managerOrigin
    | .root => true
    | _ => false
  hold := cfg.balances.view .aggregate .foreign
  considerationDomain := cfg.considerationDomain.mapError .foreign
  considerationAllowList := cfg.considerationAllowList.mapError .foreign
  estimateCallFee := cfg.estimateCallFee
  computePublisherTip := Linear.computeTip aggregateBaseTip aggregateLinearTip
  weightInfo := cfg.aggregateWeight
  -- `impl DispatchAggregation for Runtime`.
  dispatchAggregation _ _ _ _ _ _ _ := .ok ()
  dispatchWeight _ := ⟨0, 0⟩
  merkleRoot := cfg.merkleRoot
  encodedSizes := cfg.encodedSizes

/-- The verifier of a settlement pallet, which reads only the part of the chain outside of the
aggregate pallet. -/
def verifier (k : Settlement) :
    Verifiers.Verifier k.Vk k.Proof k.Pubs (AggregateState A X T₁ T₂) :=
  let verifier := k.verifier cfg.hashing cfg.crates cfg.ark
  { verifier with
    verifyProof := fun vk proof pubs s => verifier.verifyProof vk proof pubs s.chain
    validateVk := fun vk s => verifier.validateVk vk s.chain }

variable [DecidableEq A]

/-- `impl pallet_verifiers::Config<..> for Runtime`, for each of the settlement pallets: the
callback is the aggregate pallet and the ticket is the one that all of them use. -/
def verifiers (k : Settlement) :
    Verifiers.Config A k.Vk k.Proof k.Pubs (AggregateState A X T₁ T₂) T where
  verifier := cfg.verifier k
  hashing := cfg.hashing
  onProofVerified account domainId statement s :=
    (Aggregate.onProofVerified cfg.aggregate account domainId statement s).toOption
  onProofVerifiedWeight
    | some _ => cfg.onProofVerifiedWeight
    | none => ⟨0, 0⟩
  ticket := (cfg.vkRegistration.mapError .foreign).lift Aggregate.State.chain
    fun s x => { s with chain := x }
  weightInfo := cfg.settlementWeight k
  dbRead := cfg.dbRead
  onVerifyDisabledVerifier := cfg.onVerifyDisabledVerifier

end Config

/-! ## The state of the chain -/

/-- The storage of all pallets.  The chain state in the storage of a settlement pallet is a
placeholder: what it sees is `State.view`. -/
structure State (A X T T₁ T₂ : Type) where
  settlement : (k : Settlement) → Verifiers.State A k.Vk Unit T
  aggregate : AggregateState A X T₁ T₂

namespace State

/-- The storage before the first operation. -/
def genesis (x : X) : State A X T T₁ T₂ := ⟨fun _ => .genesis (), .genesis x⟩

/-- The state that a settlement pallet works on. -/
def view (k : Settlement) (s : State A X T T₁ T₂) :
    Verifiers.State A k.Vk (AggregateState A X T₁ T₂) T where
  disabled := (s.settlement k).disabled
  vks := (s.settlement k).vks
  tickets := (s.settlement k).tickets
  events := (s.settlement k).events
  chain := s.aggregate

/-- The state once a settlement pallet has changed its own storage and the chain. -/
def put (k : Settlement) (s : State A X T T₁ T₂)
    (v : Verifiers.State A k.Vk (AggregateState A X T₁ T₂) T) : State A X T T₁ T₂ where
  settlement := Function.update s.settlement k
    { disabled := v.disabled, vks := v.vks, tickets := v.tickets, events := v.events, chain := () }
  aggregate := v.chain

variable {k j : Settlement} {s : State A X T T₁ T₂}
  {v : Verifiers.State A k.Vk (AggregateState A X T₁ T₂) T}

@[simp] theorem put_aggregate : (s.put k v).aggregate = v.chain := rfl

@[simp] theorem view_put : (s.put k v).view k = v := by
  simp [view, put]

theorem view_put_of_ne (h : j ≠ k) : (s.put k v).view j = { s.view j with chain := v.chain } := by
  simp [view, put, h]

@[simp] theorem put_view : s.put k (s.view k) = s := by
  simp [view, put]

@[simp] theorem view_chain : (s.view k).chain = s.aggregate := rfl

end State

/-! ## Runs -/

/-- The calls of the chain that concern the pallets.  The callback of the aggregate pallet is not
one of them: only the settlement pallets call it. -/
inductive Call (A : Type)
  | settlement (k : Settlement) (c : Verifiers.Call A k.Vk k.Proof k.Pubs)
  | aggregate (c : Aggregate.Call A) (h : ∀ account d statement,
      c ≠ .onProofVerified account d statement)

/-- A change of the rest of the chain that leaves the balances held for the reasons in `kept`
alone. -/
structure Environment (cfg : Config A X C T T₁ T₂) (kept : Set RuntimeHoldReason) where
  act : X → X
  keeps : ∀ x, ∀ r ∈ kept, ∀ a,
    (cfg.balances.book (act x)).held r a = (cfg.balances.book x).held r a

/-- One step of a run. -/
inductive Step (cfg : Config A X C T T₁ T₂) (kept : Set RuntimeHoldReason)
  | call (c : Call A)
  | environment (e : Environment cfg kept)

variable [DecidableEq A] {cfg : Config A X C T T₁ T₂} {kept : Set RuntimeHoldReason}

/-- The state after one step. -/
def exec (s : State A X T T₁ T₂) : Step cfg kept → State A X T T₁ T₂
  | .call (.settlement k c) =>
      match Verifiers.dispatch (cfg.verifiers k) c (s.view k) with
      | .ok (v, _) => s.put k v
      | .error _ => s
  | .call (.aggregate c _) =>
      match Aggregate.dispatch cfg.aggregate c s.aggregate with
      | .ok (a, _) => { s with aggregate := a }
      | .error _ => s
  | .environment e =>
      { s with aggregate := { s.aggregate with chain := e.act s.aggregate.chain } }

/-- The state after a list of steps. -/
def run (s : State A X T T₁ T₂) (steps : List (Step cfg kept)) : State A X T T₁ T₂ :=
  steps.foldl exec s

/-- The state is reached by a run from the empty storage. -/
def Reachable (cfg : Config A X C T T₁ T₂) (kept : Set RuntimeHoldReason)
    (s : State A X T T₁ T₂) : Prop :=
  ∃ (x : X) (steps : List (Step cfg kept)), s = run (.genesis x) steps

variable {s : State A X T T₁ T₂}

@[simp] theorem run_nil : run s ([] : List (Step cfg kept)) = s := rfl

theorem run_cons (step : Step cfg kept) (steps : List (Step cfg kept)) :
    run s (step :: steps) = run (exec s step) steps := rfl

theorem run_append (first second : List (Step cfg kept)) :
    run s (first ++ second) = run (run s first) second :=
  List.foldl_append

theorem run_concat (steps : List (Step cfg kept)) (step : Step cfg kept) :
    run s (steps ++ [step]) = exec (run s steps) step := by
  rw [run_append]
  rfl

/-! ## What a settlement pallet sees of a run -/

/-- Every step of the chain is a call of the pallet or a step of its environment. -/
theorem view_exec (k : Settlement) (s : State A X T T₁ T₂) (step : Step cfg kept) :
    ∃ step', (exec s step).view k = Verifiers.exec (cfg.verifiers k) (s.view k) step' := by
  -- Whatever the others do is a change of the chain for this pallet.
  have hothers : ∀ s' : State A X T T₁ T₂, s'.view k = { s.view k with chain := s'.aggregate } →
      ∃ step', s'.view k = Verifiers.exec (cfg.verifiers k) (s.view k) step' :=
    fun s' h => ⟨.environment fun _ => s'.aggregate, h⟩
  cases step with
  | environment e => exact hothers _ rfl
  | call c =>
      cases c with
      | aggregate c h =>
          simp only [exec]
          split
          · exact hothers _ rfl
          · exact hothers _ rfl
      | settlement j c =>
          simp only [exec]
          split
          · rename_i v info hok
            by_cases hj : k = j
            · subst hj
              refine ⟨.call c, ?_⟩
              simp only [State.view_put, Verifiers.exec, hok]
            · exact hothers _ (State.view_put_of_ne hj)
          · exact hothers _ rfl

theorem Reachable.exec (hs : Reachable cfg kept s) (step : Step cfg kept) :
    Reachable cfg kept (Chain.exec s step) := by
  obtain ⟨x, steps, rfl⟩ := hs
  exact ⟨x, steps ++ [step], (run_concat _ _).symm⟩

/-- Every run of the chain is a run of each settlement pallet. -/
theorem view_run (k : Settlement) (s : State A X T T₁ T₂) (steps : List (Step cfg kept)) :
    ∃ steps', (run s steps).view k = Verifiers.run (cfg.verifiers k) (s.view k) steps' := by
  induction steps using List.reverseRecOn with
  | nil => exact ⟨[], rfl⟩
  | append_singleton steps step ih =>
      obtain ⟨steps', hsteps⟩ := ih
      obtain ⟨step', hstep⟩ := view_exec k (run s steps) step
      refine ⟨steps' ++ [step'], ?_⟩
      rw [run_concat, hstep, Verifiers.run_concat, hsteps]

theorem Reachable.view (hs : Reachable cfg kept s) (k : Settlement) :
    Verifiers.Reachable (cfg.verifiers k) (s.view k) := by
  obtain ⟨x, steps, rfl⟩ := hs
  obtain ⟨steps', hsteps⟩ := view_run k (.genesis x) steps
  exact ⟨_, steps', hsteps⟩

/-! ## What the aggregate pallet sees of a run -/

omit [DecidableEq A] in
/-- A change of one chain state that keeps the holds is a step of the environment. -/
theorem exists_environment (cfg : Config A X C T T₁ T₂) {kept : Set Aggregate.HoldReason} {x x' : X}
    (h : ∀ r ∈ kept, ∀ a,
      (cfg.aggregate.hold.book x').held r a = (cfg.aggregate.hold.book x).held r a) :
    ∃ e : Aggregate.Environment cfg.aggregate kept, e.act x = x' := by
  classical
  refine ⟨⟨Function.update id x x', fun y r hr a => ?_⟩, Function.update_self x x' id⟩
  by_cases hy : y = x
  · subst hy
    rw [Function.update_self]
    exact h r hr a
  · rw [Function.update_of_ne hy]
    rfl

/-- What a settlement call does to the chain: the callback of the aggregate pallet, a deposit that
is taken or given back, or nothing. -/
inductive Touches (cfg : Config A X C T T₁ T₂) (a : AggregateState A X T₁ T₂) :
    AggregateState A X T₁ T₂ → Prop
  | callback {account : Option A} {d : Option ℕ} {statement : H256}
      {a' : AggregateState A X T₁ T₂}
      (h : Aggregate.onProofVerified cfg.aggregate account d statement a = .ok a') :
      Touches cfg a a'
  | bought {who : A} {fp : Footprint} {t : T} {x : X}
      (h : cfg.vkRegistration.new who fp a.chain = .ok (t, x)) :
      Touches cfg a { a with chain := x }
  | dropped {who : A} {t : T} {x : X} (h : cfg.vkRegistration.drop t who a.chain = .ok x) :
      Touches cfg a { a with chain := x }
  | nothing : Touches cfg a a

theorem toOption_eq_some {ε α : Type} {c : Except ε α} {a : α} :
    c.toOption = some a ↔ c = .ok a := by
  cases c <;> simp [Except.toOption]

/-- The callback is an operation of the aggregate pallet. -/
theorem dispatch_callback {account : Option A} {d : Option ℕ} {statement : H256}
    {a a' : AggregateState A X T₁ T₂}
    (h : Aggregate.onProofVerified cfg.aggregate account d statement a = .ok a') :
    Aggregate.dispatch cfg.aggregate (.onProofVerified account d statement) a =
      .ok (a', .default) := by
  simp only [Aggregate.dispatch, h, unwind_ok, ok_bind]
  rfl

theorem touches_of_effect {k : Settlement} {c : Verifiers.Call A k.Vk k.Proof k.Pubs}
    {v v' : Verifiers.State A k.Vk (AggregateState A X T₁ T₂) T}
    (h : Verifiers.Effect (cfg.verifiers k) v c v') : Touches cfg v.chain v'.chain := by
  cases h with
  | verified _ _ _ hcallback => exact .callback (toOption_eq_some.mp hcallback)
  | registered _ _ _ hticket =>
      obtain ⟨x, hnew, rfl⟩ := Consideration.lift_new_eq_ok.mp hticket
      exact .bought (mapError_eq_ok.mp hnew)
  | switched => exact .nothing
  | unregistered _ hdrop | unregisteredLast _ hdrop =>
      obtain ⟨x, hdrop', rfl⟩ := Consideration.lift_drop_eq_ok.mp hdrop
      exact .dropped (mapError_eq_ok.mp hdrop')

/-- The deposits of the settlement pallets leave the balances held for a reason alone. -/
structure Config.LeavesAlone (cfg : Config A X C T T₁ T₂) (r : RuntimeHoldReason) : Prop where
  bought : ∀ {who fp x t x'}, cfg.vkRegistration.new who fp x = .ok (t, x') →
    ∀ a, (cfg.balances.book x').held r a = (cfg.balances.book x).held r a
  dropped : ∀ {who t x x'}, cfg.vkRegistration.drop t who x = .ok x' →
    ∀ a, (cfg.balances.book x').held r a = (cfg.balances.book x).held r a

section aggregate

variable {watched : Set Aggregate.HoldReason}
  (hwatched : ∀ r ∈ watched, .aggregate r ∈ kept ∧ cfg.LeavesAlone (.aggregate r))

include hwatched

/-- What a settlement call does is a call of the aggregate pallet or a step of its environment. -/
theorem Touches.exec {a a' : AggregateState A X T₁ T₂} (h : Touches cfg a a') :
    ∃ step : Aggregate.Step cfg.aggregate watched, a' = Aggregate.exec a step := by
  have henv : ∀ x, (∀ r ∈ watched, ∀ y, (cfg.balances.book x).held (.aggregate r) y =
      (cfg.balances.book a.chain).held (.aggregate r) y) →
      ∃ step : Aggregate.Step cfg.aggregate watched,
        { a with chain := x } = Aggregate.exec a step := by
    intro x hx
    obtain ⟨e, he⟩ := exists_environment cfg hx
    exact ⟨.environment e, by rw [Aggregate.exec, he]⟩
  cases h with
  | @callback account d statement _ h =>
      refine ⟨.call (.onProofVerified account d statement), ?_⟩
      simp only [Aggregate.exec, dispatch_callback h]
  | bought h => exact henv _ fun r hr => (hwatched r hr).2.bought h
  | dropped h => exact henv _ fun r hr => (hwatched r hr).2.dropped h
  | nothing => exact henv a.chain fun _ _ _ => rfl

/-- Every step of the chain is a call of the aggregate pallet or a step of its environment. -/
theorem aggregate_exec (s : State A X T T₁ T₂) (step : Step cfg kept) :
    ∃ step' : Aggregate.Step cfg.aggregate watched,
      (exec s step).aggregate = Aggregate.exec s.aggregate step' := by
  cases step with
  | environment e =>
      exact ⟨.environment ⟨e.act, fun x r hr => e.keeps x _ (hwatched r hr).1⟩, rfl⟩
  | call c =>
      cases c with
      | aggregate c h =>
          refine ⟨.call c, ?_⟩
          cases hok : Aggregate.dispatch cfg.aggregate c s.aggregate with
          | ok result => simp only [exec, Aggregate.exec, hok]
          | error e => simp only [exec, Aggregate.exec, hok]
      | settlement k c =>
          simp only [exec]
          split
          · rename_i v info hok
            exact (touches_of_effect (Verifiers.effect_of_dispatch hok)).exec hwatched
          · exact (Touches.nothing : Touches cfg s.aggregate s.aggregate).exec hwatched

/-- Every run of the chain is a run of the aggregate pallet. -/
theorem aggregate_run (s : State A X T T₁ T₂) (steps : List (Step cfg kept)) :
    ∃ steps' : List (Aggregate.Step cfg.aggregate watched),
      (run s steps).aggregate = Aggregate.run s.aggregate steps' := by
  induction steps using List.reverseRecOn with
  | nil => exact ⟨[], rfl⟩
  | append_singleton steps step ih =>
      obtain ⟨steps', hsteps⟩ := ih
      obtain ⟨step', hstep⟩ := aggregate_exec hwatched (run s steps) step
      refine ⟨steps' ++ [step'], ?_⟩
      rw [run_concat, hstep, Aggregate.run_append, hsteps]
      rfl

end aggregate

omit [DecidableEq A] in
theorem nothing_watched (cfg : Config A X C T T₁ T₂) (kept : Set RuntimeHoldReason) :
    ∀ r ∈ (∅ : Set Aggregate.HoldReason), .aggregate r ∈ kept ∧ cfg.LeavesAlone (.aggregate r) :=
  fun r hr => absurd hr (Set.notMem_empty r)

/-- On the chain the aggregate pallet reaches only states that it reaches by itself. -/
theorem Reachable.aggregate (hs : Reachable cfg kept s) :
    Aggregate.Reachable cfg.aggregate ∅ s.aggregate := by
  obtain ⟨x, steps, rfl⟩ := hs
  obtain ⟨steps', hsteps⟩ := aggregate_run (nothing_watched cfg kept) (.genesis x) steps
  exact ⟨x, steps', hsteps⟩

/-! ## Lawful currencies and deposits -/

/-- The assumptions on the currency of the chain: it is lawful and keeps the reasons apart, and each
of the deposits is held under its own reason. -/
structure Config.Lawful (cfg : Config A X C T T₁ T₂) : Prop where
  balances : cfg.balances.Lawful
  separate : cfg.balances.Separate
  vkRegistration : cfg.vkRegistration.HoldsPrice cfg.balances .commonVerifiers
  domain : cfg.considerationDomain.HoldsPrice cfg.balances (.aggregate .domain)
  allowlist : cfg.considerationAllowList.HoldsPrice cfg.balances (.aggregate .allowlist)

namespace Config.Lawful

theorem aggregate_injective : Function.Injective RuntimeHoldReason.aggregate :=
  fun _ _ h => RuntimeHoldReason.aggregate.inj h

/-- What the aggregate pallet is configured with is lawful. -/
theorem aggregate (hcfg : cfg.Lawful) : cfg.aggregate.Lawful where
  currency := hcfg.balances.view aggregate_injective
  domain := hcfg.domain.view aggregate_injective
  allowlist := hcfg.allowlist.view aggregate_injective

/-- The deposits of the settlement pallets do not touch the holds of the aggregate pallet. -/
theorem leavesAlone (hcfg : cfg.Lawful) (r : Aggregate.HoldReason) :
    cfg.LeavesAlone (.aggregate r) where
  bought := hcfg.vkRegistration.new_held_of_ne (by simp)
  dropped := hcfg.vkRegistration.drop_held_of_ne (by simp)

/-- The aggregate pallet does not touch the deposits of the settlement pallets. -/
theorem keeps (hcfg : cfg.Lawful) :
    cfg.aggregate.Keeps fun x => (cfg.balances.book x).held .commonVerifiers where
  hold := hcfg.separate.keeps_view (by simp)
  domain := hcfg.domain.keeps (by simp)
  allowlist := hcfg.allowlist.keeps (by simp)

end Config.Lawful

/-! ## A chain over the book -/

/-- The key of the sample proof. -/
def sampleKey : Verifiers.Sp1.Vk := Vector.replicate 32 5

/-- Crates that accept a proof for the sample key and two public inputs, and nothing else. -/
def sampleCrates : Verifiers.Crates (Book ℕ RuntimeHoldReason) Unit where
  fflonk := Verifiers.sampleCrates.fflonk
  ultraplonk := Verifiers.sampleCrates.ultraplonk
  ultrahonk := Verifiers.sampleCrates.ultrahonk
  ezkl := Verifiers.sampleCrates.ezkl
  risc0 := Verifiers.sampleCrates.risc0
  sp1 :=
    ⟨2048, fun proof => decide (proof = [9]), fun vk proof pubs =>
      decide (vk = sampleKey ∧ proof = [9] ∧ (pubs = [7, 7] ∨ pubs = [8, 8]))⟩
  plonky2 := Verifiers.sampleCrates.plonky2
  tee :=
    { now := fun _ => 0
      getCrl := fun _ _ => none
      caNameFor := fun _ => []
      quoteIsReadable := fun _ => false
      tcbIsReadable := fun _ => false
      tcbInfoVerify := fun _ _ => false
      quoteVerify := fun _ _ _ _ => false
      attestationIsReadable := fun _ => false
      attestationVerify := fun _ _ _ => false
      tcbIsDecodable := fun _ => false
      tcbResponseVerify := fun _ _ _ _ => false
      intelVerifyProof := ⟨0, 0⟩
      nitroVerifyProof := ⟨0, 0⟩ }

/-- A hash that is easy to compute. -/
def sampleHashing : Hashing := fun _ bytes =>
  let n := bytes.foldl (fun n b => (257 * n + b.toNat + 1) % 65521) 0
  (Vector.replicate 31 (UInt8.ofNat n)).push (UInt8.ofNat (n / 256))

/-- A chain with the sample crates, on which a deposit costs the size of what is stored. -/
def sampleConfig : Config ℕ (Book ℕ RuntimeHoldReason) Unit ℕ ℕ ℕ where
  hashing := sampleHashing
  crates := sampleCrates
  ark := Verifiers.Groth16.sampleArk
  balances := Book.fungible 1
  vkRegistration := Book.consideration .commonVerifiers Footprint.size
  considerationDomain := Book.consideration (.aggregate .domain) Footprint.size
  considerationAllowList := Book.consideration (.aggregate .allowlist) Footprint.count
  estimateCallFee _ _ := 20
  aggregateWeight := ⟨fun _ => ⟨0, 0⟩, ⟨0, 0⟩, ⟨0, 0⟩⟩
  onProofVerifiedWeight := ⟨0, 0⟩
  settlementWeight _ := ⟨fun _ _ => ⟨0, 0⟩, ⟨0, 0⟩, fun _ => ⟨0, 0⟩, fun _ _ => ⟨0, 0⟩⟩
  dbRead := ⟨0, 0⟩
  onVerifyDisabledVerifier := ⟨0, 0⟩
  encodedSizes := ⟨32, 16, 16⟩
  merkleRoot := Aggregate.binaryRoot sampleHashing
  merkleTree := Aggregate.binaryTree sampleHashing

theorem sampleConfig_lawful : sampleConfig.Lawful where
  balances := Book.fungible_lawful 1
  separate := Book.fungible_separate 1
  vkRegistration := Book.consideration_holdsPrice 1 RuntimeHoldReason.commonVerifiers _
  domain := Book.consideration_holdsPrice 1 (RuntimeHoldReason.aggregate .domain) _
  allowlist := Book.consideration_holdsPrice 1 (RuntimeHoldReason.aggregate .allowlist) _

/-- Every account owns one token, and nothing is on hold or frozen. -/
def sampleBook : Book ℕ RuntimeHoldReason :=
  ⟨fun _ => vfy, fun _ _ => 0, fun _ => 0, fun _ => 0, 1000 * vfy⟩

/-- Account `5` registers a domain for aggregations of two statements. -/
def sampleRegisterDomain (kept : Set RuntimeHoldReason) : Step sampleConfig kept :=
  .call (.aggregate (.registerDomain (.signed 5) 2 none .untrusted .untrusted ⟨.none, 10, 4⟩ none)
    (by simp))

end ZkVerify.Chain
