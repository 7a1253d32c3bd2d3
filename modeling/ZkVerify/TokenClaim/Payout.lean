import ZkVerify.Frame.Entitlements
import ZkVerify.TokenClaim.Payments

/-!
# Every entitlement is paid at most once

A run is observed as a list of transitions, the genesis being the first.  What is observed
of a transition is what the chain shows: whether `ClaimActive` changes, which beneficiaries
a successful call adds, the `Claimed` events, and what leaves the account of the pallet.  A
campaign lasts from a change of `ClaimActive` to true until the change back, which only
`end_claim` makes.

The observations of a run can be replayed on a table of entitlements, where periods are
campaigns; the table is what the pallet stores.  That amounts are paid at most once, and
only those of the current campaign, are facts about such tables.
-/

namespace ZkVerify.TokenClaim

open Frame Frame.Entitlements

variable {A R X Signer Sig : Type} {N : ℕ}

/-! ## Observing a run -/

/-- One transition of a run. -/
structure Transition (A X : Type) (N : ℕ) where
  before : State A X N
  after : State A X N
  /-- The beneficiaries that a successful call adds, with their amounts. -/
  added : List (Beneficiary A × ℕ)
  /-- The account that a successful claim pays. -/
  dest : Option A
  /-- What a successful `end_claim` sends to the destination of unclaimed funds. -/
  swept : ℕ

/-- The beneficiaries and amounts of the `Claimed` events in a list of events. -/
def claimedEvents (events : List (Event A N)) : List (Beneficiary A × ℕ) :=
  events.filterMap fun
    | .claimed b amount => some (b, amount)
    | _ => none

namespace Transition

/-- A campaign begins. -/
def opens (t : Transition A X N) : Bool := !t.before.claimActive && t.after.claimActive

/-- A campaign ends. -/
def ends (t : Transition A X N) : Bool := t.before.claimActive && !t.after.claimActive

/-- The `Claimed` events of the transition. -/
def claimed (t : Transition A X N) : List (Beneficiary A × ℕ) :=
  claimedEvents (t.after.events.drop t.before.events.length)

variable [LinearOrder A]

/-- What leaves the account of the pallet. -/
def leaving (cfg : Config A R X Signer Sig) (t : Transition A X N) : ℕ :=
  (cfg.currency.book t.before.chain).free cfg.palletAccount -
    (cfg.currency.book t.after.chain).free cfg.palletAccount

/-- What is claimed to a destination other than the account of the pallet. -/
def paidOut (cfg : Config A R X Signer Sig) (t : Transition A X N) : ℕ :=
  if t.dest = some cfg.palletAccount then 0 else (t.claimed.map Prod.snd).sum

end Transition

variable [LinearOrder A]

/-- The beneficiaries that a call adds. -/
def Call.additions : Call A Signer Sig N → List (Beneficiary A × ℕ)
  | .beginClaim beneficiaries _ => beneficiaries.entries
  | .addBeneficiaries beneficiaries => beneficiaries.entries
  | _ => []

/-- What a call sends to the destination of unclaimed funds. -/
def Call.sweeps (cfg : Config A R X Signer Sig) (s : State A X N) : Call A Signer Sig N → ℕ
  | .endClaim => if cfg.unclaimedDestination = cfg.palletAccount then 0 else (pot cfg s).1
  | _ => 0

variable {cfg : Config A R X Signer Sig}

/-- A transition that is not a successful call. -/
def silent (s s' : State A X N) : Transition A X N := ⟨s, s', [], none, 0⟩

/-- Observe a step. -/
def transition (s : State A X N) : Step cfg N → Transition A X N
  | .call origin c =>
      match dispatch cfg origin c s with
      | .ok s' => ⟨s, s', c.additions, (c.claims cfg).map Prod.snd, c.sweeps cfg s⟩
      | .error _ => silent s s
  | .onInitialize => silent s (onInitialize cfg s)
  | .environment e => silent s { s with chain := e.act s.chain }

/-- Observe the steps of a run. -/
def transitions (s : State A X N) : List (Step cfg N) → List (Transition A X N)
  | [] => []
  | step :: steps => transition s step :: transitions (exec s step) steps

/-- Observe a run from its genesis. -/
def history (g : GenesisConfig A N) (x : X) (s₀ : State A X N) (steps : List (Step cfg N)) :
    List (Transition A X N) :=
  ⟨.empty x, s₀, (BTreeMap.collect g.beneficiaries.toList).entries, none, 0⟩ ::
    transitions s₀ steps

/-- The amounts that a list has for a beneficiary. -/
def amountsOf (b : Beneficiary A) (l : List (Beneficiary A × ℕ)) : List ℕ :=
  l.filterMap fun e => if e.1 = b then some e.2 else none

/-- The amounts with which a beneficiary was added. -/
def addedFor (b : Beneficiary A) (ts : List (Transition A X N)) : List ℕ :=
  ts.flatMap fun t => amountsOf b t.added

/-- The amounts in the `Claimed` events of a beneficiary. -/
def claimedBy (b : Beneficiary A) (ts : List (Transition A X N)) : List ℕ :=
  ts.flatMap fun t => amountsOf b t.claimed

/-! ## The table of entitlements -/

/-- What the pallet stores, as a table of entitlements. -/
def State.table (s : State A X N) : Table (Beneficiary A) ℕ :=
  ⟨s.claimActive, fun b => s.beneficiaries.lookup b⟩

/-- The acts of a transition.  Without an active claim entries may be removed at any time. -/
def Transition.acts (t : Transition A X N) : List (Act (Beneficiary A) ℕ) :=
  (if t.opens then [.opened] else []) ++ t.added.map (fun e => .added e.1 e.2) ++
    t.claimed.map (fun e => .paid e.1 e.2) ++ (if t.ends then [.ended] else []) ++
    if t.after.claimActive then [] else [.trimmed]

variable {s s' : State A X N} {t : Transition A X N} {ts : List (Transition A X N)}
  {b : Beneficiary A}

theorem State.table_eq {active : Bool} (h : s.claimActive = active) :
    s.table = ⟨active, fun b => s.beneficiaries.lookup b⟩ := by
  rw [State.table, h]

omit [LinearOrder A] in
/-- A choice between acts that do not count does not count. -/
private theorem count_ite (count : List (Act (Beneficiary A) ℕ) → List ℕ) (c : Bool)
    (acts acts' : List (Act (Beneficiary A) ℕ)) (h : count acts = []) (h' : count acts' = []) :
    count (if c then acts else acts') = [] := by
  cases c with
  | true => exact h
  | false => exact h'

private theorem addedTo_acts : addedTo b t.acts = amountsOf b t.added := by
  have hadded : addedTo b (t.added.map fun e => .added e.1 e.2) = amountsOf b t.added := by
    rw [addedTo, List.filterMap_map]
    rfl
  have hclaimed : addedTo b (t.claimed.map fun e => .paid e.1 e.2) = [] := by
    simp [addedTo, List.filterMap_map]
  have hopened := count_ite (addedTo b) t.opens [.opened] [] rfl rfl
  have hended := count_ite (addedTo b) t.ends [.ended] [] rfl rfl
  have htrimmed := count_ite (addedTo b) t.after.claimActive [] [.trimmed] rfl rfl
  simp only [Transition.acts, addedTo_append, hopened, hadded, hclaimed, hended, htrimmed,
    List.nil_append, List.append_nil]

private theorem paidTo_acts : paidTo b t.acts = amountsOf b t.claimed := by
  have hadded : paidTo b (t.added.map fun e => .added e.1 e.2) = [] := by
    simp [paidTo, List.filterMap_map]
  have hclaimed : paidTo b (t.claimed.map fun e => .paid e.1 e.2) = amountsOf b t.claimed := by
    rw [paidTo, List.filterMap_map]
    rfl
  have hopened := count_ite (paidTo b) t.opens [.opened] [] rfl rfl
  have hended := count_ite (paidTo b) t.ends [.ended] [] rfl rfl
  have htrimmed := count_ite (paidTo b) t.after.claimActive [] [.trimmed] rfl rfl
  simp only [Transition.acts, paidTo_append, hopened, hadded, hclaimed, hended, htrimmed,
    List.nil_append, List.append_nil]

private theorem addedTo_flatMap_acts : addedTo b (ts.flatMap Transition.acts) = addedFor b ts := by
  induction ts with
  | nil => rfl
  | cons t ts ih =>
      rw [List.flatMap_cons, addedTo_append, addedTo_acts, ih, addedFor, addedFor,
        List.flatMap_cons]

private theorem paidTo_flatMap_acts : paidTo b (ts.flatMap Transition.acts) = claimedBy b ts := by
  induction ts with
  | nil => rfl
  | cons t ts ih =>
      rw [List.flatMap_cons, paidTo_append, paidTo_acts, ih, claimedBy, claimedBy,
        List.flatMap_cons]

omit [LinearOrder A] in
private theorem ended_mem_acts : .ended ∈ t.acts ↔ t.ends = true := by
  simp only [Transition.acts, List.mem_append, List.mem_map, reduceCtorEq, and_false, exists_false,
    or_false]
  cases t.opens <;> cases t.ends <;> cases t.after.claimActive <;> simp

/-! ## One transition -/

/-- What holds of every transition of a run. -/
structure Transition.Sound (cfg : Config A R X Signer Sig) (t : Transition A X N) : Prop where
  replay : Replay t.before.table t.acts t.after.table
  claimed_active : t.claimed ≠ [] → t.before.claimActive = true ∧ t.after.claimActive = true
  leaving_eq : t.leaving cfg = t.paidOut cfg + t.swept

/-- The loop over the new beneficiaries adds one entitlement after the other. -/
theorem replay_of_foldlM {available : ℕ} (havailable : available < u128Max)
    {entries : List (Beneficiary A × ℕ)} {acc acc' : ℕ × Finmap fun _ : Beneficiary A => ℕ}
    (h : entries.foldlM (addBeneficiary available) acc = .ok acc') :
    Replay ⟨true, fun b => acc.2.lookup b⟩ (entries.map fun e => .added e.1 e.2)
      ⟨true, fun b => acc'.2.lookup b⟩ := by
  induction entries generalizing acc with
  | nil =>
      cases h
      exact .nil _
  | cons entry entries ih =>
      rw [List.foldlM_cons] at h
      obtain ⟨middle, hround, hrest⟩ := seq_eq_ok.mp h
      obtain ⟨hnew, -, -, rfl⟩ := (addBeneficiary_eq_ok havailable).mp hround
      have hrest := ih hrest
      rw [Finmap.lookup_insert_eq_update] at hrest
      exact .cons (.added rfl (Finmap.lookup_eq_none.mpr hnew)) hrest

variable {c : Call A Signer Sig N}

omit [LinearOrder A] in
private theorem claimed_of_events {t : Transition A X N} {new : List (Event A N)}
    (h : t.after.events = t.before.events ++ new) : t.claimed = claimedEvents new := by
  rw [Transition.claimed, h, List.drop_left]

/-- A transition that leaves the claim and the table alone and deposits at most. -/
private theorem sound_silent (hactive : s'.claimActive = s.claimActive)
    (hbeneficiaries : s'.beneficiaries = s.beneficiaries) (hevents : s'.events = s.events)
    (hfree : (cfg.currency.book s.chain).free cfg.palletAccount ≤
      (cfg.currency.book s'.chain).free cfg.palletAccount) : (silent s s').Sound cfg := by
  have hclaimed : (silent s s').claimed = [] :=
    claimed_of_events (t := silent s s') (hevents.trans (List.append_nil _).symm)
  refine ⟨?_, fun h => absurd hclaimed h, ?_⟩
  · have htable : s'.table = s.table := by
      rw [State.table, hactive, hbeneficiaries, State.table]
    cases hstate : s.claimActive with
    | true =>
        have hacts : (silent s s').acts = [] := by
          rw [Transition.acts, hclaimed]
          simp [Transition.opens, Transition.ends, silent, hactive, hstate]
        rw [hacts, silent, htable]
        exact .nil _
    | false =>
        have hacts : (silent s s').acts = [.trimmed] := by
          rw [Transition.acts, hclaimed]
          simp [Transition.opens, Transition.ends, silent, hactive, hstate]
        rw [hacts, silent, htable, State.table_eq hstate]
        exact .cons (.trimmed rfl fun _ _ h => h) (.nil _)
  · rw [Transition.paidOut, hclaimed]
    simp only [Transition.leaving, silent, List.map_nil, List.sum_nil, ite_self]
    omega

/-- A transition that adds beneficiaries to an active or a new claim. -/
private theorem sound_added (hC : cfg.currency.Lawful) {entries : List (Beneficiary A × ℕ)}
    {required : ℕ} {stored : Finmap fun _ : Beneficiary A => ℕ} {new : List (Event A N)}
    (hadd : addAll cfg entries s = .ok (required, stored))
    (hcleared : s.claimActive = false → s.beneficiaries = ∅) (hactive : s'.claimActive = true)
    (hstored : s'.beneficiaries = stored) (hevents : s'.events = s.events ++ new)
    (hnew : claimedEvents new = []) (hchain : s'.chain = s.chain) :
    (⟨s, s', entries, none, 0⟩ : Transition A X N).Sound cfg := by
  set t : Transition A X N := ⟨s, s', entries, none, 0⟩ with ht
  have hclaimed : t.claimed = [] := (claimed_of_events hevents).trans hnew
  have hloop := replay_of_foldlM (available_lt hC s) hadd
  have htable : s'.table = ⟨true, fun b => stored.lookup b⟩ := by
    rw [State.table_eq hactive, hstored]
  refine ⟨?_, fun h => absurd hclaimed h, ?_⟩
  · cases hstate : s.claimActive with
    | true =>
        have hacts : t.acts = entries.map fun e => .added e.1 e.2 := by
          rw [Transition.acts, hclaimed]
          simp [ht, Transition.opens, Transition.ends, hactive, hstate]
        rw [hacts, ht, htable, State.table_eq hstate]
        exact hloop
    | false =>
        have hacts : t.acts = .opened :: entries.map fun e => .added e.1 e.2 := by
          rw [Transition.acts, hclaimed]
          simp [ht, Transition.opens, Transition.ends, hactive, hstate]
        rw [hacts, ht, htable]
        have hnone : ∀ b, s.beneficiaries.lookup b = none := by
          intro b
          rw [hcleared hstate, Finmap.lookup_empty]
        exact .cons (.opened hstate hnone) hloop
  · rw [Transition.paidOut, hclaimed]
    simp [ht, Transition.leaving, hchain]

private theorem claims_only {dest : A} (h : c.claims cfg = some (b, dest)) :
    c.additions = [] ∧ c.sweeps cfg s = 0 := by
  cases c with
  | claim | claimFor | claimEthereum | claimEthereumFor => exact ⟨rfl, rfl⟩
  | _ => cases h

/-- A transition that pays a beneficiary. -/
private theorem sound_claimed (hC : cfg.currency.Lawful) (hsolvent : Solvent cfg s)
    (hactive : s.claimActive = true) {dest : A} {amount : ℕ} {chain : X}
    (hlookup : s.beneficiaries.lookup b = some amount)
    (htransfer : cfg.currency.transfer (s.account cfg) dest amount .preserve s.chain =
      .ok chain) :
    (⟨s, { s with
        beneficiaries := s.beneficiaries.erase b
        totalClaimable := s.totalClaimable - amount
        palletAccountId := some (s.account cfg)
        events := s.events ++ [.claimed b amount]
        chain := chain }, [], some dest, 0⟩ : Transition A X N).Sound cfg := by
  set t : Transition A X N := ⟨s, _, [], some dest, 0⟩ with ht
  have hclaimed : t.claimed = [(b, amount)] := claimed_of_events (t := t) rfl
  obtain ⟨hreducible, -, hbook⟩ := hC.transfer_ok htransfer
  rw [hsolvent.account_eq] at hreducible hbook
  refine ⟨?_, fun _ => ⟨hactive, hactive⟩, ?_⟩
  · have hacts : t.acts = [.paid b amount] := by
      rw [Transition.acts, hclaimed]
      simp [ht, Transition.opens, Transition.ends, hactive]
    have htable : t.after.table =
        ⟨true, Function.update (fun j => s.beneficiaries.lookup j) b none⟩ := by
      rw [← Finmap.lookup_erase_eq_update]
      exact State.table_eq hactive
    rw [hacts, htable]
    exact .cons (.paid hactive hlookup) (.nil _)
  · -- A payment to the account itself leaves nothing.
    have hle : amount ≤ (cfg.currency.book s.chain).free cfg.palletAccount :=
      hreducible.trans Book.reducible_le_free
    rw [Transition.paidOut, hclaimed]
    simp only [ht, Transition.leaving, hbook, Option.some.injEq, List.map_cons, List.map_nil,
      List.sum_cons, List.sum_nil, Nat.add_zero]
    by_cases hself : dest = cfg.palletAccount
    · subst hself
      rw [if_pos rfl, Book.free_move_self, Nat.sub_self]
    · rw [if_neg hself, Book.free_move_source (Ne.symm hself)]
      omega

/-- The transition that ends a claim. -/
private theorem sound_ended (hC : cfg.currency.Lawful) (hsolvent : Solvent cfg s)
    (hactive : s.claimActive = true) {claimId : ℕ × ClaimMessage N} {chain : X}
    (hswept : if cfg.unclaimedDestination = s.account cfg then chain = s.chain
      else cfg.currency.transfer (s.account cfg) cfg.unclaimedDestination (s.available cfg)
        .preserve s.chain = .ok chain) :
    (⟨s, { s with
        totalClaimable := 0
        claimActive := false
        palletAccountId := some (s.account cfg)
        events := s.events ++ [.claimEnded claimId.1 claimId.2]
        chain := chain }, [], none,
      Call.sweeps cfg s (.endClaim : Call A Signer Sig N)⟩ : Transition A X N).Sound cfg := by
  set t : Transition A X N := ⟨s, _, [], none, _⟩ with ht
  have hclaimed : t.claimed = [] := claimed_of_events (t := t) rfl
  refine ⟨?_, fun h => absurd hclaimed h, ?_⟩
  · have hacts : t.acts = [.ended, .trimmed] := by
      rw [Transition.acts, hclaimed]
      simp [ht, Transition.opens, Transition.ends, hactive]
    rw [hacts]
    exact .cons (.ended hactive) (.cons (.trimmed rfl fun _ _ h => h) (.nil _))
  · rw [Transition.paidOut, hclaimed]
    simp only [ht, Transition.leaving, Call.sweeps, pot_eq, List.map_nil, List.sum_nil, ite_self,
      Nat.zero_add]
    rw [hsolvent.account_eq] at hswept
    split at hswept
    · rename_i hself
      rw [hswept, if_pos hself, Nat.sub_self]
    · rename_i hself
      obtain ⟨hreducible, -, hbook⟩ := hC.transfer_ok hswept
      have hle := hreducible.trans Book.reducible_le_free
      rw [hbook, if_neg hself, Book.free_move_source (Ne.symm hself)]
      omega

/-- The transition that removes beneficiaries of the last claim. -/
private theorem sound_removed (hinactive : s.claimActive = false)
    {remaining : Finmap fun _ : Beneficiary A => ℕ} {events : List (Event A N)}
    (hremaining : ∀ b amount, remaining.lookup b = some amount →
      s.beneficiaries.lookup b = some amount)
    (hevents : ∀ b amount, .claimed b amount ∉ events) :
    (⟨s, { s with beneficiaries := remaining, events := s.events ++ events }, [], none, 0⟩ :
      Transition A X N).Sound cfg := by
  set t : Transition A X N := ⟨s, _, [], none, 0⟩ with ht
  have hclaimed : t.claimed = [] := by
    rw [claimed_of_events (t := t) rfl, claimedEvents, List.filterMap_eq_nil_iff]
    intro event hmem
    cases event with
    | claimed b amount => exact absurd hmem (hevents b amount)
    | _ => rfl
  refine ⟨?_, fun h => absurd hclaimed h, ?_⟩
  · have hacts : t.acts = [.trimmed] := by
      rw [Transition.acts, hclaimed]
      simp [ht, Transition.opens, Transition.ends, hinactive]
    have htable : t.after.table = ⟨false, fun b => remaining.lookup b⟩ := State.table_eq hinactive
    rw [hacts, htable]
    exact .cons (.trimmed hinactive hremaining) (.nil _)
  · rw [Transition.paidOut, hclaimed]
    simp [ht, Transition.leaving]

/-- Every successful call of a solvent state. -/
theorem Effect.sound (hC : cfg.currency.Lawful) (hsolvent : Solvent cfg s)
    (h : Effect cfg s c s') :
    (⟨s, s', c.additions, (c.claims cfg).map Prod.snd, c.sweeps cfg s⟩ :
      Transition A X N).Sound cfg := by
  cases h with
  | @begun bs message required stored id claimId hcleared hinactive hlen hadd hid hclaimId =>
      exact sound_added hC hadd (fun _ => hcleared) rfl rfl rfl rfl rfl
  | @added bs required stored id hactive hlen hadd hid =>
      exact sound_added hC hadd (fun hinactive => Bool.noConfusion (hactive.symm.trans hinactive))
        hactive rfl (List.append_nil _).symm rfl rfl
  | @claimed _ b dest amount chain hclaims hactive hlookup havailable htransfer =>
      obtain ⟨hadditions, hsweeps⟩ := claims_only (s := s) hclaims
      rw [hadditions, hsweeps, hclaims]
      exact sound_claimed hC hsolvent hactive hlookup htransfer
  | @ended claimId chain hactive hclaimId hswept =>
      exact sound_ended hC hsolvent hactive hswept
  | @removed limit events remaining hinactive hremaining hcard hevents =>
      exact sound_removed hinactive hremaining hevents

/-- Every transition from a solvent state. -/
theorem transition_sound (hC : cfg.currency.Lawful) (hsolvent : Solvent cfg s)
    (step : Step cfg N) : (transition s step).Sound cfg := by
  cases step with
  | call origin c =>
      simp only [transition]
      split
      · rename_i s' hok
        exact (effect_of_dispatch hok).sound hC hsolvent
      · exact sound_silent rfl rfl rfl le_rfl
  | onInitialize =>
      obtain ⟨chain, heq, hchain⟩ := onInitialize_eq cfg s
      simp only [transition, heq]
      refine sound_silent rfl rfl rfl ?_
      rcases hchain with rfl | hmint
      · exact le_rfl
      · rw [hC.mint_ok hmint]
        exact Nat.le_add_right _ _
  | environment e => exact sound_silent rfl rfl rfl (e.free_le s.chain)

/-! ## Whole runs -/

theorem transition_before (s : State A X N) (step : Step cfg N) :
    (transition s step).before = s := by
  cases step with
  | call origin c =>
      simp only [transition]
      cases dispatch cfg origin c s <;> rfl
  | onInitialize => rfl
  | environment e => rfl

theorem transition_after (s : State A X N) (step : Step cfg N) :
    (transition s step).after = exec s step := by
  cases step with
  | call origin c =>
      simp only [transition, exec]
      cases dispatch cfg origin c s <;> rfl
  | onInitialize => rfl
  | environment e => rfl

theorem transitions_sound (hC : cfg.currency.Lawful) (hsolvent : Solvent cfg s)
    (steps : List (Step cfg N)) : (∀ t ∈ transitions s steps, t.Sound cfg) ∧
      Replay s.table ((transitions s steps).flatMap Transition.acts) (run s steps).table := by
  induction steps generalizing s with
  | nil => exact ⟨fun _ hmem => absurd hmem List.not_mem_nil, .nil _⟩
  | cons step steps ih =>
      have hsound := transition_sound hC hsolvent step
      obtain ⟨hrest, hreplay⟩ := ih (hsolvent.run hC [step])
      refine ⟨List.forall_mem_cons.mpr ⟨hsound, hrest⟩, ?_⟩
      have hfirst := hsound.replay
      rw [transition_before, transition_after] at hfirst
      exact hfirst.append hreplay

/-- The genesis is a transition like the others. -/
theorem genesis_sound (hC : cfg.currency.Lawful) {g : GenesisConfig A N} {x : X}
    (hbuild : g.build cfg x = .ok s) :
    (⟨.empty x, s, (BTreeMap.collect g.beneficiaries.toList).entries, none, 0⟩ :
      Transition A X N).Sound cfg := by
  obtain ⟨-, ⟨hnil, rfl⟩ | ⟨required, stored, -, hadd, rfl⟩⟩ := build_eq_ok hbuild
  · rw [hnil]
    exact sound_silent rfl rfl rfl le_rfl
  · exact sound_added hC hadd (fun _ => rfl) rfl rfl (List.append_nil _).symm rfl rfl

theorem history_sound (hC : cfg.currency.Lawful) {g : GenesisConfig A N} {x : X}
    (hbuild : g.build cfg x = .ok s) (steps : List (Step cfg N)) :
    (∀ t ∈ history g x s steps, t.Sound cfg) ∧
      Replay (State.empty x : State A X N).table
        ((history g x s steps).flatMap Transition.acts) (run s steps).table := by
  have hfirst := genesis_sound hC hbuild
  obtain ⟨hrest, hreplay⟩ := transitions_sound hC (.build hC hbuild) steps
  exact ⟨List.forall_mem_cons.mpr ⟨hfirst, hrest⟩, hfirst.replay.append hreplay⟩

section Campaigns

variable {before after : Table (Beneficiary A) ℕ} {first second third : List (Transition A X N)}

/-- The acts of a part of a history can be replayed. -/
private theorem replay_middle
    (h : Replay before ((first ++ second ++ third).flatMap Transition.acts) after) :
    ∃ t t', Replay t (second.flatMap Transition.acts) t' := by
  rw [List.flatMap_append, List.flatMap_append] at h
  obtain ⟨t', h, -⟩ := h.split
  obtain ⟨t, -, h⟩ := h.split
  exact ⟨t, t', h⟩

/-- In a campaign the amounts claimed are an initial part of those added. -/
private theorem campaign_prefix {opening : Transition A X N}
    (h : Replay before ((opening :: second).flatMap Transition.acts) after)
    (hopens : opening.opens = true) (hends : ∀ t ∈ second, t.ends = false) :
    claimedBy b (opening :: second) <+: addedFor b (opening :: second) := by
  obtain ⟨hbefore, hafter⟩ : opening.before.claimActive = false ∧
      opening.after.claimActive = true := by
    simpa [Transition.opens] using hopens
  have hended : .ended ∉ (opening :: second).flatMap Transition.acts := by
    intro hmem
    obtain ⟨t, ht, hmem⟩ := List.mem_flatMap.mp hmem
    have hend := ended_mem_acts.mp hmem
    rcases List.mem_cons.mp ht with rfl | ht
    · simp [Transition.ends, hbefore] at hend
    · rw [hends t ht] at hend
      cases hend
  have hacts : ∃ rest, (opening :: second).flatMap Transition.acts = .opened :: rest := by
    rw [List.flatMap_cons, Transition.acts, hopens]
    exact ⟨_, rfl⟩
  rw [← paidTo_flatMap_acts, ← addedTo_flatMap_acts]
  obtain ⟨rest, hrest⟩ := hacts
  rw [hrest] at h hended ⊢
  exact h.paid_prefix (fun hmem => hended (List.mem_cons_of_mem _ hmem)) b

/-- What is claimed after the end of a campaign was added after it. -/
private theorem claimed_after_end {ending : Transition A X N}
    (h : Replay before ((first ++ ending :: second).flatMap Transition.acts) after)
    (hends : ending.ends = true) : (claimedBy b second).Sublist (addedFor b second) := by
  have hafter : ending.after.claimActive = false := by
    have hboth : ending.before.claimActive = true ∧ ending.after.claimActive = false := by
      simpa [Transition.ends] using hends
    exact hboth.2
  rw [List.flatMap_append, List.flatMap_cons] at h
  obtain ⟨_, -, h⟩ := h.split
  obtain ⟨middle, hending, hsecond⟩ := h.split
  have hinactive : middle.active = false := by
    rw [Transition.acts, hafter] at hending
    exact hending.inactive_of_trimmed
  rw [← paidTo_flatMap_acts, ← addedTo_flatMap_acts]
  exact hsecond.paid_sublist hinactive b

end Campaigns

/-- In every run: within a campaign, at any point of it, the amounts a beneficiary has claimed are
an initial part of those with which it was added; nothing is claimed outside a campaign; what is
claimed after a campaign has ended was added after it; and what leaves the account of the pallet is
what was claimed to other accounts and what was swept. -/
theorem entitlement_paid_once (hC : cfg.currency.Lawful) {g : GenesisConfig A N} {x : X}
    (hbuild : g.build cfg x = .ok s) (steps : List (Step cfg N)) :
    (∀ first opening during rest,
      history g x s steps = first ++ opening :: during ++ rest → opening.opens = true →
      (∀ t ∈ during, t.ends = false) →
      ∀ b, claimedBy b (opening :: during) <+: addedFor b (opening :: during)) ∧
    (∀ t ∈ history g x s steps, t.claimed ≠ [] →
      t.before.claimActive = true ∧ t.after.claimActive = true) ∧
    (∀ first ending later, history g x s steps = first ++ ending :: later →
      ending.ends = true → ∀ b, (claimedBy b later).Sublist (addedFor b later)) ∧
    ((history g x s steps).map (Transition.leaving cfg)).sum =
      ((history g x s steps).map (Transition.paidOut cfg)).sum +
        ((history g x s steps).map Transition.swept).sum := by
  obtain ⟨hsound, hreplay⟩ := history_sound hC hbuild steps
  refine ⟨fun first opening during rest hsplit hopens hends b => ?_,
    fun t ht => (hsound t ht).claimed_active, fun first ending later hsplit hends b => ?_, ?_⟩
  · rw [hsplit] at hreplay
    obtain ⟨_, _, hcampaign⟩ := replay_middle hreplay
    exact campaign_prefix hcampaign hopens hends
  · rw [hsplit] at hreplay
    exact claimed_after_end hreplay hends
  · rw [← List.sum_map_add]
    exact congrArg List.sum (List.map_congr_left fun t ht => (hsound t ht).leaving_eq)

/-- The account 1 claims, is added again, claims again, and the campaign ends with the Ethereum
address unpaid. -/
def sampleSteps : List (Step sampleConfig 8) :=
  [.call .none (.claim sampleHolder (sampleMessage.toList, sampleHolder)),
    .call .root (.addBeneficiaries (.collect [(.substrate sampleHolder, 12)])),
    .call .none (.claim sampleHolder (sampleMessage.toList, sampleHolder)),
    .call .root .endClaim]

theorem entitlement_paid_once_sample :
    sampleGenesis.build sampleConfig sampleChain = .ok sampleState ∧
      claimedBy (.substrate 1) (history sampleGenesis sampleChain sampleState sampleSteps) =
        [20, 12] ∧
      ((history sampleGenesis sampleChain sampleState sampleSteps).map
        (Transition.leaving sampleConfig)).sum =
      ((history sampleGenesis sampleChain sampleState sampleSteps).map
        (Transition.paidOut sampleConfig)).sum +
      ((history sampleGenesis sampleChain sampleState sampleSteps).map Transition.swept).sum ∧
      ((history sampleGenesis sampleChain sampleState sampleSteps).map Transition.swept).sum = 58 :=
  ⟨rfl, rfl, (entitlement_paid_once sampleConfig_lawful rfl sampleSteps).2.2.2, rfl⟩

end ZkVerify.TokenClaim
