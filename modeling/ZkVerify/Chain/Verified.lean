import ZkVerify.Aggregate.Announcements
import ZkVerify.Aggregate.Receipts
import ZkVerify.Chain.Runtime

/-!
# From a verified proof to a receipt

`log` is the list of the successful submissions of a run, to whichever settlement pallet, with the
account, the domain and the statement that the settlement pallet hands over to the aggregate
pallet.  The log is not stored anywhere: what the chain shows of it are the events of the ten
pallets.

* `verified_conserved`: the events show all of it.  Each settlement pallet announces its own
  submissions, and the aggregate pallet announces, in the same order, every submission that it
  can do something with.
* `receipt_sound`: the receipts show nothing else.  Every receipt is the Merkle root of statements
  of the log, and each of them stands for a proof that the verifier of its pallet accepted
  against the key that the statement commits to.
-/

namespace ZkVerify.Chain

open Frame

variable {A X C T T₁ T₂ : Type}

/-! ## The log -/

/-- The account of an origin. -/
def signer : RawOrigin A → Option A
  | .signed who => some who
  | _ => none

/-- A successful submission, as it is handed over to the aggregate pallet. -/
structure Verified (A : Type) where
  settlement : Settlement
  account : Option A
  domainId : Option ℕ
  statement : H256

namespace Verified

/-- Whether the aggregate pallet has to announce it: not if an account names no domain. -/
def isAnnounced (v : Verified A) : Bool := v.account.isNone || v.domainId.isSome

/-- Whether it is to be aggregated in the domain `d`. -/
def isFor (d : ℕ) (v : Verified A) : Bool := v.account.isSome && decide (v.domainId = some d)

theorem isFor_eq_true {d : ℕ} {v : Verified A} :
    v.isFor d = true ↔ v.account ≠ none ∧ v.domainId = some d := by
  rw [isFor, Bool.and_eq_true, Option.isSome_iff_ne_none, decide_eq_true_iff]

end Verified

variable [DecidableEq A] {cfg : Config A X C T T₁ T₂} {kept : Set RuntimeHoldReason}
  {s : State A X T T₁ T₂} {step : Step cfg kept} {v : Verified A}

/-- The submission that a step makes, if it makes one and succeeds. -/
def verified (s : State A X T T₁ T₂) : Step cfg kept → List (Verified A)
  | .call (.settlement k (.submitProof origin vkOrHash proof pubs domainId)) =>
      match Verifiers.submitProof (cfg.verifiers k) origin vkOrHash proof pubs domainId
          (s.view k) with
      | .ok _ => [⟨k, signer origin, domainId,
          Verifiers.computeStatementHash cfg.hashing (cfg.verifier k) vkOrHash proof pubs⟩]
      | .error _ => []
  | _ => []

/-- The successful submissions of a run. -/
def log (s : State A X T T₁ T₂) : List (Step cfg kept) → List (Verified A)
  | [] => []
  | step :: steps => verified s step ++ log (exec s step) steps

theorem mem_log {steps : List (Step cfg kept)} :
    v ∈ log s steps ↔
      ∃ before step after, steps = before ++ step :: after ∧ v ∈ verified (run s before) step := by
  induction steps generalizing s with
  | nil => simp [log]
  | cons step steps ih =>
      rw [log, List.mem_append, ih]
      constructor
      · rintro (hmem | ⟨before, step', after, rfl, hmem⟩)
        · exact ⟨[], step, steps, rfl, hmem⟩
        · exact ⟨step :: before, step', after, rfl, hmem⟩
      · rintro ⟨before, step', after, hsteps, hmem⟩
        cases before with
        | nil =>
            cases hsteps
            exact .inl hmem
        | cons first before =>
            cases hsteps
            exact .inr ⟨before, step', after, rfl, hmem⟩

/-! ## What a submission does -/

/-- The verifier of the pallet accepts the proof that the step submits, against a key that the chain
knows or that is valid, and the statement commits to this key and to the public inputs. -/
def Proven (s : State A X T T₁ T₂) (step : Step cfg kept) (v : Verified A) : Prop :=
  ∃ origin vkOrHash proof pubs vk weight,
    step = .call (.settlement v.settlement
      (.submitProof origin vkOrHash proof pubs v.domainId)) ∧
    v.account = signer origin ∧
    Verifiers.resolveVk (cfg.verifiers v.settlement) vkOrHash (s.view v.settlement) = .ok vk ∧
    (cfg.verifier v.settlement).verifyProof vk proof pubs s.aggregate = .ok weight ∧
    v.statement = cfg.hashing .keccak256 (Verifiers.statementPreimage cfg.hashing
      (cfg.verifier v.settlement) ((cfg.verifier v.settlement).vkHash vk) proof pubs)

omit [DecidableEq A] in
private theorem ensureSignedOrRoot_eq_ok {E P : Type} {origin : RawOrigin A} {account : Option A}
    (h : (ensureSignedOrRoot origin : Except (Abort E P) (Option A)) = .ok account) :
    account = signer origin := by
  cases origin <;> cases h <;> rfl

/-- What a successful submission found and did. -/
theorem submitProof_spec {k : Settlement} {origin : RawOrigin A}
    {vkOrHash : Verifiers.VkOrHash k.Vk} {proof : k.Proof} {pubs : k.Pubs} {domainId : Option ℕ}
    {w w' : Verifiers.State A k.Vk (AggregateState A X T₁ T₂) T} {info : PostDispatchInfo}
    (h : Verifiers.submitProof (cfg.verifiers k) origin vkOrHash proof pubs domainId w =
      .ok (w', info)) :
    (∃ vk weight, Verifiers.resolveVk (cfg.verifiers k) vkOrHash w = .ok vk ∧
        (cfg.verifier k).verifyProof vk proof pubs w.chain = .ok weight) ∧
      Aggregate.onProofVerified cfg.aggregate (signer origin) domainId
        (Verifiers.computeStatementHash cfg.hashing (cfg.verifier k) vkOrHash proof pubs) w.chain =
          .ok w'.chain ∧
      w'.events = w.events ++ [.proofVerified
        (Verifiers.computeStatementHash cfg.hashing (cfg.verifier k) vkOrHash proof pubs)] := by
  unfold Verifiers.submitProof at h
  obtain ⟨_, -, h⟩ := seq_eq_ok.mp h
  obtain ⟨vk, hresolve, h⟩ := seq_eq_ok.mp h
  obtain ⟨account, horigin, h⟩ := seq_eq_ok.mp h
  obtain ⟨weight, hverify, h⟩ := seq_eq_ok.mp h
  obtain ⟨a, hcallback, h⟩ := seq_eq_ok.mp h
  cases h
  obtain rfl := ensureSignedOrRoot_eq_ok horigin
  exact ⟨⟨vk, weight, hresolve, Verifiers.check_eq_ok.mp hverify⟩,
    toOption_eq_some.mp (okOr_eq_ok.mp hcallback), rfl⟩

/-- What is in the log was submitted, and the verifier accepted it. -/
theorem mem_verified (h : v ∈ verified s step) :
    ∃ k origin vkOrHash proof pubs domainId vk weight,
      step = .call (.settlement k (.submitProof origin vkOrHash proof pubs domainId)) ∧
      v = ⟨k, signer origin, domainId,
        Verifiers.computeStatementHash cfg.hashing (cfg.verifier k) vkOrHash proof pubs⟩ ∧
      Verifiers.resolveVk (cfg.verifiers k) vkOrHash (s.view k) = .ok vk ∧
      (cfg.verifier k).verifyProof vk proof pubs s.aggregate = .ok weight := by
  unfold verified at h
  split at h
  · rename_i k origin vkOrHash proof pubs domainId
    split at h
    · rename_i result hok
      obtain ⟨⟨vk, weight, hresolve, hverify⟩, -⟩ := submitProof_spec hok
      exact ⟨k, origin, vkOrHash, proof, pubs, domainId, vk, weight, rfl,
        List.mem_singleton.mp h, hresolve, hverify⟩
    · cases h
  · cases h

theorem proven_of_mem_verified (hs : Reachable cfg kept s) (h : v ∈ verified s step) :
    Proven s step v := by
  obtain ⟨k, origin, vkOrHash, proof, pubs, domainId, vk, weight, rfl, rfl, hresolve, hverify⟩ :=
    mem_verified h
  refine ⟨origin, vkOrHash, proof, pubs, vk, weight, rfl, rfl, hresolve, hverify, ?_⟩
  have hhash : vkOrHash.toHash (cfg.verifier k) = (cfg.verifier k).vkHash vk :=
    Verifiers.resolveVk_hash (hs.view k) hresolve
  rw [← hhash]
  exact Verifiers.computeStatementHash_eq _ _ _ _

/-- A settlement call that is no submission leaves the storage of the aggregate pallet alone. -/
theorem events_of_effect {k : Settlement} {c : Verifiers.Call A k.Vk k.Proof k.Pubs}
    {w w' : Verifiers.State A k.Vk (AggregateState A X T₁ T₂) T}
    (h : Verifiers.Effect (cfg.verifiers k) w c w')
    (hc : ∀ origin vkOrHash proof pubs d, c ≠ .submitProof origin vkOrHash proof pubs d) :
    w'.chain.events = w.chain.events := by
  cases h with
  | verified => exact absurd rfl (hc _ _ _ _ _)
  | registered _ _ _ hticket =>
      obtain ⟨x, -, rfl⟩ := Consideration.lift_new_eq_ok.mp hticket
      rfl
  | switched => rfl
  | unregistered _ hdrop | unregisteredLast _ hdrop =>
      obtain ⟨x, -, rfl⟩ := Consideration.lift_drop_eq_ok.mp hdrop
      rfl

/-- A step makes a submission, which is handed over to the aggregate pallet, or no proof is
announced. -/
theorem exec_cases (hrep : Aggregate.Represented s.aggregate) (step : Step cfg kept) :
    (∃ v, verified s step = [v] ∧ Aggregate.onProofVerified cfg.aggregate v.account v.domainId
        v.statement s.aggregate = .ok (exec s step).aggregate) ∨
      (verified s step = [] ∧ ∃ events, (exec s step).aggregate.events =
        s.aggregate.events ++ events ∧ Aggregate.announced events = []) := by
  cases step with
  | environment e => exact .inr ⟨rfl, [], (List.append_nil _).symm, rfl⟩
  | call c =>
      cases c with
      | aggregate c hc =>
          right
          cases hok : Aggregate.dispatch cfg.aggregate c s.aggregate with
          | error e =>
              refine ⟨rfl, [], ?_, rfl⟩
              simp only [exec, hok, List.append_nil]
          | ok result =>
              refine ⟨rfl, ?_⟩
              simp only [exec, hok]
              exact Aggregate.effect_announces_nothing hrep (Aggregate.effect_of_dispatch hok) hc
      | settlement k c =>
          cases hok : Verifiers.dispatch (cfg.verifiers k) c (s.view k) with
          | error e =>
              refine .inr ⟨?_, [], by simp only [exec, hok, List.append_nil], rfl⟩
              cases c with
              | submitProof =>
                  simp only [Verifiers.dispatch] at hok
                  simp only [verified, hok]
              | registerVk | disable | unregisterVk => rfl
          | ok result =>
              have heffect := Verifiers.effect_of_dispatch hok
              cases c with
              | submitProof origin vkOrHash proof pubs domainId =>
                  left
                  obtain ⟨-, hcallback, -⟩ := submitProof_spec hok
                  simp only [exec, hok]
                  simp only [Verifiers.dispatch] at hok
                  simp only [verified, hok]
                  exact ⟨_, rfl, hcallback⟩
              | registerVk | disable | unregisterVk =>
                  refine .inr ⟨rfl, [], ?_, rfl⟩
                  simp only [exec, hok, List.append_nil]
                  exact events_of_effect heffect (by simp)

/-! ## What the aggregate pallet announces -/

/-- The events announce the submissions: all that have to be announced, in the same order, and as
aggregated in a domain only those that are for it. -/
structure Announces (submissions : List (Verified A)) (events : List Aggregate.Event) : Prop where
  announced : Aggregate.announced events =
    (submissions.filter Verified.isAnnounced).map Verified.statement
  accepted : ∀ d, (Aggregate.accepted d events).Sublist
    ((submissions.filter (Verified.isFor d)).map Verified.statement)

namespace Announces

omit [DecidableEq A] in
theorem nil {events : List Aggregate.Event} (h : Aggregate.announced events = []) :
    Announces ([] : List (Verified A)) events :=
  ⟨h, fun d => by rw [Aggregate.accepted_of_announced_eq_nil h]; exact List.nil_sublist _⟩

omit [DecidableEq A] in
theorem append {first second : List (Verified A)} {events events' : List Aggregate.Event}
    (h : Announces first events) (h' : Announces second events') :
    Announces (first ++ second) (events ++ events') where
  announced := by
    rw [Aggregate.announced_append, h.announced, h'.announced, List.filter_append, List.map_append]
  accepted := fun d => by
    rw [Aggregate.accepted_append, List.filter_append, List.map_append]
    exact (h.accepted d).append (h'.accepted d)

/-- What the callback announces. -/
theorem callback {a a' : AggregateState A X T₁ T₂} (hrep : Aggregate.Represented a)
    (h : Aggregate.onProofVerified cfg.aggregate v.account v.domainId v.statement a = .ok a') :
    ∃ events, a'.events = a.events ++ events ∧ Announces [v] events := by
  obtain ⟨events, hevents, hannounced, haccepted⟩ := Aggregate.onProofVerified_announces hrep h
  refine ⟨events, hevents, ?_, fun d => ?_⟩
  · obtain ⟨k, account, d, statement⟩ := v
    rw [hannounced]
    cases account <;> cases d <;> rfl
  · have hd := haccepted d
    obtain ⟨k, account, d', statement⟩ := v
    cases account with
    | none => simpa [Aggregate.candidate, Verified.isFor] using hd
    | some who =>
        by_cases h : d' = some d <;> simpa [Aggregate.candidate, Verified.isFor, h] using hd

end Announces

/-- A run announces its submissions. -/
theorem run_announces (hrep : Aggregate.Represented s.aggregate) (steps : List (Step cfg kept)) :
    ∃ events, (run s steps).aggregate.events = s.aggregate.events ++ events ∧
      Announces (log s steps) events := by
  induction steps generalizing s with
  | nil => exact ⟨[], (List.append_nil _).symm, .nil rfl⟩
  | cons step steps ih =>
      have hrep' : Aggregate.Represented (exec s step).aggregate := by
        obtain ⟨step', hstep⟩ := aggregate_exec (nothing_watched cfg kept) s step
        rw [hstep]
        exact Aggregate.represented_run hrep [step']
      have hstep : ∃ events, (exec s step).aggregate.events = s.aggregate.events ++ events ∧
          Announces (verified s step) events := by
        rcases exec_cases hrep step with ⟨v, hv, hcallback⟩ | ⟨hnone, events, hevents, hquiet⟩
        · rw [hv]
          exact Announces.callback hrep hcallback
        · rw [hnone]
          exact ⟨events, hevents, .nil hquiet⟩
      obtain ⟨events, hevents, hannounces⟩ := hstep
      obtain ⟨events', hevents', hannounces'⟩ := ih hrep'
      refine ⟨events ++ events', ?_, hannounces.append hannounces'⟩
      rw [run_cons, hevents', hevents, List.append_assoc]

/-! ## What the settlement pallets announce -/

/-- The statements that a settlement pallet announces as verified, in order. -/
def proofVerifieds (events : List Verifiers.Event) : List H256 :=
  events.filterMap fun
    | .proofVerified statement => some statement
    | _ => none

theorem proofVerifieds_append (events events' : List Verifiers.Event) :
    proofVerifieds (events ++ events') = proofVerifieds events ++ proofVerifieds events' :=
  List.filterMap_append

/-- A settlement call that is no submission announces no proof. -/
theorem proofVerifieds_of_effect {k : Settlement} {c : Verifiers.Call A k.Vk k.Proof k.Pubs}
    {w w' : Verifiers.State A k.Vk (AggregateState A X T₁ T₂) T}
    (h : Verifiers.Effect (cfg.verifiers k) w c w')
    (hc : ∀ origin vkOrHash proof pubs d, c ≠ .submitProof origin vkOrHash proof pubs d) :
    proofVerifieds w'.events = proofVerifieds w.events := by
  cases h with
  | verified => exact absurd rfl (hc _ _ _ _ _)
  | registered | unregisteredLast => exact (proofVerifieds_append _ _).trans (List.append_nil _)
  | switched | unregistered => rfl

/-- A pallet announces its own submissions and no others. -/
theorem exec_proofVerifieds (k : Settlement) (step : Step cfg kept) :
    proofVerifieds ((exec s step).view k).events = proofVerifieds (s.view k).events ++
      ((verified s step).filter fun v => v.settlement = k).map Verified.statement := by
  -- A step that makes no submission, and does not touch the announcements.
  have hnone : ∀ s' : State A X T T₁ T₂,
      proofVerifieds (s'.view k).events = proofVerifieds (s.view k).events →
      proofVerifieds (s'.view k).events = proofVerifieds (s.view k).events ++
        (([] : List (Verified A)).filter fun v => v.settlement = k).map Verified.statement :=
    fun s' h => by rw [h]; exact (List.append_nil _).symm
  cases step with
  | environment e => exact hnone _ rfl
  | call c =>
      cases c with
      | aggregate c hc =>
          simp only [exec, verified]
          split
          · exact hnone _ rfl
          · exact hnone _ rfl
      | settlement j c =>
          cases hok : Verifiers.dispatch (cfg.verifiers j) c (s.view j) with
          | error e =>
              have hempty : verified s (.call (.settlement j c) : Step cfg kept) = [] := by
                cases c with
                | submitProof =>
                    simp only [Verifiers.dispatch] at hok
                    simp only [verified, hok]
                | registerVk | disable | unregisterVk => rfl
              rw [hempty]
              simp only [exec, hok]
              exact hnone s rfl
          | ok result =>
              have heffect := Verifiers.effect_of_dispatch hok
              have hexec : exec s (.call (.settlement j c) : Step cfg kept) = s.put j result.1 := by
                simp only [exec, hok]
              rw [hexec]
              by_cases hj : k = j
              · subst hj
                cases c with
                | submitProof =>
                    obtain ⟨-, -, hevents⟩ := submitProof_spec hok
                    simp only [Verifiers.dispatch] at hok
                    rw [State.view_put, hevents, proofVerifieds_append]
                    simp [verified, hok, proofVerifieds]
                | registerVk | disable | unregisterVk =>
                    refine hnone _ ?_
                    rw [State.view_put]
                    exact proofVerifieds_of_effect heffect (by simp)
              · -- The submission is announced by another pallet.
                have hother : (verified s (.call (.settlement j c) : Step cfg kept)).filter
                    (fun v => v.settlement = k) = [] := by
                  cases c with
                  | submitProof =>
                      simp only [Verifiers.dispatch] at hok
                      simp [verified, hok, Ne.symm hj]
                  | registerVk | disable | unregisterVk => rfl
                rw [hother]
                refine hnone _ ?_
                rw [State.view_put_of_ne hj]

theorem run_proofVerifieds (k : Settlement) (steps : List (Step cfg kept)) :
    proofVerifieds ((run s steps).view k).events = proofVerifieds (s.view k).events ++
      ((log s steps).filter fun v => v.settlement = k).map Verified.statement := by
  induction steps generalizing s with
  | nil => exact (List.append_nil _).symm
  | cons step steps ih =>
      rw [run_cons, ih, exec_proofVerifieds, log, List.filter_append, List.map_append,
        List.append_assoc]

/-! ## Conservation and soundness -/

/-- The statements under the ids of an aggregation are statements of submissions for its domain. -/
theorem proofs_sublist_log (x : X) (steps : List (Step cfg kept)) (d a : ℕ) :
    (Aggregate.proofs d a (run (.genesis x : State A X T T₁ T₂) steps).aggregate.events).Sublist
      (((log (.genesis x : State A X T T₁ T₂) steps).filter (Verified.isFor d)).map
        Verified.statement) := by
  obtain ⟨events, hevents, hannounces⟩ :=
    run_announces (s := (.genesis x : State A X T T₁ T₂)) (Aggregate.Represented.genesis x) steps
  obtain rfl : (run (.genesis x : State A X T T₁ T₂) steps).aggregate.events = events := hevents
  exact (Aggregate.proofs_sublist_accepted d a _).trans (hannounces.accepted d)

/-- Every verified proof is accounted for.  In every run, each settlement pallet announces the
statements of its own submissions; the aggregate pallet announces those of all pallets, in the order
of submission, except for those by an account that names no domain; and the statements it announces
as aggregated are pending, under the ids announced, or their receipt is out. -/
theorem verified_conserved (x : X) (steps : List (Step cfg kept)) :
    let s₀ : State A X T T₁ T₂ := .genesis x
    let s := run s₀ steps
    (∀ k, proofVerifieds (s.view k).events =
        ((log s₀ steps).filter fun v => v.settlement = k).map Verified.statement) ∧
      Aggregate.announced s.aggregate.events =
        ((log s₀ steps).filter Verified.isAnnounced).map Verified.statement ∧
      (∀ d, (Aggregate.accepted d s.aggregate.events).Sublist
        (((log s₀ steps).filter (Verified.isFor d)).map Verified.statement)) ∧
      ∀ d a, Aggregate.proofs d a s.aggregate.events ≠ [] →
        Aggregate.SolePending s.aggregate d a (Aggregate.proofs d a s.aggregate.events) ∨
          .newAggregationReceipt d a (cfg.merkleRoot (Aggregate.proofs d a s.aggregate.events)) ∈
            s.aggregate.events := by
  intro s₀ s
  have hs : Reachable cfg kept s := ⟨x, steps, rfl⟩
  obtain ⟨events, hevents, hannounces⟩ :=
    run_announces (s := s₀) (Aggregate.Represented.genesis x) steps
  obtain rfl : s.aggregate.events = events := hevents
  exact ⟨fun k => run_proofVerifieds k steps, hannounces.announced, hannounces.accepted,
    fun d a hne => hs.aggregate.pending_or_receipt hne⟩

/-- Every receipt is sound.  It is the Merkle root of the statements, in the order of submission, of
some submissions of the run, at least one.  Each of them was made by an account for the domain of
the receipt, and the verifier of its settlement pallet accepted its proof against the key that the
statement commits to. -/
theorem receipt_sound (x : X) (steps : List (Step cfg kept)) {d a : ℕ} {receipt : H256}
    (hreceipt : .newAggregationReceipt d a receipt ∈
      (run (.genesis x : State A X T T₁ T₂) steps).aggregate.events) :
    ∃ submissions : List (Verified A), submissions ≠ [] ∧
      receipt = cfg.merkleRoot (submissions.map Verified.statement) ∧
      submissions.Sublist (log (.genesis x : State A X T T₁ T₂) steps) ∧
      ∀ v ∈ submissions, v.account ≠ none ∧ v.domainId = some d ∧
        ∃ before step after, steps = before ++ step :: after ∧
          Proven (run (.genesis x : State A X T T₁ T₂) before) step v := by
  have hs : Reachable cfg kept (run (.genesis x : State A X T T₁ T₂) steps) := ⟨x, steps, rfl⟩
  obtain ⟨hne, hroot⟩ := hs.aggregate.receipt_eq hreceipt
  obtain ⟨submissions, hsub, hstatements⟩ :=
    List.sublist_map_iff.mp (proofs_sublist_log x steps d a)
  refine ⟨submissions, ?_, ?_, hsub.trans List.filter_sublist, fun v hv => ?_⟩
  · rintro rfl
    exact hne hstatements
  · rw [hroot, hstatements]
    rfl
  · obtain ⟨hmem, hfor⟩ := List.mem_filter.mp (hsub.subset hv)
    obtain ⟨haccount, hdomain⟩ := Verified.isFor_eq_true.mp hfor
    obtain ⟨before, step, after, hsteps, hverified⟩ := mem_log.mp hmem
    exact ⟨haccount, hdomain, before, step, after, hsteps,
      proven_of_mem_verified ⟨x, before, rfl⟩ hverified⟩

/-- Account `5` registers a domain for aggregations of two statements, account `2` registers a key,
accounts `1` and `4` submit a proof for it, with different public inputs, and account `3` publishes
the aggregation. -/
def sampleSteps : List (Step sampleConfig Set.univ) :=
  [sampleRegisterDomain Set.univ,
    .call (.settlement (.other .sp1) (.registerVk (.signed 2) sampleKey)),
    .call (.settlement (.other .sp1)
      (.submitProof (.signed 1) (.hash sampleKey) [9] [7, 7] (some 0))),
    .call (.settlement (.other .sp1)
      (.submitProof (.signed 4) (.hash sampleKey) [9] [8, 8] (some 0))),
    .call (.aggregate (.aggregate (.signed 3) 0 1) (by simp))]

/-- The statements of the two submissions. -/
def sampleStatements : List H256 :=
  [[7, 7], [8, 8]].map fun pubs => Verifiers.computeStatementHash sampleHashing
    (sampleConfig.verifier (.other .sp1)) (.hash sampleKey) [9] pubs

/-- The root of the two statements. -/
def sampleReceipt : H256 := Aggregate.binaryRoot sampleHashing sampleStatements

/-- The run announces a receipt. -/
theorem sampleSteps_receipt :
    .newAggregationReceipt 0 1 sampleReceipt ∈ (run (.genesis sampleBook :
      State ℕ (Book ℕ RuntimeHoldReason) ℕ ℕ ℕ) sampleSteps).aggregate.events := by
  decide +kernel

theorem receipt_sound_sample :
    ∃ submissions : List (Verified ℕ), submissions ≠ [] ∧
      sampleReceipt = sampleConfig.merkleRoot (submissions.map Verified.statement) ∧
      submissions.Sublist (log (.genesis sampleBook : State ℕ (Book ℕ RuntimeHoldReason) ℕ ℕ ℕ)
        sampleSteps) ∧
      ∀ v ∈ submissions, v.account ≠ none ∧ v.domainId = some 0 ∧
        ∃ before step after, sampleSteps = before ++ step :: after ∧
          Proven (run (.genesis sampleBook : State ℕ (Book ℕ RuntimeHoldReason) ℕ ℕ ℕ) before)
            step v :=
  receipt_sound sampleBook sampleSteps sampleSteps_receipt

end ZkVerify.Chain
