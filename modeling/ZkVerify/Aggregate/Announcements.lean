import ZkVerify.Aggregate.Batches

/-!
# What the pallet announces about verified proofs

The callback has no result: what becomes of a verified proof can only be read off the events.
`onProofVerified_announces` says that it is always there.  A proof without an account, and a
proof with an account and a domain, is announced by exactly one event, `NewProof` or
`CannotAggregate`; a proof that names no domain is not announced.  No other operation announces
a proof (`effect_announces_nothing`).
-/

namespace ZkVerify.Aggregate

open Frame DomainEntry

variable {A X T₁ T₂ : Type} {S M : ℕ}

/-! ## Reading the events -/

/-- The statement of the verified proof that an event is about. -/
def Event.statement? : Event → Option H256
  | .newProof statement _ _ => some statement
  | .cannotAggregate statement _ => some statement
  | _ => none

/-- The statements of the proofs that the events are about, in order. -/
def announced (events : List Event) : List H256 := events.filterMap Event.statement?

/-- The statement that an event announces as aggregated in the domain `d`. -/
def Event.accepted? (d : ℕ) : Event → Option H256
  | .newProof statement d' _ => if d' = d then some statement else none
  | _ => none

/-- The statements announced as aggregated in the domain `d`, in order. -/
def accepted (d : ℕ) (events : List Event) : List H256 := events.filterMap (Event.accepted? d)

theorem announced_append (events events' : List Event) :
    announced (events ++ events') = announced events ++ announced events' :=
  List.filterMap_append

theorem accepted_append (d : ℕ) (events events' : List Event) :
    accepted d (events ++ events') = accepted d events ++ accepted d events' :=
  List.filterMap_append

theorem announced_eq_nil {events : List Event} :
    announced events = [] ↔ ∀ e ∈ events, e.statement? = none :=
  List.filterMap_eq_nil_iff

theorem accepted_of_announced_eq_nil {events : List Event} (h : announced events = []) (d : ℕ) :
    accepted d events = [] := by
  rw [announced_eq_nil] at h
  refine List.filterMap_eq_nil_iff.mpr fun e he => ?_
  have hnone := h e he
  cases e <;> first | rfl | cases hnone

/-- The aggregations of a domain share out what is aggregated in it. -/
theorem proofs_sublist_accepted (d a : ℕ) (events : List Event) :
    (proofs d a events).Sublist (accepted d events) := by
  induction events with
  | nil => exact List.Sublist.slnil
  | cons e events ih =>
      cases e with
      | newProof statement d' a' =>
          simp only [proofs, accepted, List.filterMap_cons, Event.accepted?] at ih ⊢
          by_cases hd : d' = d
          · by_cases ha : a' = a
            · simpa [hd, ha] using ih.cons_cons statement
            · simpa [hd, ha] using ih.cons statement
          · simpa [hd] using ih
      | _ => exact ih

/-! ## Events about domains -/

theorem announced_advanceEvents (D : DomainEntry A T₁ T₂ S M) : announced D.advanceEvents = [] := by
  unfold advanceEvents
  split <;> rfl

theorem announced_enqueueEvents (D : DomainEntry A T₁ T₂ S M) (next : AggregationEntry A S)
    (queue : BoundedMap ℕ (AggregationEntry A S) M) :
    announced (D.enqueueEvents next queue) = [] := by
  unfold enqueueEvents
  rw [announced_append, announced_advanceEvents, List.nil_append]
  split <;> rfl

variable [DecidableEq A] {cfg : Config A X T₁ T₂} {s s' : State A X T₁ T₂ S M} {c : Call A}

theorem announced_handleHoldState (D : DomainEntry A T₁ T₂ S M) (rows : Finset (ℕ × A)) :
    announced (D.handleHoldState rows).2 = [] := by
  unfold handleHoldState
  split
  · rfl
  · dsimp only
    split <;> rfl

/-! ## The operations -/

/-- What the callback has to announce for a verified proof: nothing if an account names no
domain. -/
def expected (account : Option A) (domainId : Option ℕ) (statement : H256) : List H256 :=
  match account, domainId with
  | some _, none => []
  | _, _ => [statement]

/-- The statement, if it is to be aggregated in the domain `d`. -/
def candidate (d : ℕ) (account : Option A) (domainId : Option ℕ) (statement : H256) : List H256 :=
  if account ≠ none ∧ domainId = some d then [statement] else []

private theorem onDomainProof_announces {account : A} {d : ℕ} {statement : H256}
    {D : DomainEntry A T₁ T₂ S M} (hwf : D.WF)
    (h : onDomainProof cfg account d statement D s = .ok s') :
    ∃ e events, s'.events = s.events ++ e :: events ∧ announced events = [] ∧
      ((∃ cause, e = .cannotAggregate statement cause) ∨ ∃ a, e = .newProof statement d a) := by
  unfold onDomainProof at h
  split at h
  · cases h
    exact ⟨_, [], rfl, rfl, .inl ⟨_, rfl⟩⟩
  · rename_i hready
    split at h
    · cases h
      exact ⟨_, [], rfl, rfl, .inl ⟨_, rfl⟩⟩
    · rename_i hroom
      obtain ⟨authorized, hauthorized, h⟩ := seq_eq_ok.mp h
      cases authorized with
      | false =>
          cases h
          exact ⟨_, [], rfl, rfl, .inl ⟨_, rfl⟩⟩
      | true =>
          obtain ⟨⟨result, x⟩, hreserve, h⟩ := seq_eq_ok.mp h
          cases result with
          | error e =>
              cases h
              exact ⟨_, [], rfl, rfl, .inl ⟨_, rfl⟩⟩
          | ok reserve =>
              obtain ⟨⟨D', events⟩, haccept, h⟩ := seq_eq_ok.mp h
              cases h
              refine ⟨_, events, rfl, ?_, .inr ⟨_, rfl⟩⟩
              obtain ⟨next, -, -, -, ⟨-, -, rfl⟩ | ⟨-, queue, -, -, rfl⟩⟩ :=
                acceptStatement_ok hwf (not_not.mp hready) (by simpa using hroom) haccept
              · rfl
              · exact announced_enqueueEvents D next queue

/-- The callback announces a verified proof as often as it has to, and as aggregated in no domain
but the one that the proof is for. -/
theorem onProofVerified_announces {account : Option A} {domainId : Option ℕ} {statement : H256}
    (hrep : Represented s) (h : onProofVerified cfg account domainId statement s = .ok s') :
    ∃ events, s'.events = s.events ++ events ∧
      announced events = expected account domainId statement ∧
      ∀ d, (accepted d events).Sublist (candidate d account domainId statement) := by
  cases account with
  | none =>
      cases h
      exact ⟨_, rfl, rfl, fun d => List.nil_sublist _⟩
  | some account =>
      cases domainId with
      | none =>
          cases h
          exact ⟨[], (List.append_nil _).symm, rfl, fun d => List.nil_sublist _⟩
      | some d =>
          cases hlookup : s.domains.lookup d with
          | none =>
              simp only [onProofVerified, hlookup] at h
              cases h
              exact ⟨_, rfl, rfl, fun d => List.nil_sublist _⟩
          | some D =>
              simp only [onProofVerified, hlookup] at h
              obtain ⟨e, events, hevents, hnone, he⟩ :=
                onDomainProof_announces (hrep.wf d D hlookup) h
              refine ⟨_, hevents, ?_, fun d' => ?_⟩
              · rw [← List.singleton_append, announced_append, hnone, List.append_nil]
                rcases he with ⟨cause, rfl⟩ | ⟨a, rfl⟩ <;> rfl
              · rw [← List.singleton_append, accepted_append,
                  accepted_of_announced_eq_nil hnone, List.append_nil]
                rcases he with ⟨cause, rfl⟩ | ⟨a, rfl⟩
                · exact List.nil_sublist _
                · by_cases hd : d = d' <;> simp [accepted, Event.accepted?, candidate, hd]

/-- No call but the callback announces a verified proof. -/
theorem effect_announces_nothing (hrep : Represented s) (heffect : Effect cfg s c s')
    (hc : ∀ account d statement, c ≠ .onProofVerified account d statement) :
    ∃ events, s'.events = s.events ++ events ∧ announced events = [] := by
  cases heffect with
  | skipped | accepted => exact absurd rfl (hc _ _ _)
  | @aggregated _ d a _ D D' _ popped _ hlookup htake =>
      refine ⟨_, rfl, ?_⟩
      have hpopped : announced popped = [] := by
        rcases takeAggregation_ok (hrep.wf d D hlookup) htake with
          ⟨-, -, -, -, rfl⟩ | ⟨-, -, -, rfl⟩
        · exact announced_advanceEvents D
        · rfl
      rw [announced_append, announced_append, hpopped, announced_handleHoldState]
      rfl
  | registered | held | unregistered => exact ⟨_, rfl, rfl⟩
  | submittersRemoved => exact ⟨_, rfl, announced_handleHoldState _ _⟩
  | feeSet | allowlisted | initialized => exact ⟨[], (List.append_nil _).symm, rfl⟩

end ZkVerify.Aggregate
