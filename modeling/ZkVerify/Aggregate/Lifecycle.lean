import ZkVerify.Aggregate.Representation
import ZkVerify.Aggregate.Allowlist

/-!
# The life of a domain

A domain is registered as ready.  It leaves that state when it is put on hold or when
its aggregation ids are used up, and never returns to it.  From then on its state says
whether something is left in it: `Removable` if there is no statement and no row of the
allowlist, `Hold` otherwise.  `HoldStates` is this invariant, together with the fact
that rows belong to stored domains with an allowlist.

`Change` summarises what a successful call does to the map of domains; that a domain
does not become ready again, disappears only when it is unregistered and does not
come back are consequences of it.  `Stored` looks at one domain after the call: it was
registered by it, or it was stored before and changed as `Updated` says.
-/

namespace ZkVerify.Aggregate

open Frame DomainEntry

variable {A X T₁ T₂ : Type} {S M : ℕ}

/-! ## Changes of the map of domains -/

/-- What a successful call `c` does to the map of domains. -/
inductive Change (s : State A X T₁ T₂ S M) (c : Call A) (s' : State A X T₁ T₂ S M) : Prop
  /-- No domain changes. -/
  | unchanged (hdomains : s'.domains = s.domains) (hnext : s'.nextDomainId = s.nextDomainId)
  /-- A stored domain is replaced; if it was not ready, it still is not. -/
  | replaced (d : ℕ) (D D' : DomainEntry A T₁ T₂ S M) (hlookup : s.domains.lookup d = some D)
      (hdomains : s'.domains = s.domains.insert d D') (hnext : s'.nextDomainId = s.nextDomainId)
      (hstate : D.state ≠ .ready → D'.state ≠ .ready)
  /-- A domain is added under the next id. -/
  | added (D : DomainEntry A T₁ T₂ S M)
      (hdomains : s'.domains = s.domains.insert s.nextDomainId D)
      (hnext : s'.nextDomainId = s.nextDomainId + 1)
  /-- A removable domain is unregistered. -/
  | removed (origin : RawOrigin A) (d : ℕ) (D : DomainEntry A T₁ T₂ S M)
      (hcall : c = .unregisterDomain origin d) (hlookup : s.domains.lookup d = some D)
      (hstate : D.state = .removable) (hdomains : s'.domains = s.domains.erase d)
      (hnext : s'.nextDomainId = s.nextDomainId)

variable {cfg : Config A X T₁ T₂} {kept : Set HoldReason} {s s' : State A X T₁ T₂ S M}
  {c : Call A}

namespace Change

variable {d : ℕ} {D D' : DomainEntry A T₁ T₂ S M}

/-- A domain that is not ready does not become ready. -/
theorem state_ne_ready (hrep : Represented s) (h : Change s c s')
    (hlookup : s.domains.lookup d = some D) (hne : D.state ≠ .ready)
    (hlookup' : s'.domains.lookup d = some D') : D'.state ≠ .ready := by
  have hsame : s'.domains.lookup d = s.domains.lookup d → D'.state ≠ .ready := by
    intro heq
    rw [heq, hlookup] at hlookup'
    cases hlookup'
    exact hne
  cases h with
  | unchanged hdomains => exact hsame (by rw [hdomains])
  | replaced d₁ D₁ D₁' hlookup₁ hdomains _ hstate =>
      by_cases hd : d = d₁
      · subst hd
        rw [hlookup] at hlookup₁
        cases hlookup₁
        rw [hdomains, Finmap.lookup_insert] at hlookup'
        cases hlookup'
        exact hstate hne
      · exact hsame (by rw [hdomains, Finmap.lookup_insert_of_ne _ hd])
  | added D₁ hdomains =>
      have hd : d ≠ s.nextDomainId := (hrep.id_lt d D hlookup).ne
      exact hsame (by rw [hdomains, Finmap.lookup_insert_of_ne _ hd])
  | removed origin d₁ D₁ _ _ _ hdomains =>
      by_cases hd : d = d₁
      · subst hd
        simp [hdomains] at hlookup'
      · exact hsame (by rw [hdomains, Finmap.lookup_erase_ne hd])

/-- Only `unregister_domain` removes a domain, and the domain is removable then. -/
theorem eq_unregisterDomain (h : Change s c s') (hlookup : s.domains.lookup d = some D)
    (hlookup' : s'.domains.lookup d = none) :
    (∃ origin, c = .unregisterDomain origin d) ∧ D.state = .removable := by
  have hmem : d ∈ s.domains := Finmap.mem_of_lookup_eq_some hlookup
  rw [Finmap.lookup_eq_none] at hlookup'
  cases h with
  | unchanged hdomains => exact absurd (hdomains ▸ hmem) hlookup'
  | replaced d₁ D₁ D₁' _ hdomains =>
      rw [hdomains, Finmap.mem_insert] at hlookup'
      exact absurd (.inr hmem) hlookup'
  | added D₁ hdomains =>
      rw [hdomains, Finmap.mem_insert] at hlookup'
      exact absurd (.inr hmem) hlookup'
  | removed origin d₁ D₁ hcall hlookup₁ hstate hdomains =>
      rw [hdomains, Finmap.mem_erase] at hlookup'
      have hd : d = d₁ := by
        by_contra hd
        exact hlookup' ⟨hd, hmem⟩
      subst hd
      rw [hlookup] at hlookup₁
      cases hlookup₁
      exact ⟨⟨origin, hcall⟩, hstate⟩

end Change

/-! ## Domains that are gone -/

/-- The id was given to a domain that is not stored any more. -/
def Gone (d : ℕ) (s : State A X T₁ T₂ S M) : Prop :=
  d < s.nextDomainId ∧ s.domains.lookup d = none

theorem Change.gone {d : ℕ} (h : Change s c s') (hgone : Gone d s) : Gone d s' := by
  obtain ⟨hlt, hnone⟩ := hgone
  cases h with
  | unchanged hdomains hnext => exact ⟨hnext ▸ hlt, hdomains ▸ hnone⟩
  | replaced d₁ D₁ D₁' hlookup₁ hdomains hnext =>
      have hd : d ≠ d₁ := by
        rintro rfl
        simp [hnone] at hlookup₁
      exact ⟨hnext ▸ hlt, by rw [hdomains, Finmap.lookup_insert_of_ne _ hd, hnone]⟩
  | added D₁ hdomains hnext =>
      refine ⟨by omega, ?_⟩
      rw [hdomains, Finmap.lookup_insert_of_ne _ hlt.ne, hnone]
  | removed origin d₁ D₁ _ _ _ hdomains hnext =>
      refine ⟨hnext ▸ hlt, ?_⟩
      by_cases hd : d = d₁
      · rw [hdomains, hd, Finmap.lookup_erase]
      · rw [hdomains, Finmap.lookup_erase_ne hd, hnone]

/-! ## The invariant of the states -/

variable [DecidableEq A]

theorem change_of_effect (hrep : Represented s) (heffect : Effect cfg s c s') : Change s c s' := by
  cases heffect with
  | skipped | initialized => exact .unchanged rfl rfl
  | accepted hlookup hready =>
      exact .replaced _ _ _ hlookup rfl rfl fun hne => absurd hready hne
  | aggregated _ hlookup htake =>
      refine .replaced _ _ _ hlookup rfl rfl fun hne => handleHoldState_state_ne_ready _ _ ?_
      rcases takeAggregation_ok (hrep.wf _ _ hlookup) htake with ⟨-, -, -, rfl, -⟩ | ⟨-, -, rfl, -⟩
      · exact advance_state_of_ne_ready _ hne
      · exact hne
  | registered => exact .added _ rfl rfl
  | held _ hlookup =>
      exact .replaced _ _ _ hlookup rfl rfl fun _ => updateHoldState_state_ne_ready _ _
  | unregistered _ hlookup _ hremovable => exact .removed _ _ _ rfl hlookup hremovable rfl rfl
  | feeSet _ hlookup => exact .replaced _ _ _ hlookup rfl rfl fun hne => hne
  | allowlisted _ hlookup _ _ _ hcount =>
      refine .replaced _ _ _ hlookup rfl rfl fun hne => ?_
      rw [changeFootprintCount_frame hcount]
      exact hne
  | submittersRemoved _ hlookup _ _ _ hcount =>
      refine .replaced _ _ _ hlookup rfl rfl fun hne => handleHoldState_state_ne_ready _ _ ?_
      rw [changeFootprintCount_frame hcount]
      exact hne

/-! ## Changes of a stored domain -/

/-- What a successful call `c` does to a domain that stays stored. -/
inductive Updated (c : Call A) (D D' : DomainEntry A T₁ T₂ S M) : Prop
  /-- Only the state and the aggregations can change. -/
  | moved (hmoved : D.Moved D')
  /-- The delivery price is set. -/
  | repriced (origin : RawOrigin A) (d fee ownerTip : ℕ)
      (hcall : c = .setTotalDeliveryFee origin d fee ownerTip)
      (hdelivery : D' = { D with delivery := (D.delivery.setFee fee).setOwnerTip ownerTip })
  /-- The ticket for the rows of the allowlist changes too. -/
  | recounted (ticket : Option (CountableTicket T₂))
      (hmoved : Moved { D with ticketAllowlist := ticket } D')

/-- Where a domain that is stored after a successful call comes from. -/
inductive Stored (cfg : Config A X T₁ T₂) (s : State A X T₁ T₂ S M) (c : Call A) (d : ℕ)
    (D' : DomainEntry A T₁ T₂ S M) : Prop
  /-- It was stored before. -/
  | kept (D : DomainEntry A T₁ T₂ S M) (hlookup : s.domains.lookup d = some D)
      (hupdated : Updated c D D')
  /-- The call registered it. -/
  | registered {origin : RawOrigin A} {aggregationSize : ℕ} {queueSize : Option ℕ}
      {aggregateRules : AggregateSecurityRules} {proofRules : ProofSecurityRules}
      {delivery : Delivery} {deliveryOwner : Option A} {caller : User A} {owner : A}
      {ticketDomain : Option T₁} {ticketAllowlist : Option (CountableTicket T₂)} {x : X}
      (hcall : c = .registerDomain origin aggregationSize queueSize aggregateRules proofRules
        delivery deliveryOwner)
      (hnone : s.domains.lookup d = none) (horigin : User.fromOrigin cfg origin = .ok caller)
      (hticket : newTicketDomain cfg S M caller aggregationSize (queueSize.getD M)
        delivery.destination s.chain = .ok (ticketDomain, x))
      (hcreate : DomainEntry.tryCreate s.nextDomainId caller 1 aggregationSize (queueSize.getD M)
        aggregateRules proofRules ticketDomain ticketAllowlist ⟨owner, delivery⟩ = .ok D')

/-- A domain that is stored after a successful call was stored before or is registered by it. -/
theorem stored_of_effect {d : ℕ} {D' : DomainEntry A T₁ T₂ S M} (hrep : Represented s)
    (heffect : Effect cfg s c s') (hlookup' : s'.domains.lookup d = some D') :
    Stored cfg s c d D' := by
  have hsame : s.domains.lookup d = some D' → Stored cfg s c d D' := by
    intro hlookup
    exact .kept D' hlookup (.moved (.refl D'))
  have hreplace : ∀ {d₁ : ℕ} {D₁ D₁' : DomainEntry A T₁ T₂ S M}, s.domains.lookup d₁ = some D₁ →
      s'.domains = s.domains.insert d₁ D₁' → Updated c D₁ D₁' → Stored cfg s c d D' := by
    intro d₁ D₁ D₁' hlookup hdomains hupdated
    rw [hdomains] at hlookup'
    by_cases hd : d = d₁
    · subst hd
      rw [Finmap.lookup_insert] at hlookup'
      cases hlookup'
      exact .kept D₁ hlookup hupdated
    · rw [Finmap.lookup_insert_of_ne _ hd] at hlookup'
      exact hsame hlookup'
  cases heffect with
  | skipped | initialized => exact hsame hlookup'
  | accepted hlookup hready hroom _ _ haccept =>
      apply hreplace hlookup rfl
      exact .moved (acceptStatement_moved (hrep.wf _ _ hlookup) hready hroom haccept)
  | aggregated _ hlookup htake =>
      apply hreplace hlookup rfl
      exact .moved ((takeAggregation_moved (hrep.wf _ _ hlookup) htake).trans
        (handleHoldState_moved _ _))
  | registered horigin _ _ hticket _ hcreate =>
      by_cases hd : d = s.nextDomainId
      · subst hd
        have hnone : s.domains.lookup s.nextDomainId = none := by
          cases hlookup : s.domains.lookup s.nextDomainId with
          | none => rfl
          | some D => exact absurd (hrep.id_lt _ D hlookup) (lt_irrefl _)
        rw [Finmap.lookup_insert] at hlookup'
        cases hlookup'
        exact .registered rfl hnone horigin hticket hcreate
      · rw [Finmap.lookup_insert_of_ne _ hd] at hlookup'
        exact hsame hlookup'
  | held _ hlookup =>
      apply hreplace hlookup rfl
      apply Updated.moved
      constructor <;> rfl
  | @unregistered _ d₁ =>
      by_cases hd : d = d₁
      · subst hd
        simp at hlookup'
      · rw [Finmap.lookup_erase_ne hd] at hlookup'
        exact hsame hlookup'
  | feeSet _ hlookup => exact hreplace hlookup rfl (.repriced _ _ _ _ rfl rfl)
  | allowlisted _ hlookup _ _ _ hcount =>
      apply hreplace hlookup rfl
      rw [changeFootprintCount_frame hcount]
      exact .recounted _ (.refl _)
  | submittersRemoved _ hlookup _ _ _ hcount =>
      apply hreplace hlookup rfl
      rw [changeFootprintCount_frame hcount]
      exact .recounted _ (handleHoldState_moved _ _)

/-- Nothing is left in the domain: no statement and no row. -/
def DomainEntry.Drained (D : DomainEntry A T₁ T₂ S M) (rows : Finset (ℕ × A)) : Prop :=
  D.next.statements.toList = [] ∧ D.shouldPublish.length = 0 ∧
    (D.proofRules ≠ .onlyAllowlisted ∨ ∀ a, (D.id, a) ∉ rows)

theorem updateHoldState_of_drained {D : DomainEntry A T₁ T₂ S M} {rows : Finset (ℕ × A)}
    (h : D.Drained rows) : (D.updateHoldState rows).state = .removable :=
  if_pos ⟨h.2.1, h.1, isAllowlistEmpty_iff.mpr h.2.2⟩

theorem updateHoldState_of_not_drained {D : DomainEntry A T₁ T₂ S M} {rows : Finset (ℕ × A)}
    (h : ¬ D.Drained rows) : (D.updateHoldState rows).state = .hold :=
  if_neg fun hcond => h ⟨hcond.2.1, hcond.1, isAllowlistEmpty_iff.mp hcond.2.2⟩

/-- The state of a domain that is not ready is the evaluated one, and rows belong to stored
domains with an allowlist. -/
structure HoldStates (s : State A X T₁ T₂ S M) : Prop where
  evaluated : ∀ d D, s.domains.lookup d = some D → D.state ≠ .ready →
    D.state = (D.updateHoldState s.submittersAllowlist).state
  rows : ∀ d a, (d, a) ∈ s.submittersAllowlist →
    ∃ D, s.domains.lookup d = some D ∧ D.proofRules = .onlyAllowlisted

namespace HoldStates

variable {d : ℕ} {D D' : DomainEntry A T₁ T₂ S M}

/-- Replace the domain `d`, and the rows of `d` only. -/
theorem replace (hrep : Represented s) (h : HoldStates s)
    (hdomains : s'.domains = s.domains.insert d D')
    (hothers : ∀ d' a, d' ≠ d →
      ((d', a) ∈ s'.submittersAllowlist ↔ (d', a) ∈ s.submittersAllowlist))
    (hrows : ∀ a, (d, a) ∈ s'.submittersAllowlist → D'.proofRules = .onlyAllowlisted)
    (hstate : D'.state ≠ .ready → D'.state = (D'.updateHoldState s'.submittersAllowlist).state) :
    HoldStates s' where
  evaluated := by
    rw [hdomains]
    refine Finmap.forall_lookup_insert hstate fun d' D₁ hd' hlookup hne => ?_
    rw [h.evaluated d' D₁ hlookup hne]
    refine congrArg DomainEntry.state (updateHoldState_congr fun a => ?_)
    rw [hrep.id_eq d' D₁ hlookup]
    exact (hothers d' a hd').symm
  rows := by
    intro d' a hmem
    rw [hdomains]
    by_cases hd' : d' = d
    · subst hd'
      exact ⟨D', Finmap.lookup_insert _, hrows a hmem⟩
    · obtain ⟨D₁, hlookup, hrules⟩ := h.rows d' a ((hothers d' a hd').mp hmem)
      exact ⟨D₁, by rw [Finmap.lookup_insert_of_ne _ hd', hlookup], hrules⟩

/-- Replace a stored domain by one with the same rules; no row changes. -/
theorem replace_domain (hrep : Represented s) (h : HoldStates s)
    (hlookup : s.domains.lookup d = some D) (hdomains : s'.domains = s.domains.insert d D')
    (hallowlist : s'.submittersAllowlist = s.submittersAllowlist)
    (hrules : D'.proofRules = D.proofRules)
    (hstate : D'.state ≠ .ready → D'.state = (D'.updateHoldState s.submittersAllowlist).state) :
    HoldStates s' := by
  refine h.replace hrep hdomains (by simp [hallowlist]) (fun a hmem => ?_) (hallowlist ▸ hstate)
  obtain ⟨D₁, hlookup₁, hrules₁⟩ := h.rows d a (hallowlist ▸ hmem)
  rw [hlookup] at hlookup₁
  cases hlookup₁
  exact hrules.trans hrules₁

/-- A domain that is not ready is removable or on hold, according to what is left in it. -/
theorem state_of_ne_ready (h : HoldStates s) (hlookup : s.domains.lookup d = some D)
    (hne : D.state ≠ .ready) :
    (D.Drained s.submittersAllowlist ∧ D.state = .removable) ∨
      (¬ D.Drained s.submittersAllowlist ∧ D.state = .hold) := by
  rw [h.evaluated d D hlookup hne]
  by_cases hdrained : D.Drained s.submittersAllowlist
  · exact .inl ⟨hdrained, updateHoldState_of_drained hdrained⟩
  · exact .inr ⟨hdrained, updateHoldState_of_not_drained hdrained⟩

/-- A removable domain is drained. -/
theorem drained_of_removable (h : HoldStates s) (hlookup : s.domains.lookup d = some D)
    (hstate : D.state = .removable) : D.Drained s.submittersAllowlist := by
  rcases h.state_of_ne_ready hlookup (by simp [hstate]) with ⟨hdrained, -⟩ | ⟨-, hhold⟩
  · exact hdrained
  · simp [hstate] at hhold

/-- Re-evaluating twice is re-evaluating once. -/
private theorem evaluated_handleHoldState (D : DomainEntry A T₁ T₂ S M) (rows : Finset (ℕ × A))
    (h : (D.handleHoldState rows).1.state ≠ .ready) :
    (D.handleHoldState rows).1.state =
      ((D.handleHoldState rows).1.updateHoldState rows).state := by
  rw [handleHoldState_fst] at h ⊢
  split at h
  · contradiction
  · rename_i hne
    rw [if_neg hne]
    rfl

/-- Every successful call keeps the invariant. -/
theorem effect (hrep : Represented s) (h : HoldStates s) (heffect : Effect cfg s c s') :
    HoldStates s' := by
  cases heffect with
  | skipped | initialized => exact ⟨h.evaluated, h.rows⟩
  | accepted hlookup hready hroom _ _ haccept =>
      have hwf := hrep.wf _ _ hlookup
      refine h.replace_domain hrep hlookup rfl rfl
        (acceptStatement_moved hwf hready hroom haccept).proofRules fun hne => ?_
      -- The domain only stops being ready when it queues its last aggregation.
      obtain ⟨next, -, -, -, ⟨-, rfl, -⟩ | ⟨-, queue, hqueue, rfl, -⟩⟩ :=
        acceptStatement_ok hwf hready hroom haccept
      · exact absurd hready hne
      · have hfilled : queue.length ≠ 0 := by
          rw [BoundedMap.length, hqueue, Finmap.keys_insert]
          simp
        rw [updateHoldState_of_queue _ _ hfilled]
        exact (enqueue_state _ next queue).resolve_left fun hstate => hne (hstate.trans hready)
  | aggregated _ hlookup htake =>
      refine h.replace_domain hrep hlookup rfl rfl ?_ (evaluated_handleHoldState _ _)
      exact ((takeAggregation_moved (hrep.wf _ _ hlookup) htake).trans
        (handleHoldState_moved _ _)).proofRules
  | registered _ _ _ _ _ hcreate =>
      obtain ⟨-, rfl⟩ := tryCreate_ok hcreate
      refine h.replace hrep rfl (by simp [State.deposit]) (fun a hmem => ?_) fun hne => ?_
      · obtain ⟨D₁, hlookup, -⟩ := h.rows _ a hmem
        exact absurd (hrep.id_lt _ _ hlookup) (lt_irrefl _)
      · exact absurd rfl hne
  | held _ hlookup => exact h.replace_domain hrep hlookup rfl rfl rfl fun _ => rfl
  | unregistered _ hlookup _ hremovable =>
      refine ⟨Finmap.forall_lookup_erase fun d' D' _ => h.evaluated d' D', fun d' a hmem => ?_⟩
      obtain ⟨D₁, hlookup₁, hrules⟩ := h.rows d' a hmem
      refine ⟨D₁, ?_, hrules⟩
      -- The removed domain has no rows, so this row is another domain's.
      rw [Finmap.lookup_erase_ne, hlookup₁]
      rintro rfl
      rw [hlookup] at hlookup₁
      cases hlookup₁
      obtain ⟨-, -, hrules' | hempty⟩ := h.drained_of_removable hlookup hremovable
      · exact hrules' hrules
      · exact hempty a (hrep.id_eq _ _ hlookup ▸ hmem)
  | feeSet _ hlookup =>
      refine h.replace_domain hrep hlookup rfl rfl rfl fun hne => ?_
      have hstate := h.evaluated _ _ hlookup hne
      exact hstate
  | allowlisted _ hlookup _ hready hrules hcount =>
      rw [changeFootprintCount_frame hcount]
      refine h.replace hrep rfl (fun d' a hd' => ?_) (fun _ _ => hrules) fun hne => ?_
      · rw [mem_insertRows, hrep.id_eq _ _ hlookup]
        simp [hd']
      · exact absurd hready hne
  | submittersRemoved _ hlookup _ hrules hrows hcount =>
      rw [changeFootprintCount_frame hcount]
      refine h.replace hrep rfl (fun d' a hd' => ?_)
        (fun _ _ => (handleHoldState_moved _ _).proofRules.trans hrules)
        (evaluated_handleHoldState _ _)
      subst hrows
      rw [mem_removeRows, hrep.id_eq _ _ hlookup]
      simp [hd']

end HoldStates

/-! ## Runs -/

theorem HoldStates.genesis (x : X) : HoldStates (.genesis x : State A X T₁ T₂ S M) := by
  constructor
  · intro d D hlookup
    simp [State.genesis] at hlookup
  · intro d a hmem
    simp [State.genesis] at hmem

/-- After every run the invariant of the states holds. -/
theorem holdStates_run (hrep : Represented s) (h : HoldStates s) (steps : List (Step cfg kept)) :
    HoldStates (run s steps) := by
  apply effect_induction hrep h
  · intro s c s' _ hrep h heffect
    exact h.effect hrep heffect
  · intro s e h
    exact ⟨h.evaluated, h.rows⟩

theorem Reachable.holdStates (hs : Reachable cfg kept s) : HoldStates s := by
  obtain ⟨x, steps, rfl⟩ := hs
  exact holdStates_run (.genesis x) (.genesis x) steps

/-- What is preserved by every change of the map of domains holds after every run. -/
theorem change_induction {P : State A X T₁ T₂ S M → Prop} (hrep : Represented s)
    (steps : List (Step cfg kept)) (hinit : P s)
    (hchange : ∀ s c s', Represented s → Change s c s' → P s → P s')
    (henv : ∀ s (e : Environment cfg kept), P s → P { s with chain := e.act s.chain }) :
    P (run s steps) := by
  apply effect_induction hrep hinit
  · intro s c s' _ hrep h heffect
    exact hchange s c s' hrep (change_of_effect hrep heffect) h
  · exact henv

/-- Ids are given out in increasing order. -/
theorem nextDomainId_le_run (hrep : Represented s) (steps : List (Step cfg kept)) :
    s.nextDomainId ≤ (run s steps).nextDomainId := by
  apply change_induction (P := fun s' => s.nextDomainId ≤ s'.nextDomainId) hrep steps le_rfl
  · intro s₁ c s₂ _ hchange hle
    cases hchange <;> omega
  · intro s₁ e h
    exact h

/-- An id that is gone stays gone. -/
theorem gone_run {d : ℕ} (hrep : Represented s) (h : Gone d s) (steps : List (Step cfg kept)) :
    Gone d (run s steps) := by
  apply change_induction hrep steps h
  · intro s c s' _ hchange hgone
    exact hchange.gone hgone
  · intro s e h
    exact h

/-- What every effect keeps of a domain is kept as long as the domain is stored. -/
theorem domain_run {R : DomainEntry A T₁ T₂ S M → DomainEntry A T₁ T₂ S M → Prop} {d : ℕ}
    {D D' : DomainEntry A T₁ T₂ S M} (hrefl : R D D) (htrans : ∀ D₁ D₂, R D D₁ → R D₁ D₂ → R D D₂)
    (hstep : ∀ s c s' D₁ D₂, Represented s → Effect cfg s c s' → s.domains.lookup d = some D₁ →
      s'.domains.lookup d = some D₂ → R D₁ D₂)
    (hrep : Represented s) (hlookup : s.domains.lookup d = some D) (steps : List (Step cfg kept))
    (hlookup' : (run s steps).domains.lookup d = some D') : R D D' := by
  -- On the way the domain may have been removed; then its id is gone.
  have hinv : Gone d (run s steps) ∨ ∃ D₁, (run s steps).domains.lookup d = some D₁ ∧ R D D₁ := by
    refine effect_induction (P := fun s => Gone d s ∨ ∃ D₁, s.domains.lookup d = some D₁ ∧ R D D₁)
      hrep (.inr ⟨D, hlookup, hrefl⟩) ?_ fun _ _ h => h
    rintro s c s' - hrep (hgone | ⟨D₁, hlookup₁, hR⟩) heffect
    · exact .inl ((change_of_effect hrep heffect).gone hgone)
    · cases hlookup₂ : s'.domains.lookup d with
      | some D₂ =>
          exact .inr ⟨D₂, rfl, htrans D₁ D₂ hR (hstep s c s' D₁ D₂ hrep heffect hlookup₁ hlookup₂)⟩
      | none =>
          refine .inl ⟨(hrep.id_lt d D₁ hlookup₁).trans_le ?_, hlookup₂⟩
          cases change_of_effect hrep heffect <;> omega
  rcases hinv with ⟨-, hnone⟩ | ⟨D₁, hlookup₁, hR⟩
  · simp [hnone] at hlookup'
  · rw [hlookup₁] at hlookup'
    cases hlookup'
    exact hR

/-- A domain that is not ready does not become ready during a run. -/
theorem state_ne_ready_run {d : ℕ} {D D' : DomainEntry A T₁ T₂ S M} (hrep : Represented s)
    (hlookup : s.domains.lookup d = some D) (hne : D.state ≠ .ready)
    (steps : List (Step cfg kept)) (hlookup' : (run s steps).domains.lookup d = some D') :
    D'.state ≠ .ready := by
  refine domain_run (R := fun D D' => D.state ≠ .ready → D'.state ≠ .ready) ?_ ?_ ?_ hrep hlookup
    steps hlookup' hne
  · exact id
  · intro D₁ D₂ h h' hne
    exact h' (h hne)
  · intro s c s' D₁ D₂ hrep heffect hlookup₁ hlookup₂ hne
    exact (change_of_effect hrep heffect).state_ne_ready hrep hlookup₁ hne hlookup₂

/-- A step after which a domain is missing is a successful `unregister_domain`. -/
theorem exec_removes {d : ℕ} {D : DomainEntry A T₁ T₂ S M} {step : Step cfg kept}
    (hrep : Represented s) (hlookup : s.domains.lookup d = some D)
    (hnone : (exec s step).domains.lookup d = none) :
    ∃ origin s' info, step = .call (.unregisterDomain origin d) ∧
      dispatch cfg (.unregisterDomain origin d) s = .ok (s', info) ∧ D.state = .removable := by
  cases step with
  | environment e => simp [exec, hlookup] at hnone
  | call c =>
      simp only [exec] at hnone
      split at hnone
      · rename_i s' info hok
        obtain ⟨⟨origin, rfl⟩, hstate⟩ :=
          (change_of_effect hrep (effect_of_dispatch hok)).eq_unregisterDomain hlookup hnone
        exact ⟨origin, s', info, rfl, hok, hstate⟩
      · simp [hlookup] at hnone

/-- The life of a domain in a run from the empty storage: it does not become ready again, its
state says what is left in it, only `unregister_domain` removes it, and its rows go with it. -/
theorem domain_lifecycle (x : X) (first second : List (Step cfg kept)) (d : ℕ) :
    let s : State A X T₁ T₂ S M := run (.genesis x) first
    let s' := run s second
    (∀ D D', s.domains.lookup d = some D → D.state ≠ .ready → s'.domains.lookup d = some D' →
        D'.state ≠ .ready) ∧
      (∀ D, s.domains.lookup d = some D → D.state ≠ .ready →
        (D.state = .removable ↔ D.next.statements.toList = [] ∧ D.shouldPublish.length = 0 ∧
          (D.proofRules ≠ .onlyAllowlisted ∨ ∀ a, (d, a) ∉ s.submittersAllowlist)) ∧
        (D.state ≠ .removable → D.state = .hold)) ∧
      (∀ D (step : Step cfg kept), s.domains.lookup d = some D →
        (exec s step).domains.lookup d = none →
        ∃ origin s₁ info, step = .call (.unregisterDomain origin d) ∧
          dispatch cfg (.unregisterDomain origin d) s = .ok (s₁, info) ∧
          D.state = .removable) ∧
      (∀ a, (d, a) ∈ s.submittersAllowlist →
        ∃ D, s.domains.lookup d = some D ∧ D.proofRules = .onlyAllowlisted) ∧
      (∀ D, s.domains.lookup d = some D → s'.domains.lookup d = none →
        ∀ third : List (Step cfg kept), (run s' third).domains.lookup d = none ∧
          ∀ a, (d, a) ∉ (run s' third).submittersAllowlist) := by
  intro s s'
  have hrep : Represented s := represented_run (Represented.genesis x) first
  have hstates : HoldStates s :=
    holdStates_run (Represented.genesis x) (HoldStates.genesis x) first
  have hrep' : Represented s' := represented_run hrep second
  have hstates' : HoldStates s' := holdStates_run hrep hstates second
  refine ⟨?_, ?_, ?_, hstates.rows d, ?_⟩
  · intro D D' hlookup hne
    exact state_ne_ready_run hrep hlookup hne second
  · intro D hlookup hne
    have hdrained : D.Drained s.submittersAllowlist ↔ D.next.statements.toList = [] ∧
        D.shouldPublish.length = 0 ∧
          (D.proofRules ≠ .onlyAllowlisted ∨ ∀ a, (d, a) ∉ s.submittersAllowlist) := by
      rw [DomainEntry.Drained, hrep.id_eq d D hlookup]
    rw [← hdrained]
    rcases hstates.state_of_ne_ready hlookup hne with ⟨hyes, hstate⟩ | ⟨hno, hstate⟩
    · simp [hyes, hstate]
    · simp [hno, hstate]
  · intro D step
    exact exec_removes hrep
  · -- The id is gone for good, and rows need a stored domain.
    intro D hlookup hnone third
    have hlt : d < s'.nextDomainId :=
      (hrep.id_lt d D hlookup).trans_le (nextDomainId_le_run hrep second)
    have hgone := (gone_run hrep' ⟨hlt, hnone⟩ third).2
    refine ⟨hgone, ?_⟩
    intro a hmem
    obtain ⟨D₁, hlookup₁, -⟩ := (holdStates_run hrep' hstates' third).rows d a hmem
    simp [hgone] at hlookup₁

end ZkVerify.Aggregate
