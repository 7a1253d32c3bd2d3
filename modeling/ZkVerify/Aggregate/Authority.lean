import ZkVerify.Aggregate.Publication

/-!
# Who can change a domain

Everybody may add proofs to a domain and publish its aggregations, as far as its rules
go; the rest of the record belongs to the owner, and the prices also to the delivery owner.
`DomainEntry.Guarded` separates the two: it lists what an account that does not own the
domain cannot change, and what it can change and how.

`DomainEntry.Fixed` is what nobody can change, not even the manager.  `domain_authority`
states both for every reachable state, together with the fact that a call touches only
the domain it names.
-/

namespace ZkVerify.Aggregate

open Frame DomainEntry

variable {A X T₁ T₂ : Type} {S M : ℕ}

/-! ## Calls -/

/-- The account that signed an origin. -/
def signer : RawOrigin A → Option A
  | .signed x => some x
  | _ => none

namespace Call

/-- The account on whose behalf a call is executed. -/
def caller : Call A → Option A
  | .onProofVerified account _ _ => account
  | .aggregate origin _ _ => signer origin
  | .registerDomain origin _ _ _ _ _ _ => signer origin
  | .holdDomain origin _ => signer origin
  | .unregisterDomain origin _ => signer origin
  | .setTotalDeliveryFee origin _ _ _ => signer origin
  | .allowlistProofSubmitters origin _ _ => signer origin
  | .removeProofSubmitters origin _ _ => signer origin
  | .onInitialize => none

/-- The domain a call names; a new domain has the next id. -/
def target (s : State A X T₁ T₂ S M) : Call A → Option ℕ
  | .onProofVerified _ domainId _ => domainId
  | .aggregate _ d _ => some d
  | .registerDomain _ _ _ _ _ _ _ => some s.nextDomainId
  | .holdDomain _ d => some d
  | .unregisterDomain _ d => some d
  | .setTotalDeliveryFee _ d _ _ => some d
  | .allowlistProofSubmitters _ d _ => some d
  | .removeProofSubmitters _ d _ => some d
  | .onInitialize => none

end Call

theorem eq_signed_of_signer {origin : RawOrigin A} {x : A} (h : signer origin = some x) :
    origin = .signed x := by
  cases origin with
  | signed who =>
      cases h
      rfl
  | root | none => cases h

variable {cfg : Config A X T₁ T₂}

/-- An account that is not the manager acts as itself. -/
theorem eq_account_of_fromOrigin {origin : RawOrigin A} {x : A} {user : User A}
    (hx : cfg.managerOrigin (.signed x) = false) (hsigner : signer origin = some x)
    (h : User.fromOrigin cfg origin = .ok user) : user = .account x := by
  obtain rfl := eq_signed_of_signer hsigner
  simp only [User.fromOrigin, hx, Bool.false_eq_true, if_false, Except.ok.injEq] at h
  exact h.symm

/-! ## What is fixed and what is guarded -/

namespace DomainEntry

variable {D D' D'' : DomainEntry A T₁ T₂ S M} {x : A}

/-- What never changes during the life of a domain. -/
structure Fixed (D D' : DomainEntry A T₁ T₂ S M) : Prop where
  owner : D'.owner = D.owner
  maxAggregationSize : D'.maxAggregationSize = D.maxAggregationSize
  publishQueueSize : D'.publishQueueSize = D.publishQueueSize
  aggregateRules : D'.aggregateRules = D.aggregateRules
  proofRules : D'.proofRules = D.proofRules
  deliveryOwner : D'.delivery.owner = D.delivery.owner

theorem Fixed.refl (D : DomainEntry A T₁ T₂ S M) : D.Fixed D := by
  constructor <;> rfl

theorem Fixed.trans (h : D.Fixed D') (h' : D'.Fixed D'') : D.Fixed D'' where
  owner := h'.owner.trans h.owner
  maxAggregationSize := h'.maxAggregationSize.trans h.maxAggregationSize
  publishQueueSize := h'.publishQueueSize.trans h.publishQueueSize
  aggregateRules := h'.aggregateRules.trans h.aggregateRules
  proofRules := h'.proofRules.trans h.proofRules
  deliveryOwner := h'.deliveryOwner.trans h.deliveryOwner

theorem Moved.fixed (h : D.Moved D') : D.Fixed D' where
  owner := h.owner
  maxAggregationSize := h.maxAggregationSize
  publishQueueSize := h.publishQueueSize
  aggregateRules := h.aggregateRules
  proofRules := h.proofRules
  deliveryOwner := by rw [h.delivery]

/-- What a call of `x` can change in a domain that `x` does not own: the prices if `x` is the
delivery owner, and the state when the aggregations run dry or the ids are used up. -/
structure Guarded (x : A) (D D' : DomainEntry A T₁ T₂ S M) : Prop where
  fixed : D.Fixed D'
  ticketDomain : D'.ticketDomain = D.ticketDomain
  ticketAllowlist : D'.ticketAllowlist = D.ticketAllowlist
  prices : x ≠ D.delivery.owner → D'.delivery.data.fee = D.delivery.data.fee ∧
    D'.delivery.data.ownerTip = D.delivery.data.ownerTip
  ready : D.state = .ready → D'.state ≠ .ready → D.next.id = u64Max ∧ D'.next.id = 0
  hold : D.state = .hold → D'.state ≠ .hold → D'.state = .removable

theorem Guarded.refl (x : A) (D : DomainEntry A T₁ T₂ S M) : D.Guarded x D where
  fixed := Fixed.refl D
  ticketDomain := rfl
  ticketAllowlist := rfl
  prices := fun _ => ⟨rfl, rfl⟩
  ready := fun hready hne => absurd hready hne
  hold := fun hhold hne => absurd hhold hne

theorem Moved.guarded (h : D.Moved D')
    (hready : D.state = .ready → D'.state ≠ .ready → D.next.id = u64Max ∧ D'.next.id = 0)
    (hhold : D.state = .hold → D'.state ≠ .hold → D'.state = .removable) : D.Guarded x D' where
  fixed := h.fixed
  ticketDomain := h.ticketDomain
  ticketAllowlist := h.ticketAllowlist
  prices := fun _ => by simp [h.delivery]
  ready := hready
  hold := hhold

/-- Publishing changes the state as `Retired` says. -/
theorem Retired.guarded {a : ℕ} {rows : Finset (ℕ × A)} (h : D.Retired D' a rows) :
    D.Guarded x D' := by
  refine h.moved.guarded ?_ ?_
  · intro hready hne
    by_cases hlast : D.next.id = a ∧ a = u64Max
    · obtain ⟨hid, ha⟩ := hlast
      refine ⟨hid.trans ha, ?_⟩
      rw [h.next, if_pos hid, if_pos ha]
    · exact absurd (h.ready hready hlast) hne
  · intro hhold hne
    have hevaluated := h.evaluated (.inl (by simp [hhold]))
    by_cases hdrained : D'.Drained rows
    · exact hevaluated.1 hdrained
    · exact absurd (hevaluated.2 hdrained) hne

variable [DecidableEq A]

/-- A proof changes the state only when it completes the last aggregation there is an id for. -/
theorem acceptStatement_guarded {rows : Finset (ℕ × A)} {account : A} {reserve : Reserve}
    {statement : H256} {events : List Event} (hwf : D.WF) (hle : D.next.id ≤ u64Max)
    (hready : D.state = .ready) (hroom : D.canAddStatement = true)
    (h : D.acceptStatement rows account reserve statement = .ok (D', events)) :
    D.Guarded x D' := by
  refine (acceptStatement_moved hwf hready hroom h).guarded ?_ ?_
  · intro _ hne
    obtain ⟨next, hid, -, -, ⟨-, rfl, -⟩ | ⟨-, queue, -, rfl, -⟩⟩ :=
      acceptStatement_ok hwf hready hroom h
    · exact absurd hready hne
    · unfold enqueue advance at hne ⊢
      dsimp only at hne ⊢
      rw [hid] at hne ⊢
      by_cases hlast : D.next.id < u64Max
      · rw [if_pos hlast] at hne
        exact absurd hready hne
      · rw [if_neg hlast]
        exact ⟨by omega, rfl⟩
  · intro hhold
    rw [hready] at hhold
    cases hhold

end DomainEntry

variable [DecidableEq A]

theorem owner_of_canHandleDomain {x : A} {D : DomainEntry A T₁ T₂ S M}
    (h : (User.account x).canHandleDomain D = true) : D.owner = .account x :=
  of_decide_eq_true h

variable {kept : Set HoldReason} {s s' : State A X T₁ T₂ S M} {c : Call A} {d : ℕ}
  {D D' : DomainEntry A T₁ T₂ S M} {x y : A}

/-! ## One call -/

/-- A call touches only the domain it names and its rows. -/
theorem effect_frame (hrep : Represented s) (heffect : Effect cfg s c s')
    (hd : c.target s ≠ some d) :
    s'.domains.lookup d = s.domains.lookup d ∧
      ∀ a, (d, a) ∈ s'.submittersAllowlist ↔ (d, a) ∈ s.submittersAllowlist := by
  have hne : ∀ {d₁ : ℕ}, c.target s = some d₁ → d ≠ d₁ := by
    rintro d₁ htarget rfl
    exact hd htarget
  have hinsert : ∀ {d₁ : ℕ} (D₁ : DomainEntry A T₁ T₂ S M), c.target s = some d₁ →
      (s.domains.insert d₁ D₁).lookup d = s.domains.lookup d := by
    intro d₁ D₁ htarget
    exact Finmap.lookup_insert_of_ne _ (hne htarget)
  cases heffect with
  | skipped | initialized => exact ⟨rfl, fun _ => Iff.rfl⟩
  | accepted => exact ⟨hinsert _ rfl, fun _ => Iff.rfl⟩
  | aggregated => exact ⟨hinsert _ rfl, fun _ => Iff.rfl⟩
  | registered => exact ⟨hinsert _ rfl, fun _ => Iff.rfl⟩
  | held => exact ⟨hinsert _ rfl, fun _ => Iff.rfl⟩
  | unregistered => exact ⟨Finmap.lookup_erase_ne (hne rfl), fun _ => Iff.rfl⟩
  | feeSet => exact ⟨hinsert _ rfl, fun _ => Iff.rfl⟩
  | allowlisted _ hlookup =>
      refine ⟨hinsert _ rfl, ?_⟩
      intro a
      rw [mem_insertRows, hrep.id_eq _ _ hlookup]
      simp [hne rfl]
  | submittersRemoved _ hlookup _ _ hrows =>
      subst hrows
      refine ⟨hinsert _ rfl, ?_⟩
      intro a
      rw [mem_removeRows, hrep.id_eq _ _ hlookup]
      simp [hne rfl]

/-- No call changes what is fixed. -/
theorem effect_fixed (hrep : Represented s) (heffect : Effect cfg s c s')
    (hlookup : s.domains.lookup d = some D) (hlookup' : s'.domains.lookup d = some D') :
    D.Fixed D' := by
  cases stored_of_effect hrep heffect hlookup' with
  | kept D₁ hlookup₁ hupdated =>
      rw [hlookup] at hlookup₁
      cases hlookup₁
      cases hupdated with
      | moved hmoved => exact hmoved.fixed
      | repriced _ _ _ _ _ hdelivery =>
          subst hdelivery
          constructor <;> rfl
      | recounted ticket hmoved =>
          refine Fixed.trans ?_ hmoved.fixed
          constructor <;> rfl
  | registered _ hnone =>
      rw [hlookup] at hnone
      cases hnone

/-- A call of an account that does not own the domain changes only what it may. -/
theorem effect_guarded (hrep : Represented s) (hids : IdsBounded s) (heffect : Effect cfg s c s')
    (hx : cfg.managerOrigin (.signed x) = false) (hcaller : c.caller = some x)
    (hlookup : s.domains.lookup d = some D) (howner : D.owner ≠ .account x) :
    (∃ D', s'.domains.lookup d = some D' ∧ D.Guarded x D') ∧
      ∀ a, (d, a) ∈ s'.submittersAllowlist ↔ (d, a) ∈ s.submittersAllowlist := by
  have hreplace : ∀ {d₁ : ℕ} {D₁ D₁' : DomainEntry A T₁ T₂ S M}, s.domains.lookup d₁ = some D₁ →
      s'.domains = s.domains.insert d₁ D₁' → D₁.Guarded x D₁' →
        ∃ D', s'.domains.lookup d = some D' ∧ D.Guarded x D' := by
    intro d₁ D₁ D₁' hlookup₁ hdomains hguarded
    rw [hdomains]
    exact Finmap.exists_lookup_insert (Guarded.refl x) hlookup₁ hguarded hlookup
  -- A call that only the owner can make is about another domain.
  have hother : ∀ {origin : RawOrigin A} {user : User A} {d₁ : ℕ}
      {D₁ : DomainEntry A T₁ T₂ S M}, signer origin = some x →
      User.fromOrigin cfg origin = .ok user → s.domains.lookup d₁ = some D₁ →
      user.canHandleDomain D₁ = true → c.target s = some d₁ →
        (∃ D', s'.domains.lookup d = some D' ∧ D.Guarded x D') ∧
          ∀ a, (d, a) ∈ s'.submittersAllowlist ↔ (d, a) ∈ s.submittersAllowlist := by
    intro origin user d₁ D₁ hsigner horigin hlookup₁ hhandle htarget
    obtain rfl := eq_account_of_fromOrigin hx hsigner horigin
    have hd : c.target s ≠ some d := by
      rintro hd
      rw [hd] at htarget
      cases htarget
      rw [hlookup] at hlookup₁
      cases hlookup₁
      exact howner (owner_of_canHandleDomain hhandle)
    obtain ⟨hsame, hrows⟩ := effect_frame hrep heffect hd
    exact ⟨⟨D, hsame.trans hlookup, Guarded.refl x D⟩, hrows⟩
  cases heffect with
  | skipped | initialized => exact ⟨⟨D, hlookup, Guarded.refl x D⟩, fun _ => Iff.rfl⟩
  | accepted hlookup₁ hready hroom _ _ haccept =>
      refine ⟨hreplace hlookup₁ rfl ?_, fun _ => Iff.rfl⟩
      exact acceptStatement_guarded (hrep.wf _ _ hlookup₁) (hids _ _ hlookup₁) hready hroom haccept
  | aggregated _ hlookup₁ htake =>
      refine ⟨hreplace hlookup₁ rfl ?_, fun _ => Iff.rfl⟩
      exact (retired_of_takeAggregation _ (hrep.wf _ _ hlookup₁) (hids _ _ hlookup₁) htake).guarded
  | registered =>
      refine ⟨⟨D, ?_, Guarded.refl x D⟩, fun _ => Iff.rfl⟩
      rw [Finmap.lookup_insert_of_ne _ (hrep.id_lt d D hlookup).ne, hlookup]
  | held horigin hlookup₁ hhandle => exact hother hcaller horigin hlookup₁ hhandle rfl
  | unregistered horigin hlookup₁ hhandle => exact hother hcaller horigin hlookup₁ hhandle rfl
  | allowlisted horigin hlookup₁ hhandle => exact hother hcaller horigin hlookup₁ hhandle rfl
  | submittersRemoved horigin hlookup₁ hhandle => exact hother hcaller horigin hlookup₁ hhandle rfl
  | @feeSet _ d₁ _ _ _ D₁ horigin hlookup₁ hset =>
      obtain rfl := eq_account_of_fromOrigin hx hcaller horigin
      simp only [User.canSetTotalDeliveryFee, Bool.or_eq_true, decide_eq_true_eq] at hset
      rcases hset with hself | hdelivery
      · exact hother hcaller horigin hlookup₁ (decide_eq_true hself) rfl
      · refine ⟨hreplace hlookup₁ rfl ?_, fun _ => Iff.rfl⟩
        refine ⟨by constructor <;> rfl, rfl, rfl, ?_, ?_, ?_⟩
        · intro hne
          exact absurd hdelivery.symm hne
        · intro hready hne
          exact absurd hready hne
        · intro hhold hne
          exact absurd hhold hne

/-! ## Deposits of other accounts -/

theorem newTicketDomain_held_of_other (hcfg : cfg.Lawful) {r : HoldReason} (hy : y ≠ x)
    {size queue : ℕ} {destination : Destination} {ticket : Option T₁} {l l' : X}
    (h : newTicketDomain cfg S M (.account x) size queue destination l = .ok (ticket, l')) :
    (cfg.book l').held r y = (cfg.book l).held r y := by
  obtain ⟨⟨t, l₁⟩, hnew, h⟩ := seq_eq_ok.mp h
  cases h
  exact hcfg.domain.new_held_of_other hy hnew

theorem newTicketAllowlist_held_of_other (hcfg : cfg.Lawful) {r : HoldReason} (hy : y ≠ x)
    {rules : ProofSecurityRules} {ticket : Option (CountableTicket T₂)} {l l' : X}
    (h : newTicketAllowlist cfg (.account x) rules l = .ok (ticket, l')) :
    (cfg.book l').held r y = (cfg.book l).held r y := by
  unfold newTicketAllowlist at h
  split at h
  · obtain ⟨⟨t, l₁⟩, hnew, h⟩ := seq_eq_ok.mp h
    cases h
    exact hcfg.allowlist.new_held_of_other hy hnew
  · cases h
    rfl

theorem changeFootprintCount_held_of_other (hcfg : cfg.Lawful) {r : HoldReason} (hy : y ≠ x)
    {recount : ℕ → Option ℕ} {l l' : X} (howner : D.owner = .account x)
    (h : D.changeFootprintCount cfg recount l = .ok (D', l')) :
    (cfg.book l').held r y = (cfg.book l).held r y := by
  rcases changeFootprintCount_ok h with
    ⟨-, rfl, -⟩ | ⟨owner, _, _, _, _, howner', -, -, hupdate, -⟩
  · rfl
  · rw [howner] at howner'
    cases howner'
    exact hcfg.allowlist.update_held_of_other hy hupdate

theorem dropTicket_held_of_other {T : Type}
    {C : Consideration A X T (DispatchError Error)} {r r' : HoldReason}
    (hC : C.HoldsPrice cfg.hold r') (hy : y ≠ x) (ticket : Option T) (l : X) :
    (cfg.book (dropTicket C (some x) ticket l)).held r y = (cfg.book l).held r y := by
  cases ticket with
  | none => rfl
  | some t =>
      unfold dropTicket
      dsimp only
      split
      · rename_i hdrop
        exact hC.drop_held_of_other hy hdrop
      · rfl

/-- A call of `x` leaves the deposits of all other accounts on hold. -/
theorem effect_deposits (hcfg : cfg.Lawful) (heffect : Effect cfg s c s')
    (hx : cfg.managerOrigin (.signed x) = false) (hcaller : c.caller = some x) (hy : y ≠ x)
    {r : HoldReason} (hr : r = .domain ∨ r = .allowlist) :
    (cfg.book s'.chain).held r y = (cfg.book s.chain).held r y := by
  have hfees : r ≠ .aggregation ∧ r ≠ .delivery := by
    rcases hr with rfl | rfl <;> exact ⟨by decide, by decide⟩
  cases heffect with
  | initialized | held | feeSet => rfl
  | skipped _ hchain =>
      rcases hchain with rfl | ⟨D, a, e, hreserve⟩
      · rfl
      · show (cfg.book _).held r y = _
        rw [reserveCurrency_error hcfg.currency hreserve]
  | accepted _ _ _ _ hreserve =>
      show (cfg.book _).held r y = _
      rw [reserveCurrency_ok hcfg.currency hreserve, holdReserve,
        Book.held_hold_of_ne _ hfees.2, Book.held_hold_of_ne _ hfees.1]
  | aggregated =>
      exact settleStatements_held_of_ne hcfg.currency hfees.1 hfees.2 _ _ y _ _
  | registered horigin _ _ hdomain hallowlist =>
      obtain rfl := eq_account_of_fromOrigin hx hcaller horigin
      exact (newTicketAllowlist_held_of_other hcfg hy hallowlist).trans
        (newTicketDomain_held_of_other hcfg hy hdomain)
  | unregistered horigin hlookup hhandle =>
      obtain rfl := eq_account_of_fromOrigin hx hcaller horigin
      exact (dropTicket_held_of_other hcfg.allowlist hy _ _).trans
        (dropTicket_held_of_other hcfg.domain hy _ _)
  | allowlisted horigin hlookup hhandle _ _ hcount =>
      obtain rfl := eq_account_of_fromOrigin hx hcaller horigin
      exact changeFootprintCount_held_of_other hcfg hy (owner_of_canHandleDomain hhandle) hcount
  | submittersRemoved horigin hlookup hhandle _ _ hcount =>
      obtain rfl := eq_account_of_fromOrigin hx hcaller horigin
      exact changeFootprintCount_held_of_other hcfg hy (owner_of_canHandleDomain hhandle) hcount

/-! ## Reachable states -/

/-- In every reachable state, an account that is not the manager cannot touch what is guarded of a
domain it does not own, nor the deposits of others; no call touches a domain it does not name; and
what is fixed stays so for the life of the domain. -/
theorem domain_authority (hcfg : cfg.Lawful) (hs : Reachable cfg kept s) :
    (∀ x c, cfg.managerOrigin (.signed x) = false → c.caller = some x →
      let s' := exec s (.call c : Step cfg kept)
      (∀ d D, s.domains.lookup d = some D → D.owner ≠ .account x →
        (∃ D', s'.domains.lookup d = some D' ∧ D.Guarded x D') ∧
          ∀ a, (d, a) ∈ s'.submittersAllowlist ↔ (d, a) ∈ s.submittersAllowlist) ∧
      (∀ y, y ≠ x →
        (cfg.book s'.chain).held .domain y = (cfg.book s.chain).held .domain y ∧
          (cfg.book s'.chain).held .allowlist y = (cfg.book s.chain).held .allowlist y)) ∧
      (∀ c d, c.target s ≠ some d →
        let s' := exec s (.call c : Step cfg kept)
        s'.domains.lookup d = s.domains.lookup d ∧
          ∀ a, (d, a) ∈ s'.submittersAllowlist ↔ (d, a) ∈ s.submittersAllowlist) ∧
      (∀ (steps : List (Step cfg kept)) d D D', s.domains.lookup d = some D →
        (run s steps).domains.lookup d = some D' → D.Fixed D') := by
  have hrep := hs.represented
  refine ⟨?_, ?_, ?_⟩
  · intro x c hx hcaller
    simp only [exec]
    split
    · rename_i s' info hok
      have heffect := effect_of_dispatch hok
      refine ⟨?_, ?_⟩
      · intro d D hlookup howner
        exact effect_guarded hrep hs.idsBounded heffect hx hcaller hlookup howner
      · intro y hy
        exact ⟨effect_deposits hcfg heffect hx hcaller hy (.inl rfl),
          effect_deposits hcfg heffect hx hcaller hy (.inr rfl)⟩
    · exact ⟨fun d D hlookup _ => ⟨⟨D, hlookup, Guarded.refl x D⟩, fun _ => Iff.rfl⟩,
        fun y _ => ⟨rfl, rfl⟩⟩
  · intro c d hd
    simp only [exec]
    split
    · rename_i s' info hok
      exact effect_frame hrep (effect_of_dispatch hok) hd
    · exact ⟨rfl, fun _ => Iff.rfl⟩
  · intro steps d D D' hlookup hlookup'
    apply domain_run (Fixed.refl D) ?_ ?_ hrep hlookup steps hlookup'
    · intro D₁ D₂ h h'
      exact h.trans h'
    · intro s₁ c s₂ D₁ D₂ hrep₁ heffect hlookup₁ hlookup₂
      exact effect_fixed hrep₁ heffect hlookup₁ hlookup₂

theorem domain_authority_sample :
    let s : State ℕ (Book ℕ HoldReason) ℕ ℕ 4 2 := run (.genesis sampleBook) sampleWaiting
    let s' := exec s (.call (.aggregate (.signed 3) 0 1) : Step sampleConfig ∅)
    ∃ D D', s.domains.lookup 0 = some D ∧ s'.domains.lookup 0 = some D' ∧ D.Guarded 3 D' := by
  intro s s'
  have hstored : ∃ D ∈ s.domains.lookup 0, D.owner ≠ .account 3 := by decide
  obtain ⟨D, hlookup, howner⟩ := hstored
  have hauthority := domain_authority (s := s) sampleConfig_lawful ⟨sampleBook, sampleWaiting, rfl⟩
  obtain ⟨⟨D', hlookup', hguarded⟩, -⟩ :=
    (hauthority.1 3 (.aggregate (.signed 3) 0 1) rfl rfl).1 0 D hlookup howner
  exact ⟨D, D', hlookup, hlookup', hguarded⟩

end ZkVerify.Aggregate
