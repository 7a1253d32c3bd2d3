import ZkVerify.Aggregate.Lifecycle

/-!
# The tickets for allowlists

A domain with an allowlist that an account owns carries a ticket with a counter, and no
other domain does.  `Counted` says that this holds of all stored domains and that the
counters are the numbers of rows.  The counters are changed by the number of rows that
`insertRows` and `removeRows` really write, so this needs no assumption on the
deposits: it holds whatever the tickets stand for.
-/

namespace ZkVerify.Aggregate

open Frame DomainEntry

variable {A X T₁ T₂ : Type} {S M : ℕ}

/-! ## One domain -/

/-- The domain has a ticket for `count` rows exactly if an account owns it and it has an
allowlist. -/
structure DomainEntry.TicketMatches (D : DomainEntry A T₁ T₂ S M) (count : ℕ) : Prop where
  owned : ∀ owner, D.owner = .account owner → D.proofRules = .onlyAllowlisted →
    ∃ ticket, D.ticketAllowlist = some ⟨ticket, count⟩
  free : D.owner = .manager ∨ D.proofRules ≠ .onlyAllowlisted → D.ticketAllowlist = none

namespace DomainEntry.TicketMatches

variable {D D' : DomainEntry A T₁ T₂ S M} {count : ℕ}

/-- Only the owner, the rules and the ticket matter. -/
theorem congr (h : D.TicketMatches count) (howner : D'.owner = D.owner)
    (hrules : D'.proofRules = D.proofRules) (hticket : D'.ticketAllowlist = D.ticketAllowlist) :
    D'.TicketMatches count :=
  ⟨by rw [howner, hrules, hticket]; exact h.owned, by rw [howner, hrules, hticket]; exact h.free⟩

theorem of_account {owner : A} {ticket : T₂} (howner : D.owner = .account owner)
    (hrules : D.proofRules = .onlyAllowlisted)
    (hticket : D.ticketAllowlist = some ⟨ticket, count⟩) : D.TicketMatches count := by
  refine ⟨fun _ _ _ => ⟨ticket, hticket⟩, fun hfree => ?_⟩
  rcases hfree with hmanager | hne
  · simp [howner] at hmanager
  · exact absurd hrules hne

/-- A ticket belongs to an account and counts the rows. -/
theorem of_ticket (h : D.TicketMatches count) {ticket : CountableTicket T₂}
    (hticket : D.ticketAllowlist = some ticket) :
    (∃ owner, D.owner = .account owner) ∧ D.proofRules = .onlyAllowlisted ∧
      ticket.count = count := by
  have hrules : D.proofRules = .onlyAllowlisted := by
    by_contra hne
    simp [h.free (.inr hne)] at hticket
  cases howner : D.owner with
  | manager => simp [h.free (.inl howner)] at hticket
  | account owner =>
      obtain ⟨t, ht⟩ := h.owned owner howner hrules
      rw [hticket, Option.some.injEq] at ht
      subst ht
      exact ⟨⟨owner, rfl⟩, hrules, rfl⟩

/-- A change of the count changes the counter of the ticket, if there is one. -/
theorem changeFootprintCount {cfg : Config A X T₁ T₂} {recount : ℕ → Option ℕ} {x x' : X}
    {count' : ℕ} (h : D.TicketMatches count) (hrules : D.proofRules = .onlyAllowlisted)
    (hrecount : ∀ n, recount count = some n → n = count')
    (hchange : D.changeFootprintCount cfg recount x = .ok (D', x')) :
    D'.TicketMatches count' := by
  rcases changeFootprintCount_ok hchange with
    ⟨rfl, -, hnone⟩ | ⟨owner, ticket, n, ticket', n', howner, hticket, hn, -, rfl⟩
  · -- A domain with an allowlist but without a ticket belongs to the manager.
    have hnone : D'.ticketAllowlist = none :=
      hnone.elim (fun hmanager => h.free (.inl hmanager)) fun hnone => hnone
    refine ⟨fun owner howner _ => ?_, fun _ => hnone⟩
    obtain ⟨t, ht⟩ := h.owned owner howner hrules
    simp [hnone] at ht
  · obtain ⟨-, -, hcount⟩ := h.of_ticket hticket
    dsimp only at hcount
    subst hcount
    obtain rfl := hrecount n' hn
    exact .of_account howner hrules rfl

end DomainEntry.TicketMatches

/-- A ticket is bought exactly if an account registers a domain with an allowlist. -/
theorem newTicketAllowlist_ok {cfg : Config A X T₁ T₂} {caller : User A}
    {rules : ProofSecurityRules} {ticket : Option (CountableTicket T₂)} {x x' : X}
    (h : newTicketAllowlist cfg caller rules x = .ok (ticket, x')) :
    (ticket = none ∧ x' = x ∧ (caller = .manager ∨ rules ≠ .onlyAllowlisted)) ∨
      ∃ a t, caller = .account a ∧ rules = .onlyAllowlisted ∧ ticket = some ⟨t, 0⟩ ∧
        cfg.considerationAllowList.new a ⟨0, 0⟩ x = .ok (t, x') := by
  unfold newTicketAllowlist at h
  split at h
  · rename_i hrules
    cases caller with
    | manager =>
        cases h
        exact .inl ⟨rfl, rfl, .inl rfl⟩
    | account a =>
        obtain ⟨⟨t, x₁⟩, hnew, h⟩ := seq_eq_ok.mp h
        cases h
        exact .inr ⟨a, t, rfl, hrules, rfl, hnew⟩
  · rename_i hrules
    cases h
    exact .inl ⟨rfl, rfl, .inr hrules⟩

/-! ## All domains -/

variable [DecidableEq A] {cfg : Config A X T₁ T₂} {kept : Set HoldReason}
  {s s' : State A X T₁ T₂ S M} {c : Call A}

/-- Every ticket counts the rows of its domain. -/
def Counted (s : State A X T₁ T₂ S M) : Prop :=
  ∀ d D, s.domains.lookup d = some D → D.TicketMatches (rowCount d s.submittersAllowlist)

/-- The conversions of the counters lose nothing. -/
theorem saturatedInto_count {n : ℕ} (h : n ≤ u32Max) :
    saturatedInto u32Max (saturatedInto u64Max n) = n := by
  rw [saturatedInto_of_le (h.trans (by decide)), saturatedInto_of_le h]

/-- The counter after `increase_footprint_count` is the new number of rows. -/
theorem increase_recount (id : ℕ) (rows : Finset (ℕ × A)) (submitters : BoundedVec A u32Max) (n : ℕ)
    (h : checkedAdd u32Max (rowCount id rows) (saturatedInto u32Max (saturatedInto u64Max
      (insertRows id rows submitters.toList).2)) = some n) :
    n = rowCount id (insertRows id rows submitters.toList).1 := by
  have hle := (insertRows_count_le id rows submitters.toList).trans submitters.length_le
  have hrows := insertRows_count id rows submitters.toList
  rw [saturatedInto_count hle, checkedAdd_eq_some] at h
  omega

/-- The counter after `decrease_footprint_count` is the new number of rows. -/
theorem decrease_recount (id : ℕ) (rows : Finset (ℕ × A)) (submitters : BoundedVec A u32Max) (n : ℕ)
    (h : checkedSub (rowCount id rows) (saturatedInto u32Max (saturatedInto u64Max
      (removeRows id rows submitters.toList).2)) = some n) :
    n = rowCount id (removeRows id rows submitters.toList).1 := by
  have hle := (removeRows_count_le id rows submitters.toList).trans submitters.length_le
  have hrows := removeRows_count id rows submitters.toList
  rw [saturatedInto_count hle, checkedSub_eq_some] at h
  omega

/-- The counter is never less than the number of rows to be removed. -/
theorem decrease_recount_ne_none (id : ℕ) (rows : Finset (ℕ × A)) (submitters : List A) :
    checkedSub (rowCount id rows) (saturatedInto u32Max (saturatedInto u64Max
      (removeRows id rows submitters).2)) ≠ none := by
  have hrows := removeRows_count id rows submitters
  have hle : saturatedInto u32Max (saturatedInto u64Max (removeRows id rows submitters).2) ≤
      rowCount id rows :=
    calc saturatedInto u32Max (saturatedInto u64Max (removeRows id rows submitters).2)
        ≤ saturatedInto u64Max (removeRows id rows submitters).2 := saturatedInto_le _ _
      _ ≤ (removeRows id rows submitters).2 := saturatedInto_le _ _
      _ ≤ rowCount id rows := by omega
  rw [checkedSub, if_pos hle]
  simp

/-- An id that was not given out yet has no rows. -/
theorem HoldStates.rowCount_next (hrep : Represented s) (hstates : HoldStates s) :
    rowCount s.nextDomainId s.submittersAllowlist = 0 := by
  rw [rowCount_eq_zero]
  intro a hmem
  obtain ⟨D, hlookup, -⟩ := hstates.rows _ a hmem
  exact absurd (hrep.id_lt _ D hlookup) (lt_irrefl _)

namespace Counted

variable {d : ℕ} {D D' : DomainEntry A T₁ T₂ S M}

omit [DecidableEq A] in
/-- Replace the domain `d` and change its rows only. -/
theorem replace (h : Counted s) (hdomains : s'.domains = s.domains.insert d D')
    (hothers : ∀ d' a, d' ≠ d →
      ((d', a) ∈ s'.submittersAllowlist ↔ (d', a) ∈ s.submittersAllowlist))
    (hticket : D'.TicketMatches (rowCount d s'.submittersAllowlist)) : Counted s' := by
  unfold Counted
  rw [hdomains]
  refine Finmap.forall_lookup_insert hticket fun d' D₁ hd' hlookup₁ => ?_
  rw [rowCount_congr fun a => hothers d' a hd']
  exact h d' D₁ hlookup₁

omit [DecidableEq A] in
/-- Replace a stored domain by one with the same owner, rules and ticket; no row changes. -/
theorem replace_same (h : Counted s) (hlookup : s.domains.lookup d = some D)
    (hdomains : s'.domains = s.domains.insert d D')
    (hallowlist : s'.submittersAllowlist = s.submittersAllowlist) (howner : D'.owner = D.owner)
    (hrules : D'.proofRules = D.proofRules) (hticket : D'.ticketAllowlist = D.ticketAllowlist) :
    Counted s' := by
  refine h.replace hdomains (by simp [hallowlist]) ?_
  rw [hallowlist]
  exact (h d D hlookup).congr howner hrules hticket

/-- Every successful call keeps the counters right. -/
theorem effect (hrep : Represented s) (hstates : HoldStates s) (h : Counted s)
    (heffect : Effect cfg s c s') : Counted s' := by
  cases heffect with
  | initialized | skipped => exact h
  | accepted hlookup hready hroom _ _ haccept =>
      have hmoved := acceptStatement_moved (hrep.wf _ _ hlookup) hready hroom haccept
      exact h.replace_same hlookup rfl rfl hmoved.owner hmoved.proofRules hmoved.ticketAllowlist
  | aggregated _ hlookup htake =>
      have hmoved := (takeAggregation_moved (hrep.wf _ _ hlookup) htake).trans
        (handleHoldState_moved _ s.submittersAllowlist)
      exact h.replace_same hlookup rfl rfl hmoved.owner hmoved.proofRules hmoved.ticketAllowlist
  | registered _ _ _ _ hallowlist hcreate =>
      obtain ⟨-, rfl⟩ := tryCreate_ok hcreate
      refine h.replace rfl (by simp [State.deposit]) ?_
      show TicketMatches _ (rowCount s.nextDomainId s.submittersAllowlist)
      -- The id is new, so it has no rows, and a new ticket counts none.
      rw [hstates.rowCount_next hrep]
      rcases newTicketAllowlist_ok hallowlist with ⟨rfl, -, hfree⟩ | ⟨a, t, rfl, rfl, rfl, -⟩
      · refine ⟨fun owner howner hrules => ?_, fun _ => rfl⟩
        rcases hfree with hmanager | hne
        · cases hmanager.symm.trans howner
        · exact absurd hrules hne
      · exact .of_account rfl rfl rfl
  | held _ hlookup => exact h.replace_same hlookup rfl rfl rfl rfl rfl
  | unregistered => exact Finmap.forall_lookup_erase fun d D _ => h d D
  | feeSet _ hlookup => exact h.replace_same hlookup rfl rfl rfl rfl rfl
  | @allowlisted _ d submitters _ D _ _ _ hlookup _ _ hrules hcount =>
      have hid : D.id = d := hrep.id_eq d D hlookup
      refine h.replace rfl (fun d' a hd' => ?_) ?_
      · rw [mem_insertRows, hid]
        simp [hd']
      · rw [hid] at hcount
        rw [hid]
        exact (h d D hlookup).changeFootprintCount hrules
          (increase_recount d s.submittersAllowlist submitters) hcount
  | @submittersRemoved _ d submitters _ D D' rows _ _ hlookup _ hrules hrows hcount =>
      have hid : D.id = d := hrep.id_eq d D hlookup
      have hmoved := D'.handleHoldState_moved rows
      rw [hid] at hcount hrows
      refine h.replace rfl (fun d' a hd' => ?_)
        (TicketMatches.congr ?_ hmoved.owner hmoved.proofRules hmoved.ticketAllowlist)
      · show (d', a) ∈ rows ↔ _
        rw [hrows, mem_removeRows]
        simp [hd']
      · show D'.TicketMatches (rowCount d rows)
        rw [hrows]
        exact (h d D hlookup).changeFootprintCount hrules
          (decrease_recount d s.submittersAllowlist submitters) hcount

omit [DecidableEq A] in
theorem genesis (x : X) : Counted (.genesis x : State A X T₁ T₂ S M) := by
  simp [Counted, State.genesis]

end Counted

/-- After every run every ticket counts the rows of its domain. -/
theorem counted_run (hrep : Represented s) (hstates : HoldStates s) (h : Counted s)
    (steps : List (Step cfg kept)) : Counted (run s steps) := by
  have hboth : HoldStates (run s steps) ∧ Counted (run s steps) := by
    apply effect_induction (P := fun s => HoldStates s ∧ Counted s) hrep ⟨hstates, h⟩
    · rintro s c s' _ hrep ⟨hstates, h⟩ heffect
      exact ⟨hstates.effect hrep heffect, h.effect hrep hstates heffect⟩
    · rintro s e ⟨hstates, h⟩
      exact ⟨⟨hstates.evaluated, hstates.rows⟩, h⟩
  exact hboth.2

theorem Reachable.counted (hs : Reachable cfg kept s) : Counted s := by
  obtain ⟨x, steps, rfl⟩ := hs
  exact counted_run (.genesis x) (.genesis x) (Counted.genesis x) steps

end ZkVerify.Aggregate
