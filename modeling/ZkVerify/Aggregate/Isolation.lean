import ZkVerify.Frame.Shared
import ZkVerify.Aggregate.Representation

/-!
# What the pallet leaves alone

The pallet changes the chain outside its storage only through its currency and its two deposits.
So whatever these leave alone, a balance held by another pallet for instance, every operation
leaves alone: `Effect.keeps`.  Nothing else is assumed about them here, in particular not that
they succeed.
-/

namespace ZkVerify.Aggregate

open Frame

variable {A X T₁ T₂ Q : Type} {S M : ℕ} {cfg : Config A X T₁ T₂} {q : X → Q} {x x' : X}

/-- The currency and the deposits leave a quantity alone. -/
structure Config.Keeps (cfg : Config A X T₁ T₂) (q : X → Q) : Prop where
  hold : cfg.hold.Keeps q
  domain : cfg.considerationDomain.Keeps q
  allowlist : cfg.considerationAllowList.Keeps q

namespace Config.Keeps

theorem reserveCurrency (hq : cfg.Keeps q) {D : DomainEntry A T₁ T₂ S M} {account : A}
    {result : Except (DispatchError Error) Reserve}
    (h : D.reserveCurrency cfg account x = .ok (result, x')) : q x' = q x := by
  unfold DomainEntry.reserveCurrency at h
  dsimp only at h
  split at h
  · cases h
  · split at h
    · cases h
      rfl
    · rename_i x₁ hfirst
      split at h
      · rename_i x₂ hsecond
        cases h
        exact (hq.hold.hold hsecond).trans (hq.hold.hold hfirst)
      · split at h
        · rename_i hrelease
          cases h
          exact (hq.hold.release hrelease).trans (hq.hold.hold hfirst)
        · cases h

theorem handleHeldFunds (hq : cfg.Keeps q) (reason : HoldReason) (account : A) (dest : Option A)
    (amount : ℕ) (x : X) : q (handleHeldFunds cfg reason account dest amount x) = q x := by
  unfold Aggregate.handleHeldFunds
  dsimp only
  split
  · rename_i m x₁ htransfer
    obtain ⟨y, -, htransfer⟩ := Option.bind_eq_some_iff.mp htransfer
    cases hok : cfg.hold.transferOnHold reason account y amount .bestEffort .free .polite x with
    | error e => simp [hok, Except.toOption] at htransfer
    | ok moved =>
        simp only [hok, Except.toOption, Option.some.injEq] at htransfer
        subst htransfer
        exact hq.hold.transferOnHold hok
  · split
    · rename_i hrelease
      exact hq.hold.release hrelease
    · rfl

theorem settleStatements (hq : cfg.Keeps q) (aggregator : User A) (deliveryOwner : A)
    (statements : List (StatementEntry A)) (x : X) :
    q (statements.foldl (settleStatement cfg aggregator deliveryOwner) x) = q x := by
  induction statements generalizing x with
  | nil => rfl
  | cons statement statements ih =>
      rw [List.foldl_cons, ih, settleStatement, hq.handleHeldFunds, hq.handleHeldFunds]

theorem dropTicket {T : Type} {C : Consideration A X T (DispatchError Error)} (hC : C.Keeps q)
    (payer : Option A) (ticket : Option T) (x : X) : q (dropTicket C payer ticket x) = q x := by
  unfold Aggregate.dropTicket
  split
  · split
    · rename_i hdrop
      exact hC.drop hdrop
    · rfl
  · rfl

theorem newTicketDomain (hC : cfg.considerationDomain.Keeps q) {caller : User A} {size queue : ℕ}
    {destination : Destination} {ticket : Option T₁}
    (h : newTicketDomain cfg S M caller size queue destination x = .ok (ticket, x')) :
    q x' = q x := by
  unfold Aggregate.newTicketDomain at h
  split at h
  · cases h
    rfl
  · obtain ⟨⟨t, x₁⟩, hnew, h⟩ := seq_eq_ok.mp h
    cases h
    exact hC.new hnew

theorem newTicketAllowlist (hC : cfg.considerationAllowList.Keeps q) {caller : User A}
    {rules : ProofSecurityRules} {ticket : Option (CountableTicket T₂)}
    (h : newTicketAllowlist cfg caller rules x = .ok (ticket, x')) : q x' = q x := by
  unfold Aggregate.newTicketAllowlist at h
  split at h
  · split at h
    · cases h
      rfl
    · obtain ⟨⟨t, x₁⟩, hnew, h⟩ := seq_eq_ok.mp h
      cases h
      exact hC.new hnew
  · cases h
    rfl

theorem changeFootprintCount (hC : cfg.considerationAllowList.Keeps q) {recount : ℕ → Option ℕ}
    {D D' : DomainEntry A T₁ T₂ S M} (h : D.changeFootprintCount cfg recount x = .ok (D', x')) :
    q x' = q x := by
  rcases DomainEntry.changeFootprintCount_ok h with
    ⟨-, rfl, -⟩ | ⟨_, _, _, _, _, -, -, -, hupdate, -⟩
  · rfl
  · exact hC.update hupdate

end Config.Keeps

/-- Every operation leaves alone what the currency and the deposits leave alone. -/
theorem Effect.keeps [DecidableEq A] {s s' : State A X T₁ T₂ S M} {c : Call A} (hq : cfg.Keeps q)
    (h : Effect cfg s c s') : q s'.chain = q s.chain := by
  cases h with
  | skipped _ hchain =>
      rcases hchain with rfl | ⟨D, a, e, hreserve⟩
      · rfl
      · exact hq.reserveCurrency hreserve
  | accepted _ _ _ _ hreserve => exact hq.reserveCurrency hreserve
  | aggregated => exact hq.settleStatements _ _ _ _
  | registered _ _ _ hdomain hallowlist =>
      exact (Config.Keeps.newTicketAllowlist hq.allowlist hallowlist).trans
        (Config.Keeps.newTicketDomain hq.domain hdomain)
  | unregistered =>
      exact (Config.Keeps.dropTicket hq.allowlist _ _ _).trans
        (Config.Keeps.dropTicket hq.domain _ _ _)
  | allowlisted _ _ _ _ _ hcount | submittersRemoved _ _ _ _ _ hcount =>
      exact Config.Keeps.changeFootprintCount hq.allowlist hcount
  | held | feeSet | initialized => rfl

end ZkVerify.Aggregate
