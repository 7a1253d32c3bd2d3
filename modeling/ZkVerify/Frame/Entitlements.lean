import Mathlib.Data.List.Basic
import Mathlib.Logic.Function.Basic

/-!
# Entitlements that are paid at most once

The abstract history of a component that pays entitlements in periods.  A period is opened
on an empty table; while it is open, entitlements are added under keys that have none and
paid out; after it has ended, what is left may be dropped, all of it before the next
period.  `Replay` relates two tables by the acts between them.  From it follow, for every
key:

* `paid_prefix`: the amounts paid in a period are an initial part of those added in it;
* `paid_sublist`: the amounts paid after a period has ended were added after it.

Both come from one balance, `due_append_added`: what was due and what was added is what was
paid and what is due.
-/

namespace Frame.Entitlements

/-- What is done to a table of entitlements. -/
inductive Act (K V : Type)
  | opened
  | added (key : K) (amount : V)
  | paid (key : K) (amount : V)
  | ended
  | trimmed

/-- The entitlements that are not paid yet, and whether a period is open. -/
structure Table (K V : Type) where
  active : Bool
  outstanding : K → Option V

variable {K V : Type} [DecidableEq K]

/-- One act. -/
inductive Step : Table K V → Act K V → Table K V → Prop
  | opened {t : Table K V} (hinactive : t.active = false) (hclear : ∀ k, t.outstanding k = none) :
      Step t .opened ⟨true, t.outstanding⟩
  | added {t : Table K V} {k : K} {n : V} (hactive : t.active = true)
      (hnew : t.outstanding k = none) :
      Step t (.added k n) ⟨true, Function.update t.outstanding k (some n)⟩
  | paid {t : Table K V} {k : K} {n : V} (hactive : t.active = true)
      (hdue : t.outstanding k = some n) :
      Step t (.paid k n) ⟨true, Function.update t.outstanding k none⟩
  | ended {t : Table K V} (hactive : t.active = true) : Step t .ended ⟨false, t.outstanding⟩
  | trimmed {t : Table K V} {outstanding : K → Option V} (hinactive : t.active = false)
      (hsub : ∀ k n, outstanding k = some n → t.outstanding k = some n) :
      Step t .trimmed ⟨false, outstanding⟩

/-- A list of acts. -/
inductive Replay : Table K V → List (Act K V) → Table K V → Prop
  | nil (t : Table K V) : Replay t [] t
  | cons {t t' t'' : Table K V} {act : Act K V} {acts : List (Act K V)} (hstep : Step t act t')
      (hrest : Replay t' acts t'') : Replay t (act :: acts) t''

/-- The amounts added under a key. -/
def addedTo (k : K) (acts : List (Act K V)) : List V :=
  acts.filterMap fun
    | .added key n => if key = k then some n else none
    | _ => none

/-- The amounts paid under a key. -/
def paidTo (k : K) (acts : List (Act K V)) : List V :=
  acts.filterMap fun
    | .paid key n => if key = k then some n else none
    | _ => none

/-- What can still be paid under a key in the current period. -/
def Table.due (t : Table K V) (k : K) : List V :=
  if t.active then (t.outstanding k).toList else []

variable {t t' t'' : Table K V} {act : Act K V} {acts acts' : List (Act K V)} {k : K}

@[simp] theorem addedTo_append : addedTo k (acts ++ acts') = addedTo k acts ++ addedTo k acts' :=
  List.filterMap_append

@[simp] theorem paidTo_append : paidTo k (acts ++ acts') = paidTo k acts ++ paidTo k acts' :=
  List.filterMap_append

omit [DecidableEq K] in
theorem Table.due_of_inactive (h : t.active = false) : t.due k = [] := by
  rw [Table.due, h]
  rfl

theorem Replay.append (h : Replay t acts t') (h' : Replay t' acts' t'') :
    Replay t (acts ++ acts') t'' := by
  induction h with
  | nil t => exact h'
  | cons hstep _ ih => exact .cons hstep (ih h')

theorem Replay.split (h : Replay t (acts ++ acts') t'') :
    ∃ t', Replay t acts t' ∧ Replay t' acts' t'' := by
  induction acts generalizing t with
  | nil => exact ⟨t, .nil t, h⟩
  | cons act acts ih =>
      cases h with
      | cons hstep hrest =>
          obtain ⟨t', hacts, hacts'⟩ := ih hrest
          exact ⟨t', .cons hstep hacts, hacts'⟩

/-- One act that does not end the period. -/
private theorem Step.due_append_added (h : Step t act t') (hne : act ≠ .ended) :
    t.due k ++ addedTo k [act] = paidTo k [act] ++ t'.due k := by
  cases h with
  | opened hinactive hclear =>
      simp [Table.due, hinactive, hclear, addedTo, paidTo]
  | @added key n hactive hnew =>
      by_cases hk : key = k
      · subst hk
        simp [Table.due, hactive, hnew, addedTo, paidTo]
      · simp [Table.due, hactive, addedTo, paidTo, hk, Function.update_of_ne (Ne.symm hk)]
  | @paid key n hactive hdue =>
      by_cases hk : key = k
      · subst hk
        simp [Table.due, hactive, hdue, addedTo, paidTo]
      · simp [Table.due, hactive, addedTo, paidTo, hk, Function.update_of_ne (Ne.symm hk)]
  | ended => exact absurd rfl hne
  | trimmed hinactive => simp [Table.due, hinactive, addedTo, paidTo]

/-- Without an end, what was due or added is what was paid or is due. -/
theorem Replay.due_append_added (h : Replay t acts t') (hended : .ended ∉ acts) :
    t.due k ++ addedTo k acts = paidTo k acts ++ t'.due k := by
  induction h with
  | nil t => exact List.append_nil _
  | @cons t t' t'' act acts hstep hrest ih =>
      obtain ⟨hne, hended⟩ := not_or.mp (mt List.mem_cons.mpr hended)
      have hfirst := hstep.due_append_added (k := k) (Ne.symm hne)
      rw [← List.singleton_append, addedTo_append, paidTo_append, ← List.append_assoc, hfirst,
        List.append_assoc, ih hended, List.append_assoc]

/-- In a period the amounts paid are an initial part of those added. -/
theorem Replay.paid_prefix (h : Replay t (.opened :: acts) t') (hended : .ended ∉ acts) (k : K) :
    paidTo k acts <+: addedTo k acts := by
  cases h with
  | cons hstep hrest =>
      cases hstep with
      | opened hinactive hclear =>
          have hbalance := hrest.due_append_added (k := k) hended
          simp only [Table.due, hclear, if_true, Option.toList_none, List.nil_append] at hbalance
          exact ⟨_, hbalance.symm⟩

/-- What is paid was due or is added before. -/
theorem Replay.paid_sublist_due (h : Replay t acts t') (k : K) :
    (paidTo k acts).Sublist (t.due k ++ addedTo k acts) := by
  induction h with
  | nil t => exact List.nil_sublist _
  | @cons t t' t'' act acts hstep hrest ih =>
      rw [← List.singleton_append, addedTo_append, paidTo_append, ← List.append_assoc]
      by_cases hended : act = .ended
      · -- An end forgets what was due.
        subst hended
        cases hstep with
        | ended hactive =>
            have hnone : paidTo k ([.ended] : List (Act K V)) = [] := rfl
            rw [Table.due_of_inactive rfl, List.nil_append] at ih
            rw [hnone, List.nil_append]
            exact ih.trans (List.sublist_append_right _ _)
      · rw [hstep.due_append_added hended, List.append_assoc]
        exact List.Sublist.append_left ih _

/-- After the end of a period only what is added later is paid. -/
theorem Replay.paid_sublist (h : Replay t acts t') (hinactive : t.active = false) (k : K) :
    (paidTo k acts).Sublist (addedTo k acts) := by
  have hsublist := h.paid_sublist_due k
  rwa [Table.due_of_inactive hinactive, List.nil_append] at hsublist

/-- A table that was trimmed last has no open period. -/
theorem Replay.inactive_of_trimmed (h : Replay t (acts ++ [.trimmed]) t') : t'.active = false := by
  obtain ⟨_, -, hlast⟩ := h.split
  cases hlast with
  | cons hstep hrest =>
      cases hstep
      cases hrest
      rfl

end Frame.Entitlements
