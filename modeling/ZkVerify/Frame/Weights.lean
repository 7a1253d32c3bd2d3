import ZkVerify.Frame.Dispatch
import Mathlib.Algebra.Group.Nat.Defs
import Mathlib.Order.Lattice
import Mathlib.Order.Lattice.Nat

/-!
# Weights

The arithmetic of weights and the order on them, and the weight that a call reports once it was
dispatched (`reported`).  A weight has two parts, which are compared separately: a call that takes
less time can still need a larger proof.
-/

namespace Frame

namespace Weight

/-- `all_lte`. -/
def AllLte (v w : Weight) : Prop := v.refTime ≤ w.refTime ∧ v.proofSize ≤ w.proofSize

instance (v w : Weight) : Decidable (v.AllLte w) :=
  inferInstanceAs (Decidable (v.refTime ≤ w.refTime ∧ v.proofSize ≤ w.proofSize))

/-- `saturating_add`. -/
def saturatingAdd (v w : Weight) : Weight :=
  ⟨Frame.saturatingAdd u64Max v.refTime w.refTime,
    Frame.saturatingAdd u64Max v.proofSize w.proofSize⟩

/-- `saturating_mul`. -/
def saturatingMul (w : Weight) (n : ℕ) : Weight :=
  ⟨Frame.saturatingMul u64Max w.refTime n, Frame.saturatingMul u64Max w.proofSize n⟩

/-- `*` with a factor. -/
def mul (w : Weight) (n : ℕ) : Weight :=
  ⟨w.refTime * n % (u64Max + 1), w.proofSize * n % (u64Max + 1)⟩

/-- `max`. -/
def max (v w : Weight) : Weight := ⟨Max.max v.refTime w.refTime, Max.max v.proofSize w.proofSize⟩

variable {u v v' w w' : Weight} {m n : ℕ}

theorem AllLte.refl (w : Weight) : w.AllLte w := ⟨le_rfl, le_rfl⟩

theorem AllLte.trans (h : u.AllLte v) (h' : v.AllLte w) : u.AllLte w :=
  ⟨h.1.trans h'.1, h.2.trans h'.2⟩

theorem AllLte.compose (hv : v.AllLte v') (hw : w.AllLte w') :
    (v.compose w).AllLte (v'.compose w') :=
  ⟨min_le_min (Nat.add_le_add hv.1 hw.1) le_rfl, max_le_max hv.2 hw.2⟩

theorem AllLte.saturatingAdd (hv : v.AllLte v') (hw : w.AllLte w') :
    (v.saturatingAdd w).AllLte (v'.saturatingAdd w') :=
  ⟨min_le_min (Nat.add_le_add hv.1 hw.1) le_rfl, min_le_min (Nat.add_le_add hv.2 hw.2) le_rfl⟩

theorem saturatingMul_mono (w : Weight) (h : m ≤ n) :
    (w.saturatingMul m).AllLte (w.saturatingMul n) :=
  ⟨min_le_min (Nat.mul_le_mul le_rfl h) le_rfl, min_le_min (Nat.mul_le_mul le_rfl h) le_rfl⟩

theorem allLte_max_left (v w : Weight) : v.AllLte (v.max w) := ⟨le_max_left _ _, le_max_left _ _⟩

theorem allLte_max_right (v w : Weight) : w.AllLte (v.max w) := ⟨le_max_right _ _, le_max_right _ _⟩

/-- A part is charged with the whole, if its time is a number of the machine. -/
theorem allLte_compose_left (hv : v.refTime ≤ u64Max) (w : Weight) : v.AllLte (v.compose w) :=
  ⟨le_min (Nat.le_add_right _ _) hv, le_max_left _ _⟩

theorem allLte_saturatingAdd_right (hw : w.refTime ≤ u64Max) (hw' : w.proofSize ≤ u64Max)
    (v : Weight) : w.AllLte (v.saturatingAdd w) :=
  ⟨le_min (Nat.le_add_left _ _) hw, le_min (Nat.le_add_left _ _) hw'⟩

/-- Adding nothing does not wrap around, once the larger one was a saturating sum. -/
theorem AllLte.add_zero (h : u.AllLte (v.saturatingAdd w)) :
    (u.add ⟨0, 0⟩).AllLte ((v.saturatingAdd w).add ⟨0, 0⟩) := by
  have htime : (v.saturatingAdd w).refTime ≤ u64Max := min_le_right _ _
  have hsize : (v.saturatingAdd w).proofSize ≤ u64Max := min_le_right _ _
  have htime' := h.1.trans htime
  have hsize' := h.2.trans hsize
  simp only [AllLte, add, wrappingAdd, Nat.add_zero, Nat.mod_eq_of_lt (Nat.lt_succ_of_le htime),
    Nat.mod_eq_of_lt (Nat.lt_succ_of_le hsize), Nat.mod_eq_of_lt (Nat.lt_succ_of_le htime'),
    Nat.mod_eq_of_lt (Nat.lt_succ_of_le hsize')]
  exact h

theorem refTime_compose_le (v w : Weight) : (v.compose w).refTime ≤ u64Max := min_le_right _ _

end Weight

/-- The time of a read and of a write of the database. -/
structure RuntimeDbWeight where
  read : ℕ
  write : ℕ

/-- `reads`. -/
def RuntimeDbWeight.reads (db : RuntimeDbWeight) (n : ℕ) : Weight :=
  ⟨saturatingMul u64Max db.read n, 0⟩

/-- `writes`. -/
def RuntimeDbWeight.writes (db : RuntimeDbWeight) (n : ℕ) : Weight :=
  ⟨saturatingMul u64Max db.write n, 0⟩

/-- `reads_writes`. -/
def RuntimeDbWeight.readsWrites (db : RuntimeDbWeight) (reads writes : ℕ) : Weight :=
  (db.reads reads).saturatingAdd (db.writes writes)

section

variable {E P α : Type} {w : Weight}

/-- The weight that a call reports, whether it succeeds or not. -/
def reported : Except (Abort E P) (α × PostDispatchInfo) → Option Weight
  | .ok (_, info) => info.actualWeight
  | .error (.error e) => e.postInfo.actualWeight
  | .error (.panic _) => none

/-- The errors of the computation carry no weight. -/
def Quiet {α : Type} (m : Except (Abort E P) α) : Prop :=
  ∀ e, m = .error (.error e) → e.postInfo.actualWeight = none

variable {β : Type} {m : Except (Abort E P) α} {f : α → Except (Abort E P) (β × PostDispatchInfo)}

theorem Quiet.reported_bind (hm : Quiet m) (h : reported (m >>= f) = some w) :
    ∃ a, m = .ok a ∧ reported (f a) = some w := by
  cases m with
  | ok a => exact ⟨a, rfl, h⟩
  | error abort =>
      cases abort with
      | error e =>
          rw [show reported (.error (.error e) >>= f) = none from hm e rfl] at h
          cases h
      | panic p => cases h

/-- An error that carries a weight is reported, or what follows. -/
theorem reported_okOr_bind {o : Option α} {e : DispatchErrorWithPostInfo E}
    (h : reported (okOr o (.error e) >>= f) = some w) :
    e.postInfo.actualWeight = some w ∨ ∃ a, o = some a ∧ reported (f a) = some w := by
  cases o with
  | none => exact .inl h
  | some a => exact .inr ⟨a, rfl, h⟩

theorem reported_ensure_bind {b : Bool} {e : DispatchErrorWithPostInfo E}
    {g : Unit → Except (Abort E P) (β × PostDispatchInfo)}
    (h : reported (ensure b (.error e) >>= g) = some w) :
    e.postInfo.actualWeight = some w ∨ reported (g ()) = some w := by
  cases b with
  | false => exact .inl h
  | true => exact .inr h

theorem Quiet.bind {g : α → Except (Abort E P) β} (hm : Quiet m) (hg : ∀ a, Quiet (g a)) :
    Quiet (m >>= g) := by
  intro e h
  cases m with
  | ok a => exact hg a e h
  | error abort =>
      cases h
      exact hm e rfl

theorem quiet_ok (a : α) : Quiet (.ok a : Except (Abort E P) α) := by
  intro e h
  cases h

theorem quiet_of (e : DispatchError E) : Quiet (.error (.of e) : Except (Abort E P) α) := by
  intro e' h
  cases h
  rfl

theorem quiet_panic (p : P) : Quiet (.error (.panic p) : Except (Abort E P) α) := by
  intro e h
  cases h

theorem quiet_okOr {abort : Abort E P} (o : Option α)
    (h : Quiet (.error abort : Except (Abort E P) α)) : Quiet (okOr o abort) := by
  cases o with
  | none => exact h
  | some a => exact quiet_ok a

theorem quiet_ensure {abort : Abort E P} (b : Bool)
    (h : Quiet (.error abort : Except (Abort E P) Unit)) : Quiet (ensure b abort) := by
  cases b with
  | false => exact h
  | true => exact quiet_ok ()

theorem quiet_raise (c : Except (DispatchError E) α) : Quiet (raise c : Except (Abort E P) α) := by
  cases c with
  | ok a => exact quiet_ok a
  | error e => exact quiet_of e

theorem quiet_unwind (c : Except P α) : Quiet (unwind c : Except (Abort E P) α) := by
  cases c with
  | ok a => exact quiet_ok a
  | error p => exact quiet_panic p

theorem quiet_ensureSignedOrRoot {A : Type} (origin : RawOrigin A) :
    Quiet (ensureSignedOrRoot origin : Except (Abort E P) (Option A)) := by
  cases origin with
  | root | signed => exact quiet_ok _
  | none => exact quiet_of _

theorem quiet_ensureSigned {A : Type} (origin : RawOrigin A) :
    Quiet (ensureSigned origin : Except (Abort E P) A) := by
  cases origin with
  | signed who => exact quiet_ok who
  | root | none => exact quiet_of _

end

end Frame
