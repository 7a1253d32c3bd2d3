import Mathlib.Logic.Function.Basic
import Mathlib.Tactic.Common

/-!
# Batches that are filled and closed

The abstract history of a component that collects items in batches.  Items are
appended to the batch of a key until the batch is closed; after that the batch is
final.  `run` replays a list of acts and fails on an act that is not possible.  A
component that emits one act for each thing it does is correct as a collector of
batches when its acts can be replayed:

* `items_run`: a batch holds the items appended to it, in the order of the acts;
* `closes_run`: a batch is closed at most once;
* `closed_run`: nothing is appended to a closed batch.
-/

namespace Frame.BatchLog

variable {K V : Type} [DecidableEq K]

/-- A batch that still takes items, or a final one. -/
inductive Slot (V : Type)
  | filling (items : List V)
  | closed (items : List V)
deriving DecidableEq, Repr

/-- The items of a batch. -/
def Slot.items : Slot V → List V
  | .filling items => items
  | .closed items => items

/-- The item lists of the closed batches of a slot: none or one. -/
def Slot.delivered : Slot V → List (List V)
  | .filling _ => []
  | .closed items => [items]

/-- What is done to a batch. -/
inductive Act (K V : Type)
  | append (key : K) (item : V)
  | close (key : K)
deriving DecidableEq, Repr

/-- Replay one act. -/
def step (b : K → Slot V) : Act K V → Option (K → Slot V)
  | .append k v =>
      match b k with
      | .filling items => some (Function.update b k (.filling (items ++ [v])))
      | .closed _ => none
  | .close k =>
      match b k with
      | .filling items => some (Function.update b k (.closed items))
      | .closed _ => none

/-- Replay a list of acts. -/
def run (b : K → Slot V) : List (Act K V) → Option (K → Slot V)
  | [] => some b
  | act :: acts => (step b act).bind fun b' => run b' acts

/-- All batches are empty. -/
def init : K → Slot V := fun _ => .filling []

/-- The items appended to a batch. -/
def appended (k : K) (acts : List (Act K V)) : List V :=
  acts.filterMap fun
    | .append key item => if key = k then some item else none
    | .close _ => none

/-- How often a batch is closed. -/
def closes (k : K) (acts : List (Act K V)) : ℕ :=
  acts.countP fun
    | .append _ _ => false
    | .close key => decide (key = k)

variable {b b' b'' : K → Slot V} {k : K} {acts acts' : List (Act K V)}

theorem run_append (h : run b acts = some b') (h' : run b' acts' = some b'') :
    run b (acts ++ acts') = some b'' := by
  induction acts generalizing b with
  | nil =>
      cases h
      exact h'
  | cons act acts ih =>
      obtain ⟨b₁, hstep, hrun⟩ := Option.bind_eq_some_iff.mp h
      exact Option.bind_eq_some_iff.mpr ⟨b₁, hstep, ih hrun⟩

/-- A replay of two lists is a replay of the first and then of the second. -/
theorem run_append_inv (h : run b (acts ++ acts') = some b'') :
    ∃ b', run b acts = some b' ∧ run b' acts' = some b'' := by
  induction acts generalizing b with
  | nil => exact ⟨b, rfl, h⟩
  | cons act acts ih =>
      obtain ⟨b₁, hstep, hrun⟩ := Option.bind_eq_some_iff.mp h
      obtain ⟨b', hacts, hacts'⟩ := ih hrun
      exact ⟨b', Option.bind_eq_some_iff.mpr ⟨b₁, hstep, hacts⟩, hacts'⟩

theorem run_append_filling {items : List V} {v : V} (h : b k = .filling items) :
    run b [.append k v] = some (Function.update b k (.filling (items ++ [v]))) := by
  simp [run, step, h]

theorem run_close_filling {items : List V} (h : b k = .filling items) :
    run b [.close k] = some (Function.update b k (.closed items)) := by
  simp [run, step, h]

/-- One act, seen from the batch of `k`. -/
private theorem step_slot {act : Act K V} (h : step b act = some b') (k : K) :
    (b' k).items = (b k).items ++ appended k [act] ∧
      (b' k).delivered.length = (b k).delivered.length + closes k [act] ∧
      (∀ items, b k = .closed items → b' k = .closed items ∧ appended k [act] = []) := by
  cases act with
  | append key v =>
      simp only [step] at h
      split at h
      · rename_i items hkey
        cases h
        by_cases hk : k = key
        · subst hk
          simp [hkey, Slot.items, Slot.delivered, appended, closes]
        · have hk' : key ≠ k := fun h => hk h.symm
          simp [hk, hk', appended, closes]
      · cases h
  | close key =>
      simp only [step] at h
      split at h
      · rename_i items hkey
        cases h
        by_cases hk : k = key
        · subst hk
          simp [hkey, Slot.items, Slot.delivered, appended, closes]
        · have hk' : key ≠ k := fun h => hk h.symm
          simp [hk, hk', appended, closes]
      · cases h

private theorem appended_cons (act : Act K V) (acts : List (Act K V)) :
    appended k (act :: acts) = appended k [act] ++ appended k acts := by
  rw [appended, ← List.singleton_append, List.filterMap_append]
  rfl

private theorem closes_cons (act : Act K V) (acts : List (Act K V)) :
    closes k (act :: acts) = closes k [act] + closes k acts := by
  rw [closes, ← List.singleton_append, List.countP_append]
  rfl

/-- A batch holds the items appended to it. -/
theorem items_run (h : run b acts = some b') (k : K) :
    (b' k).items = (b k).items ++ appended k acts := by
  induction acts generalizing b with
  | nil =>
      cases h
      simp [appended]
  | cons act acts ih =>
      obtain ⟨b₁, hstep, hrun⟩ := Option.bind_eq_some_iff.mp h
      rw [ih hrun, (step_slot hstep k).1, appended_cons act acts, List.append_assoc]

/-- A batch was closed as often as before and as the replay closes it. -/
theorem closes_run (h : run b acts = some b') (k : K) :
    (b' k).delivered.length = (b k).delivered.length + closes k acts := by
  induction acts generalizing b with
  | nil =>
      cases h
      simp [closes]
  | cons act acts ih =>
      obtain ⟨b₁, hstep, hrun⟩ := Option.bind_eq_some_iff.mp h
      rw [ih hrun, (step_slot hstep k).2.1, closes_cons act acts, Nat.add_assoc]

/-- A closed batch stays as it is. -/
theorem closed_run {items : List V} (hk : b k = .closed items) (h : run b acts = some b') :
    b' k = .closed items ∧ appended k acts = [] := by
  induction acts generalizing b with
  | nil =>
      cases h
      exact ⟨hk, rfl⟩
  | cons act acts ih =>
      obtain ⟨b₁, hstep, hrun⟩ := Option.bind_eq_some_iff.mp h
      obtain ⟨hk₁, hnone⟩ := (step_slot hstep k).2.2 items hk
      obtain ⟨hk', hnone'⟩ := ih hk₁ hrun
      exact ⟨hk', by rw [appended_cons act acts, hnone, hnone', List.nil_append]⟩

theorem delivered_length_le (slot : Slot V) : slot.delivered.length ≤ 1 := by
  cases slot <;> simp [Slot.delivered]

/-- In a replay from empty batches, a batch is closed at most once. -/
theorem closes_le_one (h : run init acts = some b) (k : K) : closes k acts ≤ 1 := by
  have hcount := closes_run h k
  have hle := delivered_length_le (b k)
  omega

/-- In a replay, nothing is appended to a batch after it was closed. -/
theorem appended_after_close {before after : List (Act K V)}
    (h : run b (before ++ .close k :: after) = some b') : appended k after = [] := by
  obtain ⟨b₁, -, h⟩ := run_append_inv h
  obtain ⟨b₂, hclose, h⟩ := Option.bind_eq_some_iff.mp h
  simp only [step] at hclose
  split at hclose
  · cases hclose
    exact (closed_run (Function.update_self _ _ _) h).2
  · cases hclose

end Frame.BatchLog
