import ZkVerify.Aggregate.Domain

/-!
# The rows of the allowlist

`add_submitters` and `remove_submitters` walk through a list of accounts, with
duplicates and with accounts that are there already or not at all, and count the rows
they write.  `mem_insertRows` and `mem_removeRows` say which rows remain;
`insertRows_count` and `removeRows_count` say that the counter is the change of
`rowCount`, the number of rows of the domain.
-/

namespace ZkVerify.Aggregate

open Frame

variable {A : Type}

/-- The number of rows of a domain. -/
def rowCount (id : ℕ) (rows : Finset (ℕ × A)) : ℕ := (rows.filter (·.1 = id)).card

theorem rowCount_eq_zero {id : ℕ} {rows : Finset (ℕ × A)} :
    rowCount id rows = 0 ↔ ∀ a, (id, a) ∉ rows := by
  simp only [rowCount, Finset.card_eq_zero, Finset.filter_eq_empty_iff]
  exact ⟨fun h a hmem => h hmem rfl, fun h p hmem hp => h p.2 (hp ▸ hmem)⟩

/-- Two sets with the same rows of a domain have the same number of them. -/
theorem rowCount_congr {id : ℕ} {rows rows' : Finset (ℕ × A)}
    (h : ∀ a, (id, a) ∈ rows ↔ (id, a) ∈ rows') : rowCount id rows = rowCount id rows' := by
  unfold rowCount
  congr 1
  ext ⟨d, a⟩
  simp only [Finset.mem_filter]
  constructor
  · rintro ⟨hmem, rfl⟩
    exact ⟨(h a).mp hmem, rfl⟩
  · rintro ⟨hmem, rfl⟩
    exact ⟨(h a).mpr hmem, rfl⟩

variable [DecidableEq A]

private theorem rowCount_insert {id : ℕ} {rows : Finset (ℕ × A)} {a : A} (h : (id, a) ∉ rows) :
    rowCount id (insert (id, a) rows) = rowCount id rows + 1 := by
  unfold rowCount
  rw [Finset.filter_insert, if_pos rfl,
    Finset.card_insert_of_notMem fun hmem => h (Finset.mem_filter.mp hmem).1]

private theorem rowCount_erase {id : ℕ} {rows : Finset (ℕ × A)} {a : A} (h : (id, a) ∈ rows) :
    rowCount id (rows.erase (id, a)) + 1 = rowCount id rows := by
  unfold rowCount
  rw [Finset.filter_erase]
  exact Finset.card_erase_add_one (Finset.mem_filter.mpr ⟨h, rfl⟩)

namespace DomainEntry

/-! ## Inserting -/

section insertRows

variable (id : ℕ) (rows : Finset (ℕ × A)) (submitters : List A)

/-- The loop of `insertRows`, from a counter that already stands at `n`. -/
private theorem insertRows_loop (n : ℕ) :
    let r := submitters.foldl (insertRow id) (rows, n)
    (∀ p, p ∈ r.1 ↔ p ∈ rows ∨ (p.1 = id ∧ p.2 ∈ submitters)) ∧
      r.2 + rowCount id rows = n + rowCount id r.1 ∧ r.2 ≤ n + submitters.length := by
  induction submitters generalizing rows n with
  | nil => simp
  | cons a submitters ih =>
      by_cases hmem : (id, a) ∈ rows
      · obtain ⟨hrows, hcount, hle⟩ := ih rows n
        rw [List.foldl_cons, insertRow, if_pos hmem]
        refine ⟨fun p => (hrows p).trans ?_, hcount, hle.trans (by simp)⟩
        rcases p with ⟨d, b⟩
        simp only [List.mem_cons]
        grind
      · obtain ⟨hrows, hcount, hle⟩ := ih (insert (id, a) rows) (n + 1)
        rw [List.foldl_cons, insertRow, if_neg hmem]
        dsimp only at hcount hle ⊢
        rw [rowCount_insert hmem] at hcount
        refine ⟨fun p => (hrows p).trans ?_, by omega, hle.trans (by simp; omega)⟩
        rcases p with ⟨d, b⟩
        simp only [List.mem_cons, Finset.mem_insert, Prod.mk.injEq]
        grind

theorem mem_insertRows (p : ℕ × A) :
    p ∈ (insertRows id rows submitters).1 ↔ p ∈ rows ∨ (p.1 = id ∧ p.2 ∈ submitters) :=
  (insertRows_loop id rows submitters 0).1 p

/-- The counter of `insertRows` is the number of new rows. -/
theorem insertRows_count :
    (insertRows id rows submitters).2 + rowCount id rows =
      rowCount id (insertRows id rows submitters).1 :=
  (insertRows_loop id rows submitters 0).2.1.trans (Nat.zero_add _)

theorem insertRows_count_le : (insertRows id rows submitters).2 ≤ submitters.length :=
  (insertRows_loop id rows submitters 0).2.2.trans (Nat.zero_add _).le

end insertRows

/-! ## Removing -/

section removeRows

variable (id : ℕ) (rows : Finset (ℕ × A)) (submitters : List A)

/-- The loop of `removeRows`, from a counter that already stands at `n`. -/
private theorem removeRows_loop (n : ℕ) :
    let r := submitters.foldl (removeRow id) (rows, n)
    (∀ p, p ∈ r.1 ↔ p ∈ rows ∧ ¬ (p.1 = id ∧ p.2 ∈ submitters)) ∧
      r.2 + rowCount id r.1 = n + rowCount id rows ∧ r.2 ≤ n + submitters.length := by
  induction submitters generalizing rows n with
  | nil => simp
  | cons a submitters ih =>
      by_cases hmem : (id, a) ∈ rows
      · obtain ⟨hrows, hcount, hle⟩ := ih (rows.erase (id, a)) (n + 1)
        rw [List.foldl_cons, removeRow, if_pos hmem]
        dsimp only at hcount hle ⊢
        have herase := rowCount_erase hmem
        refine ⟨fun p => (hrows p).trans ?_, by omega, hle.trans (by simp; omega)⟩
        rcases p with ⟨d, b⟩
        simp only [List.mem_cons, Finset.mem_erase, Ne, Prod.mk.injEq]
        grind
      · obtain ⟨hrows, hcount, hle⟩ := ih rows n
        rw [List.foldl_cons, removeRow, if_neg hmem]
        refine ⟨fun p => (hrows p).trans ?_, hcount, hle.trans (by simp)⟩
        rcases p with ⟨d, b⟩
        simp only [List.mem_cons]
        grind

theorem mem_removeRows (p : ℕ × A) :
    p ∈ (removeRows id rows submitters).1 ↔ p ∈ rows ∧ ¬ (p.1 = id ∧ p.2 ∈ submitters) :=
  (removeRows_loop id rows submitters 0).1 p

/-- The counter of `removeRows` is the number of rows that are gone. -/
theorem removeRows_count :
    (removeRows id rows submitters).2 + rowCount id (removeRows id rows submitters).1 =
      rowCount id rows :=
  (removeRows_loop id rows submitters 0).2.1.trans (Nat.zero_add _)

theorem removeRows_count_le : (removeRows id rows submitters).2 ≤ submitters.length :=
  (removeRows_loop id rows submitters 0).2.2.trans (Nat.zero_add _).le

end removeRows

/-! ## The test for emptiness -/

variable {T₁ T₂ : Type} {S M : ℕ} {D : DomainEntry A T₁ T₂ S M} {rows rows' : Finset (ℕ × A)}

theorem isAllowlistEmpty_iff :
    D.isAllowlistEmpty rows = true ↔
      D.proofRules ≠ .onlyAllowlisted ∨ ∀ a, (D.id, a) ∉ rows := by
  unfold isAllowlistEmpty
  rw [Bool.or_eq_true, decide_eq_true_iff, decide_eq_true_iff, ← Finset.card_eq_zero]
  exact or_congr_right rowCount_eq_zero

/-- The evaluated state of a domain depends on its own rows only. -/
theorem updateHoldState_congr (h : ∀ a, (D.id, a) ∈ rows ↔ (D.id, a) ∈ rows') :
    D.updateHoldState rows = D.updateHoldState rows' := by
  have hempty : D.isAllowlistEmpty rows = D.isAllowlistEmpty rows' := by
    rw [Bool.eq_iff_iff, isAllowlistEmpty_iff, isAllowlistEmpty_iff]
    simp only [h]
  unfold updateHoldState
  rw [hempty]

end DomainEntry

end ZkVerify.Aggregate
