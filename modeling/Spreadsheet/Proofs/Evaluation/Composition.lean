import Mathlib.Data.List.Lattice
import Spreadsheet.Proofs.Evaluation.Unfolding

/-! Evaluating after other cells were entered, against evaluating alone. Which cells a formula enters
depends on the formula only, and it comes to a number wherever these cells are new. So two operands
come to a number together if each one does alone and no cell is entered by both. -/
namespace Spreadsheet.Sheet

variable {sheet : Sheet} {v : Visits} {f l r : Formula} {op : Operator} {x : Float}
  {t : Unfolding}

theorem Resolves.order_eval (h : sheet.Resolves f t) (hv : ∀ a ∈ t.dereferenced, a ∉ v) :
    (sheet.eval v f).visits.order = t.dereferenced.reverse ++ v.order := by
  obtain ⟨n, x, w, -, hrun⟩ := h.unfolds.exists_evaluates h.stored h.noBlank h.once hv
  obtain ⟨last, htrail⟩ := hrun.exists_trail
  obtain rfl := htrail.last_eq_none x rfl
  rw [← hrun.eq_eval, htrail.order_eq, Option.toList_none, List.append_nil]

theorem Resolves.order_eval_empty (h : sheet.Resolves f t) :
    (sheet.eval ∅ f).visits.order = t.dereferenced.reverse := by
  rw [h.order_eval fun a _ => Visits.not_mem_empty a]
  exact List.append_nil _

/-- A formula comes to a number where it does so alone and has not entered any cell that was
entered before. -/
theorem eval_eq_ok_iff_alone :
    (sheet.eval v f).result = .ok x ↔
      (sheet.eval ∅ f).result = .ok x ∧ (sheet.eval ∅ f).visits.order.Disjoint v.order := by
  have alone : (sheet.eval ∅ f).result = .ok x ↔ ∃ t, sheet.Resolves f t ∧ t.value? = some x :=
    value_eq_ok_iff
  rw [eval_eq_ok_iff, alone]
  constructor
  · rintro ⟨t, ht, hx, hv⟩
    refine ⟨⟨t, ht, hx⟩, ?_⟩
    rw [ht.order_eval_empty, List.disjoint_reverse_left]
    exact fun a ha => hv a ha
  · rintro ⟨⟨t, ht, hx⟩, hdisjoint⟩
    rw [ht.order_eval_empty, List.disjoint_reverse_left] at hdisjoint
    exact ⟨t, ht, hx, fun a ha => hdisjoint ha⟩

theorem order_eval_of_ok (h : (sheet.eval v f).result = .ok x) :
    (sheet.eval v f).visits.order = (sheet.eval ∅ f).visits.order ++ v.order := by
  obtain ⟨t, ht, -, hv⟩ := eval_eq_ok_iff.1 h
  rw [ht.order_eval hv, ht.order_eval_empty]

/-- An operation comes to a number if both operands do, one after the other. -/
theorem eval_binary_eq_ok_iff :
    (sheet.eval v (.binary op l r)).result = .ok x ↔
      ∃ y z, op.apply y z = x ∧ (sheet.eval v l).result = .ok y ∧
        (sheet.eval (sheet.eval v l).visits r).result = .ok z := by
  rw [eval_binary]
  cases hl : (sheet.eval v l).result with
  | error cause => simp [hl]
  | ok y =>
    simp only [hl, map_eq_ok_iff]
    constructor
    · rintro ⟨z, hz, rfl⟩
      exact ⟨y, z, rfl, rfl, hz⟩
    · rintro ⟨_, z, rfl, ⟨⟩, hz⟩
      exact ⟨z, hz, rfl⟩

/-- Neither operand has to come first: each one comes to a number after the cells that were entered
before, and none of its cells is one of the other. -/
theorem eval_binary_eq_ok_iff_apart :
    (sheet.eval v (.binary op l r)).result = .ok x ↔
      ∃ y z, op.apply y z = x ∧ (sheet.eval v l).result = .ok y ∧
        (sheet.eval v r).result = .ok z ∧
        (sheet.eval ∅ l).visits.order.Disjoint (sheet.eval ∅ r).visits.order := by
  rw [eval_binary_eq_ok_iff]
  refine exists_congr fun y => exists_congr fun z => and_congr_right fun _ =>
    and_congr_right fun hl => ?_
  have hsplit : (sheet.eval ∅ r).visits.order.Disjoint (sheet.eval v l).visits.order ↔
      (sheet.eval ∅ r).visits.order.Disjoint v.order ∧
        (sheet.eval ∅ l).visits.order.Disjoint (sheet.eval ∅ r).visits.order := by
    rw [order_eval_of_ok hl, List.disjoint_append_right, List.disjoint_comm, and_comm]
  rw [eval_eq_ok_iff_alone, eval_eq_ok_iff_alone (v := v), hsplit, and_assoc]

/-- Evaluating after other cells were entered comes to a number exactly if evaluating alone comes to
it and enters none of these cells, and the cells entered in the end are both together. So an
operation comes to a number exactly if each operand does alone and they enter no cell in common, and
it does so, whatever was entered before, exactly if the operands come to one in the other order. -/
theorem eval_composes (sheet : Sheet) (v : Visits) :
    (∀ f x entered,
      (sheet.eval v f).result = .ok x ∧ (sheet.eval v f).visits.order = entered ↔
        (sheet.eval ∅ f).result = .ok x ∧ (sheet.eval ∅ f).visits.order.Disjoint v.order ∧
          entered = (sheet.eval ∅ f).visits.order ++ v.order) ∧
    (∀ op l r x, (sheet.eval ∅ (.binary op l r)).result = .ok x ↔
      ∃ y z, op.apply y z = x ∧ (sheet.eval ∅ l).result = .ok y ∧
        (sheet.eval ∅ r).result = .ok z ∧
        (sheet.eval ∅ l).visits.order.Disjoint (sheet.eval ∅ r).visits.order) ∧
    ∀ op l r, (∃ x, (sheet.eval v (.binary op l r)).result = .ok x) ↔
      ∃ x, (sheet.eval v (.binary op r l)).result = .ok x := by
  refine ⟨?_, fun op l r x => eval_binary_eq_ok_iff_apart, ?_⟩
  · intro f x entered
    constructor
    · rintro ⟨hx, rfl⟩
      obtain ⟨halone, hdisjoint⟩ := eval_eq_ok_iff_alone.1 hx
      exact ⟨halone, hdisjoint, order_eval_of_ok hx⟩
    · rintro ⟨halone, hdisjoint, rfl⟩
      have hx := eval_eq_ok_iff_alone.2 ⟨halone, hdisjoint⟩
      exact ⟨hx, order_eval_of_ok hx⟩
  · have swap (op : Operator) (l r : Formula)
        (h : ∃ x, (sheet.eval v (.binary op l r)).result = .ok x) :
        ∃ x, (sheet.eval v (.binary op r l)).result = .ok x := by
      obtain ⟨x, hx⟩ := h
      obtain ⟨y, z, -, hl, hr, hdisjoint⟩ := eval_binary_eq_ok_iff_apart.1 hx
      exact ⟨op.apply z y,
        eval_binary_eq_ok_iff_apart.2 ⟨z, y, rfl, hr, hl, hdisjoint.symm⟩⟩
    exact fun op l r => ⟨swap op l r, swap op r l⟩

end Spreadsheet.Sheet
