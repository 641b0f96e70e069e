import Spreadsheet.Log
import Spreadsheet.Sheet
import Spreadsheet.Sheet.Visits

/-! Evaluation of expressions over a sheet.
A reference enters the cell it names, and no cell is entered twice in one read. -/
namespace Spreadsheet

structure Evaluation where
  result : Except ReadError Float
  visits : Visits

namespace Sheet

variable (sheet : Sheet)

def unvisited (v : Visits) : Nat :=
  (sheet.cells.keys.filter (· ∉ v)).length

theorem unvisited_lt_of_visit {v w : Visits} {a : Address} {f : Formula}
    (hf : sheet.find? a = some f) (h : v.visit a = (.ok (), w)) :
    sheet.unvisited w < sheet.unvisited v := by
  have stored : a ∈ sheet.cells.keys := by
    rw [Std.TreeMap.mem_keys, Std.TreeMap.mem_iff_isSome_getElem?]
    simp [show sheet.cells[a]? = some f from hf]
  have fewer : sheet.cells.keys.filter (· ∉ w) =
      (sheet.cells.keys.filter (· ∉ v)).filter (· ≠ a) := by
    rw [List.filter_filter]
    congr 1
    funext b
    simp [Visits.mem_of_visit h, not_or]
  rw [unvisited, unvisited, fewer, List.length_filter_lt_length_iff_exists]
  exact ⟨a, by simp [stored, (Visits.order_of_visit h).1]⟩

theorem unvisited_le {v w : Visits} (h : ∀ a ∈ v, a ∈ w) :
    sheet.unvisited w ≤ sheet.unvisited v := by
  rw [unvisited, unvisited, ← List.countP_eq_length_filter, ← List.countP_eq_length_filter]
  exact List.countP_mono_left fun a _ ha => by simpa using mt (h a) (by simpa using ha)

private def evalWithin (v : Visits) (f : Formula) : { e : Evaluation // ∀ a ∈ v, a ∈ e.visits } :=
  match f with
  | .number n => ⟨⟨.ok n.toFloat, v⟩, fun _ h => h⟩
  | .blank => ⟨⟨.error .blank, v⟩, fun _ h => h⟩
  | .reference a =>
    if sheet.covers a then
      if sheet.find? a = some (.reference a) then ⟨⟨.error (.selfReference a), v⟩, fun _ h => h⟩
      else match entered : v.visit a with
        | (.error e, w) => ⟨⟨.error e, w⟩, fun b hb => (Visits.mem_of_visit entered).2 (.inr hb)⟩
        | (.ok (), w) =>
          have kept := fun b hb => (Visits.mem_of_visit entered).2 (.inr hb)
          match _stored : sheet.find? a with
          | none => ⟨⟨.error .blank, w⟩, kept⟩
          | some g =>
            let inner := evalWithin w g
            ⟨inner.1, fun b hb => inner.2 b (kept b hb)⟩
    else ⟨⟨.error (.outOfRange a), v⟩, fun _ h => h⟩
  | .binary op l r =>
    let left := evalWithin v l
    match left.1.result with
    | .error _ => left
    | .ok x =>
      let right := evalWithin left.1.visits r
      ⟨⟨right.1.result.map (op.apply x), right.1.visits⟩, fun b hb => right.2 b (left.2 b hb)⟩
termination_by (sheet.unvisited v, sizeOf f)
decreasing_by
  · exact .left _ _ (sheet.unvisited_lt_of_visit _stored entered)
  · exact .right _ (show sizeOf l < 1 + sizeOf op + sizeOf l + sizeOf r by omega)
  · refine Prod.lex_def.2 ((Nat.lt_or_eq_of_le (sheet.unvisited_le left.2)).imp_right (⟨·, ?_⟩))
    show sizeOf r < 1 + sizeOf op + sizeOf l + sizeOf r
    omega

/-- Evaluates a formula, going on from the cells that were entered before. Operands are evaluated
from left to right, and the first failure ends it. The empty sheet covers no reference. -/
def eval (v : Visits) (f : Formula) : Evaluation :=
  (sheet.evalWithin v f).1

variable {sheet}

theorem mem_eval {v : Visits} {f : Formula} {a : Address} (h : a ∈ v) :
    a ∈ (sheet.eval v f).visits :=
  (sheet.evalWithin v f).2 a h

variable (sheet)

@[simp]
theorem eval_number (v : Visits) (n : Number) : sheet.eval v (.number n) = ⟨.ok n.toFloat, v⟩ := by
  rw [eval, evalWithin]

@[simp]
theorem eval_blank (v : Visits) : sheet.eval v .blank = ⟨.error .blank, v⟩ := by
  rw [eval, evalWithin]

/-- A reference is checked for the block, for naming itself, and for being entered again, in this
order. A cell that was never written is entered before it fails. -/
theorem eval_reference (v : Visits) (a : Address) :
    sheet.eval v (.reference a) =
      if sheet.covers a then
        if sheet.find? a = some (.reference a) then ⟨.error (.selfReference a), v⟩
        else match v.visit a with
          | (.error e, w) => ⟨.error e, w⟩
          | (.ok (), w) => match sheet.find? a with
            | none => ⟨.error .blank, w⟩
            | some g => sheet.eval w g
      else ⟨.error (.outOfRange a), v⟩ := by
  rw [eval, evalWithin]
  split
  · split
    · rfl
    · split
      · next e w h => simp only [h]
      · next w h =>
        simp only [h]
        split <;> next hf => simp only [hf, eval]
  · rfl

theorem eval_binary (v : Visits) (op : Operator) (l r : Formula) :
    sheet.eval v (.binary op l r) =
      let left := sheet.eval v l
      match left.result with
      | .error _ => left
      | .ok x =>
        let right := sheet.eval left.visits r
        ⟨right.result.map (op.apply x), right.visits⟩ := by
  rw [eval, evalWithin]
  dsimp only [eval]
  split <;> rfl

/-- Induction along an evaluation: a reference leads to what its cell holds, with that cell
entered, and the right operand is evaluated with what the left one entered. -/
@[elab_as_elim]
theorem eval_induction {motive : Visits → Formula → Prop}
    (number : ∀ v n, motive v (.number n))
    (blank : ∀ v, motive v .blank)
    (reference : ∀ v a,
      (∀ w f, v.visit a = (.ok (), w) → sheet.find? a = some f → motive w f) →
      motive v (.reference a))
    (binary : ∀ v op l r,
      motive v l → motive (sheet.eval v l).visits r → motive v (.binary op l r))
    (v : Visits) (f : Formula) : motive v f :=
  match f with
  | .number n => number v n
  | .blank => blank v
  | .reference a => reference v a fun w g _entered _stored =>
      eval_induction number blank reference binary w g
  | .binary op l r => binary v op l r (eval_induction number blank reference binary v l)
      (eval_induction number blank reference binary (sheet.eval v l).visits r)
termination_by (sheet.unvisited v, sizeOf f)
decreasing_by
  · exact .left _ _ (sheet.unvisited_lt_of_visit _stored _entered)
  · exact .right _ (show sizeOf l < 1 + sizeOf op + sizeOf l + sizeOf r by omega)
  · refine Prod.lex_def.2 ((Nat.lt_or_eq_of_le (sheet.unvisited_le fun _ => mem_eval)).imp_right
      (⟨·, ?_⟩))
    show sizeOf r < 1 + sizeOf op + sizeOf l + sizeOf r
    omega

end Sheet

namespace Evaluation

/-- What an evaluation that began with no cell entered reports: each cell as it is entered, and
last the cell that was about to be entered again. -/
def log (e : Evaluation) : List Log.Entry :=
  e.visits.order.reverse.map (fun a =>
    ⟨.trace, "cassava_engine::engine::expr", s!"dereferencing {a}"⟩) ++
  match e.result, e.visits.root with
  | .error (.circular a _), some root =>
    [⟨.debug, "cassava_engine::engine::cycle",
      s!"circular reference at {a} (root Some(\"{root}\"), {e.visits.size} visited)"⟩]
  | _, _ => []

end Evaluation

end Spreadsheet
