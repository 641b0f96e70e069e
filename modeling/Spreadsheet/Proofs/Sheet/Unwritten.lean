import Spreadsheet.Document
import Spreadsheet.Proofs.Sheet.History
import Spreadsheet.Proofs.Sheet.Render

/-! Cells of the block that were never written, against cells that hold a blank. Wherever a cell is
looked up the two come to the same, so no read tells them apart, also after further writes. -/
namespace Spreadsheet.Sheet

/-- Sheets with the same block that hold the same formulas, where a cell that was never written
counts as one that holds a blank. -/
structure Alike (sheet other : Sheet) : Prop where
  corner : sheet.corner = other.corner
  formula : ∀ a, (sheet.find? a).getD .blank = (other.find? a).getD .blank

/-- Sheets that no read tells apart. Each formula evaluates to the same and has entered the same
cells, whatever was entered before. The cells of the block and their texts are the same, one by one
and as a whole, and so is what is reported. -/
structure ReadsLike (sheet other : Sheet) : Prop where
  eval : ∀ v f, sheet.eval v f = other.eval v f
  display : ∀ places v f, sheet.display places v f = other.display places v f
  get : ∀ a, sheet.get a = other.get a
  read : ∀ policy places a, sheet.read policy places a = other.read policy places a
  render : ∀ policy places, sheet.render policy places = other.render policy places
  print : ∀ sink policy places, sheet.print sink policy places = other.print sink policy places
  renderLog : ∀ policy places, sheet.renderLog policy places = other.renderLog policy places
  covers : ∀ a, sheet.covers a = other.covers a
  rowCount : sheet.rowCount = other.rowCount
  columnCount : sheet.columnCount = other.columnCount
  addresses : ∀ n, sheet.firstAddresses n = other.firstAddresses n

variable {sheet other : Sheet} {a : Address} {f : Formula}

/-- A reference to a cell that was never written goes on to a blank. -/
theorem eval_reference_getD (v : Visits) (a : Address) :
    sheet.eval v (.reference a) =
      if sheet.covers a then
        if (sheet.find? a).getD .blank = .reference a then ⟨.error (.selfReference a), v⟩
        else match v.visit a with
          | (.error e, w) => ⟨.error e, w⟩
          | (.ok (), w) => sheet.eval w ((sheet.find? a).getD .blank)
      else ⟨.error (.outOfRange a), v⟩ := by
  rw [eval_reference]
  cases sheet.find? a <;> rcases v.visit a with ⟨e | ⟨⟩, w⟩ <;> simp

theorem get_eq (a : Address) :
    sheet.get a =
      if sheet.covers a then sheet.value ((sheet.find? a).getD .blank)
      else .error (.outOfRange a) := by
  split
  · next hc =>
    rw [get_of_covers hc]
    cases sheet.find? a with
    | none => rw [Option.elim_none, Option.getD_none, value, eval_blank]
    | some f => rfl
  · next hc => rw [get_of_not_covers hc]

theorem readLog_eq (a : Address) :
    sheet.readLog a =
      if sheet.covers a then (sheet.eval ∅ ((sheet.find? a).getD .blank)).log else [] := by
  have hblank : (⟨.error .blank, ∅⟩ : Evaluation).log = [] := rfl
  by_cases hc : sheet.covers a
  · cases hf : sheet.find? a <;> simp [readLog, lookUp, hc, hf, hblank]
  · simp [readLog, lookUp, hc]

namespace Alike

theorem eval (h : sheet.Alike other) (v : Visits) (f : Formula) :
    sheet.eval v f = other.eval v f := by
  induction v, f using sheet.eval_induction with
  | number v n => rw [eval_number, eval_number]
  | blank v => rw [eval_blank, eval_blank]
  | reference v a ih =>
    rw [eval_reference_getD, eval_reference_getD, covers_congr h.corner, ← h.formula]
    rcases hv : v.visit a with ⟨e | ⟨⟩, w⟩
    · rfl
    · have inner : sheet.eval w ((sheet.find? a).getD .blank) =
          other.eval w ((sheet.find? a).getD .blank) := by
        cases hf : sheet.find? a with
        | none => rw [Option.getD_none, eval_blank, eval_blank]
        | some f => exact ih w f hv hf
      simp only [inner]
  | binary v op l r ihl ihr =>
    rw [eval_binary, eval_binary, ← ihl]
    simp only [ihr]

theorem get (h : sheet.Alike other) (a : Address) : sheet.get a = other.get a := by
  rw [get_eq, get_eq, value, value, covers_congr h.corner, h.formula, h.eval]

theorem read (h : sheet.Alike other) (policy : Policy) (places : Nat) (a : Address) :
    sheet.read policy places a = other.read policy places a := by
  have strict : sheet.getStrict places a = other.getStrict places a := by
    rw [getStrict, getStrict, h.get]
  cases policy with
  | strict => exact strict
  | formatted =>
    rw [Sheet.read, Sheet.read, getFormatted_eq, getFormatted_eq, covers_congr h.corner, h.formula,
      strict]

theorem render (h : sheet.Alike other) (policy : Policy) (places : Nat) :
    sheet.render policy places = other.render policy places := by
  have hfield : sheet.readField policy places = other.readField policy places := funext fun a => by
    rw [readField, readField, h.read]
  rw [render_eq, render_eq, block_congr h.corner, hfield]

theorem firstAddresses (h : sheet.Alike other) (n : Nat) :
    sheet.firstAddresses n = other.firstAddresses n := by
  rw [Sheet.firstAddresses, Sheet.firstAddresses, rowCount_congr h.corner,
    columnCount_congr h.corner]

theorem renderLog (h : sheet.Alike other) (policy : Policy) (places : Nat) :
    sheet.renderLog policy places = other.renderLog policy places := by
  have hread : sheet.readLog = other.readLog := funext fun a => by
    rw [readLog_eq, readLog_eq, covers_congr h.corner, h.formula, h.eval]
  simp only [Sheet.renderLog, h.render, hread, h.firstAddresses, rowCount_congr h.corner,
    columnCount_congr h.corner]

theorem readsLike (h : sheet.Alike other) : sheet.ReadsLike other where
  eval := h.eval
  display places v f := by rw [display, display, h.eval]
  get := h.get
  read := h.read
  render := h.render
  print sink policy places := by rw [print, print, h.render]
  renderLog := h.renderLog
  covers := covers_congr h.corner
  rowCount := rowCount_congr h.corner
  columnCount := columnCount_congr h.corner
  addresses := h.firstAddresses

theorem insert (h : sheet.Alike other) (a : Address) (f : Formula) :
    (sheet.insert a f).Alike (other.insert a f) where
  corner := by rw [Sheet.insert, Sheet.insert, h.corner]
  formula b := by
    rw [find?_insert, find?_insert]
    split
    · rfl
    · exact h.formula b

theorem after {left right : History} (h : left.sheet.Alike right.sheet) (call : Call) :
    (left.after call).sheet.Alike (right.after call).sheet := by
  cases hw : call.write? with
  | none =>
    obtain ⟨name, text, rfl, hname⟩ := Call.write?_eq_none_iff.1 hw
    simp only [History.after, Call.perform_of_ofName?_eq_none hname]
    exact h
  | some w =>
    simp only [History.after, Call.perform_of_write? hw]
    cases Formula.parse w.text with
    | error p => exact h
    | ok f => exact h.insert w.address f

theorem run {left right : History} (h : left.sheet.Alike right.sheet) (calls : List Call) :
    (calls.foldl History.after left).sheet.Alike (calls.foldl History.after right).sheet := by
  induction calls generalizing left right with
  | nil => exact h
  | cons call calls ih => exact ih (h.after call)

end Alike

theorem corner_insert_of_covers (hc : sheet.covers a) (f : Formula) :
    (sheet.insert a f).corner = sheet.corner := by
  obtain ⟨hrow, hcolumn⟩ := covers_iff.1 hc
  rw [corner_eq, corner_eq sheet, rowCount_insert, columnCount_insert, Nat.max_eq_right hrow,
    Nat.max_eq_right hcolumn]

theorem size_insert (hn : sheet.find? a = none) (f : Formula) :
    (sheet.insert a f).size = sheet.size + 1 := by
  have hmem : ¬ sheet.cells.contains a := by
    rw [← Std.TreeMap.mem_iff_contains, ← Std.TreeMap.mem_keys, mem_keys_iff]
    exact not_not_intro hn
  rw [size, insert, Std.TreeMap.size_insert, if_neg hmem, ← size]

theorem alike_insert_blank (hc : sheet.covers a) (hn : sheet.find? a = none) :
    sheet.Alike (sheet.insert a .blank) where
  corner := (corner_insert_of_covers hc .blank).symm
  formula b := by
    rw [find?_insert]
    split
    · next hab => rw [← hab, hn]; rfl
    · rfl

/-- Writing a blank into a cell of the block that was never written changes no read, neither before
further calls nor after them. The sheet only counts one cell more, and holds a blank in this one. -/
theorem unwritten_reads_like_blank {sheet : Sheet} {a : Address} (hc : sheet.covers a)
    (hn : sheet.find? a = none) :
    ∃ after, sheet.put a [] = .ok after ∧ sheet.ReadsLike after ∧
      (∀ b, b ≠ a → after.find? b = sheet.find? b) ∧
      after.find? a = some .blank ∧ after.size = sheet.size + 1 ∧ after.isEmpty = false ∧
      ∀ calls : List Call, (calls.foldl History.after ⟨sheet, []⟩).sheet.ReadsLike
        (calls.foldl History.after ⟨after, []⟩).sheet := by
  have halike := alike_insert_blank hc hn
  have hput : sheet.put a [] = .ok (sheet.insert a .blank) := by
    rw [put, Formula.parse_nil]
    rfl
  refine ⟨_, hput, halike.readsLike, ?_, ?_, size_insert hn .blank, ?_, ?_⟩
  · intro b hb
    rw [find?_insert, if_neg hb.symm]
  · rw [find?_insert, if_pos rfl]
  · exact Std.TreeMap.isEmpty_insert
  · intro calls
    have hstart : (⟨sheet, []⟩ : History).sheet.Alike (⟨sheet.insert a .blank, []⟩ : History).sheet :=
      halike
    exact (hstart.run calls).readsLike

/-- A cell that adds to one that was never written fails as one that adds to a blank does. -/
theorem unwritten_reads_like_blank_operand :
    let a1 : Address := ⟨1, 1, by decide, by decide, by decide, by decide⟩
    let b2 : Address := ⟨2, 2, by decide, by decide, by decide, by decide⟩
    let sum : Formula := .binary .add (.reference a1) (.number (.integer 1))
    let sheet := (∅ : Sheet).insert b2 sum
    sheet.covers a1 = true ∧ sheet.find? a1 = none ∧ ∃ after, sheet.put a1 [] = .ok after ∧
      after.find? a1 = some .blank ∧ after.size = 2 ∧
      after.read .formatted 2 b2 = .error .blank ∧
      (after.eval ∅ sum).visits.order = [a1] := by
  intro a1 b2 sum sheet
  have hcovers : sheet.covers a1 = true := by cbv
  have hfind : sheet.find? a1 = none := by cbv
  obtain ⟨after, hput, hreads, -, hblank, hsize, -, -⟩ := unwritten_reads_like_blank hcovers hfind
  have hone : sheet.size = 1 := by cbv
  have hread : sheet.read .formatted 2 b2 = .error .blank := by cbv
  have hentered : (sheet.eval ∅ sum).visits.order = [a1] := by cbv
  refine ⟨hcovers, hfind, after, hput, hblank, by rw [hsize, hone], ?_, ?_⟩
  · rw [← hreads.read, hread]
  · rw [← hreads.eval, hentered]

end Spreadsheet.Sheet
