import Spreadsheet.Proofs.Csv
import Spreadsheet.Proofs.Decimal
import Spreadsheet.Proofs.Sheet.Block
import Spreadsheet.Sheet.Render

namespace Spreadsheet.Sheet

variable (sheet : Sheet) (policy : Policy) (places : Nat)

def readField (a : Address) : Except RenderError (List Char) :=
  (sheet.read policy places a).mapError (⟨a, ·⟩)

/-- The cell of the block that cannot be read, while all those before it can. -/
structure FirstUnread (a : Address) (cause : ReadError) : Prop where
  covers : sheet.covers a = true
  read_eq : sheet.read policy places a = .error cause
  before : ∀ b, sheet.covers b = true → b.Before a → ∃ text, sheet.read policy places b = .ok text

variable {sheet policy places}

theorem readField_eq_ok_iff {a : Address} {text : List Char} :
    sheet.readField policy places a = .ok text ↔ sheet.read policy places a = .ok text :=
  mapError_eq_ok_iff

theorem readField_eq_error_iff {a : Address} {e : RenderError} :
    sheet.readField policy places a = .error e ↔
      e.address = a ∧ sheet.read policy places a = .error e.cause := by
  obtain ⟨b, cause⟩ := e
  rw [readField]
  cases sheet.read policy places a with
  | ok text => simp [Except.mapError]
  | error other => simp [Except.mapError, eq_comm]

theorem renderRows_eq (done : List (List Char)) (row count : Nat) :
    sheet.renderRows policy places done row count =
      ((List.range' row count).mapM (sheet.renderRow policy places)).map (done.reverse ++ ·) := by
  induction count generalizing done row with
  | zero => simp [renderRows, Except.map, pure, Except.pure]
  | succ count ih =>
    rw [renderRows, List.range'_succ, List.mapM_cons]
    cases sheet.renderRow policy places row with
    | error e => rfl
    | ok line =>
      refine (ih (line :: done) (row + 1)).trans ?_
      cases (List.range' (row + 1) count).mapM (sheet.renderRow policy places) with
      | error e => rfl
      | ok lines => simp [Except.map, bind, Except.bind, pure, Except.pure]

theorem renderRow_eq (row : Nat) :
    sheet.renderRow policy places row =
      ((sheet.rowAddresses row).mapM (sheet.readField policy places)).map
        fun fields => [','].intercalate fields ++ ['\n'] := by
  rw [renderRow]
  exact (map_eq_pure_bind ..).symm

theorem render_eq :
    sheet.render policy places =
      (sheet.block.mapM (List.mapM (sheet.readField policy places))).map Csv.write := by
  rw [render, renderRows_eq, funext renderRow_eq, mapM_map_right, block, List.mapM_map,
    Function.comp_def]
  cases (List.range' 1 sheet.rowCount).mapM
    fun row => (sheet.rowAddresses row).mapM (sheet.readField policy places) <;> rfl

theorem renderFrom_cons (done : List Char) (fields : List (List Char)) (a : Address)
    (rest : List Address) :
    sheet.renderFrom policy places done fields (a :: rest) =
      (sheet.readField policy places a).bind fun text =>
        if a.column = sheet.columnCount then
          sheet.renderFrom policy places
            (done ++ ([','].intercalate (fields ++ [text]) ++ ['\n'])) [] rest
        else sheet.renderFrom policy places done (fields ++ [text]) rest := by
  rw [renderFrom]
  rfl

/-- The rest of a row is read up to its last cell, where the whole row is written. -/
theorem renderFrom_row {ahead : List Address} {last : Address}
    (hahead : ∀ a ∈ ahead, a.column ≠ sheet.columnCount) (hlast : last.column = sheet.columnCount)
    (done : List Char) (fields : List (List Char)) (rest : List Address) :
    sheet.renderFrom policy places done fields (ahead ++ [last] ++ rest) =
      ((ahead ++ [last]).mapM (sheet.readField policy places)).bind fun texts =>
        sheet.renderFrom policy places
          (done ++ ([','].intercalate (fields ++ texts) ++ ['\n'])) [] rest := by
  induction ahead generalizing fields with
  | nil =>
    rw [List.nil_append, List.singleton_append, renderFrom_cons]
    simp only [if_pos hlast, List.mapM_cons, List.mapM_nil]
    cases sheet.readField policy places last <;> rfl
  | cons a ahead ih =>
    obtain ⟨ha, hahead⟩ := List.forall_mem_cons.1 hahead
    rw [List.cons_append, List.cons_append, renderFrom_cons, List.mapM_cons]
    cases sheet.readField policy places a with
    | error e => rfl
    | ok text =>
      refine (if_neg ha).trans ((ih hahead (fields ++ [text])).trans ?_)
      cases (ahead ++ [last]).mapM (sheet.readField policy places) with
      | error e => rfl
      | ok texts => simp [Except.bind, bind, pure, Except.pure]

theorem renderFrom_flatten {rows : List (List Address)} (hrows : ∀ row ∈ rows, sheet.EndsRow row)
    (done : List Char) :
    sheet.renderFrom policy places done [] rows.flatten =
      (rows.mapM (List.mapM (sheet.readField policy places))).map (done ++ Csv.write ·) := by
  induction rows generalizing done with
  | nil => simp [renderFrom, Csv.write, pure, Except.pure, Except.map]
  | cons row rows ih =>
    obtain ⟨⟨ahead, last, rfl, hlast, hahead⟩, htail⟩ := List.forall_mem_cons.1 hrows
    rw [List.flatten_cons, renderFrom_row hahead hlast, List.mapM_cons]
    cases (ahead ++ [last]).mapM (sheet.readField policy places) with
    | error e => rfl
    | ok texts =>
      refine (ih htail _).trans ?_
      cases rows.mapM (List.mapM (sheet.readField policy places)) with
      | error e => rfl
      | ok lines => simp [Csv.write, Except.map, bind, Except.bind, pure, Except.pure]

/-- One pass over all cells gives the same text, and fails at the same cell. -/
theorem renderInOnePass_eq :
    sheet.renderInOnePass policy places = sheet.render policy places := by
  rw [renderInOnePass, ← flatten_block, render_eq, renderFrom_flatten]
  · rfl
  · intro row hrow
    obtain ⟨r, hpos, hle, rfl⟩ := mem_block_iff.1 hrow
    exact endsRow_rowAddresses hpos hle

theorem render_eq_ok_iff {rendered : List Char} :
    sheet.render policy places = .ok rendered ↔ ∃ text : Address → List Char,
      (∀ a, sheet.covers a = true → sheet.read policy places a = .ok (text a)) ∧
        rendered = Csv.write (sheet.table text) := by
  simp only [render_eq, map_eq_ok_iff, mapM_block_eq_ok_iff, readField_eq_ok_iff]
  constructor
  · rintro ⟨_, ⟨text, htext, rfl⟩, rfl⟩
    exact ⟨text, htext, rfl⟩
  · rintro ⟨text, htext, rfl⟩
    exact ⟨_, ⟨text, htext, rfl⟩, rfl⟩

theorem exists_render_eq_ok_iff :
    (∃ rendered, sheet.render policy places = .ok rendered) ↔
      ∀ a, sheet.covers a = true → ∃ text, sheet.read policy places a = .ok text := by
  simp only [render_eq_ok_iff]
  constructor
  · rintro ⟨_, text, htext, -⟩ a ha
    exact ⟨text a, htext a ha⟩
  · intro h
    choose! text htext using h
    exact ⟨_, text, htext, rfl⟩

theorem render_eq_error_iff {e : RenderError} :
    sheet.render policy places = .error e ↔ sheet.FirstUnread policy places e.address e.cause := by
  simp only [render_eq, map_eq_error_iff, mapM_block_eq_error_iff, readField_eq_error_iff,
    readField_eq_ok_iff]
  constructor
  · rintro ⟨_, hcovers, ⟨rfl, hread⟩, hbefore⟩
    exact ⟨hcovers, hread, hbefore⟩
  · intro h
    exact ⟨e.address, h.covers, ⟨rfl, h.read_eq⟩, h.before⟩

/-- Printed fields need no quotes and stand on one line. -/
theorem isBare_of_read {a : Address} {text : List Char}
    (hread : sheet.read policy places a = .ok text) : Csv.IsBare text ∧ '\n' ∉ text := by
  have hplain : ∀ c ∈ text, c ≠ ',' ∧ c ≠ '"' ∧ Text.isBlank c = false := by
    rcases read_eq_ok_iff.1 hread with ⟨-, -, -, rfl⟩ | ⟨x, -, rfl⟩
    · exact List.forall_mem_nil _
    · refine Decimal.fixed_forall ?_ (by simp [Text.isBlank, Text.blankRanges])
      intro c hc
      refine ⟨?_, ?_, (isSolid_of_isDigit hc).1⟩ <;> rintro rfl <;> contradiction
  exact ⟨.of_forall hplain, fun h => absurd (hplain _ h).2.2 (by decide)⟩

theorem isBare_of_mem_table {text : Address → List Char}
    (hread : ∀ a, sheet.covers a = true → sheet.read policy places a = .ok (text a)) :
    ∀ row ∈ sheet.table text, row ≠ [] ∧ ∀ s ∈ row, Csv.IsBare s ∧ '\n' ∉ s := by
  intro row hrow
  refine ⟨ne_nil_of_mem_table hrow, ?_⟩
  intro s hs
  obtain ⟨a, ha, rfl⟩ := exists_of_mem_table hrow hs
  exact isBare_of_read (hread a ha)

end Spreadsheet.Sheet
