import Spreadsheet.Document
import Spreadsheet.Proofs.Sheet.Render

namespace Spreadsheet.Sheet

/-- A text shows a sheet's block: it has a line for each row, and in it a field for each column,
which is what the cell there reads as. -/
structure Shows (sheet : Sheet) (policy : Policy) (places : Nat)
    (fields : List (List (List Char))) (text : List Char) : Prop where
  rows : fields.length = sheet.rowCount
  columns : ∀ row ∈ fields, row.length = sheet.columnCount
  cells : ∀ a, sheet.covers a = true → ∃ s, sheet.read policy places a = .ok s ∧
    fields[a.row - 1]?.bind (·[a.column - 1]?) = some s
  text_eq : text = fields.flatMap fun row => [','].intercalate row ++ ['\n']
  lines_eq : Csv.lines text = fields.map [','].intercalate

variable {sheet : Sheet} {policy : Policy} {places : Nat} {fields : List (List (List Char))}
  {text : List Char}

theorem shows_table {s : Address → List Char}
    (hread : ∀ a, sheet.covers a = true → sheet.read policy places a = .ok (s a)) :
    sheet.Shows policy places (sheet.table s) (Csv.write (sheet.table s)) where
  rows := length_table
  columns _ := length_of_mem_table
  cells a ha := ⟨s a, hread a ha, getElem?_table ha⟩
  text_eq := rfl
  lines_eq := Csv.lines_write (isBare_of_mem_table hread)

theorem Shows.render_eq (h : sheet.Shows policy places fields text) :
    sheet.render policy places = .ok text := by
  choose! s hread hcells using h.cells
  obtain rfl : fields = sheet.table s := eq_table h.rows h.columns hcells
  exact render_eq_ok_iff.2 ⟨s, hread, h.text_eq⟩

theorem render_eq_ok_iff_shows :
    sheet.render policy places = .ok text ↔ ∃ fields, sheet.Shows policy places fields text := by
  constructor
  · intro h
    obtain ⟨s, hread, rfl⟩ := render_eq_ok_iff.1 h
    exact ⟨_, shows_table hread⟩
  · rintro ⟨fields, h⟩
    exact h.render_eq

/-- A sheet is rendered exactly if each cell of its block can be read. The text then shows the
block, and is empty where there is none. A failure names the first cell that cannot be read, row by
row, and why. The sink is sent the whole text or, after a failure, nothing. -/
theorem renders_block_or_fails_first (sheet : Sheet) (policy : Policy) (places : Nat) :
    ((∃ text, sheet.render policy places = .ok text) ↔
      ∀ a, sheet.covers a = true → ∃ s, sheet.read policy places a = .ok s) ∧
    (∀ text, sheet.render policy places = .ok text ↔
      ∃ fields, sheet.Shows policy places fields text) ∧
    (sheet.rowCount = 0 → sheet.render policy places = .ok []) ∧
    (∀ e, sheet.render policy places = .error e ↔
      sheet.FirstUnread policy places e.address e.cause) ∧
    ∀ sink, (∀ text, sheet.render policy places = .ok text →
        sheet.print sink policy places = ⟨(sink text).mapError .io, some text⟩) ∧
      ∀ e, sheet.render policy places = .error e →
        sheet.print sink policy places = ⟨.error (.print e), none⟩ := by
  refine ⟨exists_render_eq_ok_iff, fun _ => render_eq_ok_iff_shows, ?_,
    fun _ => render_eq_error_iff, ?_⟩
  · intro hempty
    have hnone : ∀ a, sheet.covers a = true → sheet.read policy places a = .ok [] := by
      intro a ha
      have := (covers_iff.1 ha).1
      have := a.one_le_row
      omega
    have htable : sheet.table (fun _ => ([] : List Char)) = [] :=
      List.eq_nil_of_length_eq_zero (length_table.trans hempty)
    exact render_eq_ok_iff.2 ⟨_, hnone, by rw [htable]; rfl⟩
  · intro sink
    constructor <;> intro _ h <;> rw [print, h]

end Spreadsheet.Sheet
