import Spreadsheet.Proofs.Except
import Spreadsheet.Proofs.Sheet.Block
import Spreadsheet.Sheet.Rows

namespace Spreadsheet.Sheet

structure HasRoom (row column count : Nat) : Prop where
  one_le_row : 1 ≤ row
  row_le : row ≤ maxRows
  one_le_column : 1 ≤ column
  column_le : column + count ≤ maxColumns + 1

structure IsGrid {α : Type} (width row : Nat) (rows : List (List α)) : Prop where
  width_le : width ≤ maxColumns
  one_le_row : 1 ≤ row
  row_le : row + rows.length ≤ maxRows + 1
  length_eq : ∀ fields ∈ rows, fields.length = width

section Room

variable {row column count width : Nat} {α : Type} {fields : List α} {rows : List (List α)}

theorem HasRoom.exists_at? (h : HasRoom row column (count + 1)) :
    ∃ a, Address.at? row column = some a := by
  have := h.column_le
  exact Address.exists_at? h.one_le_row h.row_le h.one_le_column (by omega)

theorem HasRoom.next (h : HasRoom row column (count + 1)) : HasRoom row (column + 1) count where
  one_le_row := h.one_le_row
  row_le := h.row_le
  one_le_column := Nat.le_add_left 1 column
  column_le := by
    have := h.column_le
    omega

theorem IsGrid.head (h : IsGrid width row (fields :: rows)) : HasRoom row 1 fields.length where
  one_le_row := h.one_le_row
  row_le := by
    have := h.row_le
    rw [List.length_cons] at this
    omega
  one_le_column := Nat.le_refl 1
  column_le := by
    have := h.width_le
    rw [h.length_eq fields (List.mem_cons_self ..)]
    omega

theorem IsGrid.tail (h : IsGrid width row (fields :: rows)) : IsGrid width (row + 1) rows where
  width_le := h.width_le
  one_le_row := Nat.le_add_left 1 row
  row_le := by
    have := h.row_le
    rw [List.length_cons] at this
    omega
  length_eq := fun r hr => h.length_eq r (List.mem_cons_of_mem fields hr)

end Room

variable (sheet : Sheet) {row column width : Nat}

def readRow (fields : List (List Char)) : Except SheetError (List Formula) :=
  (fields.mapM Formula.parse).mapError .malformed

def insertRow (sheet : Sheet) (row column : Nat) : List Formula → Sheet
  | [] => sheet
  | f :: fs => ((Address.at? row column).elim sheet (sheet.insert · f)).insertRow row (column + 1) fs

def insertRows (sheet : Sheet) (row : Nat) : List (List Formula) → Sheet
  | [] => sheet
  | fs :: rows => (sheet.insertRow row 1 fs).insertRows (row + 1) rows

theorem insertRow_cons {a : Address} (ha : Address.at? row column = some a) (f : Formula)
    (fs : List Formula) :
    sheet.insertRow row column (f :: fs) = (sheet.insert a f).insertRow row (column + 1) fs := by
  rw [insertRow, ha]
  rfl

theorem putRow_cons_eq_ok_iff {after : Sheet} {field : List Char} {fields : List (List Char)} :
    sheet.putRow row column (field :: fields) = .ok after ↔
      ∃ a f, Address.at? row column = some a ∧ Formula.parse field = .ok f ∧
        (sheet.insert a f).putRow row (column + 1) fields = .ok after := by
  simp only [putRow, bind_eq_ok_iff, mapError_eq_ok_iff, put, map_eq_ok_iff, Address.ofCoordinates]
  constructor
  · rintro ⟨a, ha, _, ⟨f, hf, rfl⟩, hrest⟩
    refine ⟨a, f, ?_, hf, hrest⟩
    cases hat : Address.at? row column <;> simp_all
  · rintro ⟨a, f, ha, hf, hrest⟩
    exact ⟨a, by rw [ha]; rfl, _, ⟨f, hf, rfl⟩, hrest⟩

theorem putRows_cons_eq_ok_iff {after : Sheet} {fields : List (List Char)}
    {rows : List (List (List Char))} :
    sheet.putRows width row (fields :: rows) = .ok after ↔
      fields.length = width ∧ row ≤ maxRows ∧ ∃ next, sheet.putRow row 1 fields = .ok next ∧
        next.putRows width (row + 1) rows = .ok after := by
  by_cases hlength : fields.length = width
  · by_cases hrow : row ≤ maxRows
    · rw [putRows, if_neg (not_not_intro hlength), if_neg (Nat.not_lt_of_le hrow)]
      simp only [hlength, hrow, true_and]
      exact bind_eq_ok_iff
    · rw [putRows, if_neg (not_not_intro hlength), if_pos (Nat.lt_of_not_le hrow)]
      simp only [hrow, false_and, and_false, iff_false]
      exact nofun
  · rw [putRows, if_pos hlength]
    simp only [hlength, false_and, iff_false]
    exact nofun

/-- Writing fields is reading all of them and then writing what they say. -/
theorem putRow_eq {fields : List (List Char)} (h : HasRoom row column fields.length) :
    sheet.putRow row column fields = (readRow fields).map (sheet.insertRow row column) := by
  induction fields generalizing sheet column with
  | nil => rfl
  | cons field fields ih =>
    obtain ⟨a, ha⟩ := h.exists_at?
    have hof := Address.ofCoordinates_eq_ok ha
    have hstep : sheet.putRow row column (field :: fields) =
        ((sheet.put a field).mapError .malformed).bind (·.putRow row (column + 1) fields) := by
      rw [putRow, hof]
      rfl
    rw [hstep, put, readRow, List.mapM_cons]
    cases Formula.parse field with
    | error e => rfl
    | ok f =>
      apply (ih (sheet.insert a f) h.next).trans
      rw [readRow]
      cases fields.mapM Formula.parse with
      | error e => rfl
      | ok fs => exact congrArg Except.ok (sheet.insertRow_cons ha f fs).symm

def checkRow (width : Nat) : List (List Char) × Nat → Except SheetError (List Formula)
  | (fields, row) =>
    if fields.length = width then readRow fields
    else .error (.unevenRow row width fields.length)

/-- Writing rows that there is room for is checking all of them and then writing what they say. -/
theorem putRows_eq {rows : List (List (List Char))} (hwidth : width ≤ maxColumns) (hrow : 1 ≤ row)
    (hroom : row + rows.length ≤ maxRows + 1) :
    sheet.putRows width row rows =
      ((rows.zipIdx row).mapM (checkRow width)).map (sheet.insertRows row) := by
  induction rows generalizing sheet row with
  | nil => rfl
  | cons fields rows ih =>
    rw [List.length_cons] at hroom
    rw [List.zipIdx_cons, List.mapM_cons, checkRow]
    by_cases hlength : fields.length = width
    · have hfields : HasRoom row 1 fields.length := ⟨hrow, by omega, Nat.le_refl 1, by omega⟩
      have hstep : sheet.putRows width row (fields :: rows) =
          (sheet.putRow row 1 fields).bind (putRows width · (row + 1) rows) := by
        rw [putRows, if_neg (not_not_intro hlength), if_neg (Nat.not_lt_of_le hfields.row_le)]
        rfl
      rw [hstep, sheet.putRow_eq hfields, if_pos hlength]
      cases readRow fields with
      | error e => rfl
      | ok fs =>
        apply (ih (sheet.insertRow row 1 fs) (Nat.le_add_left 1 row) (by omega)).trans
        cases (rows.zipIdx (row + 1)).mapM (checkRow width) <;> rfl
    · rw [putRows, if_pos hlength, if_neg hlength]
      rfl

theorem ofRows_eq_mapM_checkRow {rows : List (List (List Char))}
    (hfirst : (rows.head?.map List.length).getD 0 = width) (hwidth : width ≤ maxColumns)
    (hroom : rows.length ≤ maxRows) :
    ofRows rows = ((rows.zipIdx 1).mapM (checkRow width)).map ((∅ : Sheet).insertRows 1) := by
  simp only [ofRows, hfirst]
  rw [if_neg (Nat.not_lt_of_le hwidth), putRows_eq ∅ hwidth (Nat.le_refl 1) (by omega)]

theorem mapM_checkRow {rows : List (List (List Char))} (h : ∀ fields ∈ rows, fields.length = width)
    (row : Nat) : (rows.zipIdx row).mapM (checkRow width) = rows.mapM readRow := by
  induction rows generalizing row with
  | nil => rfl
  | cons fields rows ih =>
    obtain ⟨hlength, h⟩ := List.forall_mem_cons.1 h
    rw [List.zipIdx_cons, List.mapM_cons, List.mapM_cons, checkRow, if_pos hlength, ih h]

theorem ofRows_eq {rows : List (List (List Char))} (h : IsGrid width 1 rows) :
    ofRows rows = (rows.mapM readRow).map ((∅ : Sheet).insertRows 1) := by
  cases rows with
  | nil => rfl
  | cons fields rows =>
    have hroom := h.row_le
    have hlength : ((fields :: rows).head?.map List.length).getD 0 = width :=
      h.length_eq fields (List.mem_cons_self ..)
    rw [ofRows_eq_mapM_checkRow hlength h.width_le (by omega), mapM_checkRow h.length_eq]

theorem find?_insertRow {fs : List Formula} (h : HasRoom row column fs.length) (a : Address) :
    (sheet.insertRow row column fs).find? a =
      (if a.row = row ∧ column ≤ a.column then fs[a.column - column]? else none).or
        (sheet.find? a) := by
  induction fs generalizing sheet column with
  | nil => simp [insertRow]
  | cons f fs ih =>
    obtain ⟨b, hb⟩ := h.exists_at?
    have hself : b = a ↔ a.row = row ∧ a.column = column := by
      rw [← Address.at?_eq_some_iff, hb, Option.some.injEq]
    rw [insertRow_cons sheet hb, ih (sheet.insert b f) h.next, find?_insert]
    simp only [hself]
    by_cases hr : a.row = row
    · rcases Nat.lt_trichotomy a.column column with hc | hc | hc
      · have hne : a.column ≠ column := Nat.ne_of_lt hc
        simp [hr, hne, Nat.not_le_of_lt hc, Nat.not_le_of_lt (Nat.lt_succ_of_lt hc)]
      · rw [if_neg fun h => absurd h.2 (by omega), if_pos ⟨hr, hc⟩,
          if_pos ⟨hr, Nat.le_of_eq hc.symm⟩, hc, Nat.sub_self]
        rfl
      · have hne : a.column ≠ column := Nat.ne_of_gt hc
        have hindex : a.column - column = a.column - (column + 1) + 1 := by omega
        simp [hr, hne, Nat.le_of_lt hc, Nat.succ_le_of_lt hc, hindex]
    · simp [hr]

theorem extent_insertRow {fs : List Formula} (h : HasRoom row column fs.length) (hne : fs ≠ []) :
    (sheet.insertRow row column fs).rowCount = max row sheet.rowCount ∧
      (sheet.insertRow row column fs).columnCount =
        max (column + fs.length - 1) sheet.columnCount := by
  induction fs generalizing sheet column with
  | nil => contradiction
  | cons f fs ih =>
    obtain ⟨a, ha⟩ := h.exists_at?
    obtain ⟨hr, hc⟩ := Address.at?_eq_some_iff.1 ha
    rw [insertRow_cons sheet ha, List.length_cons]
    by_cases hnil : fs = []
    · rw [hnil, insertRow, rowCount_insert, columnCount_insert, hr, hc]
      exact ⟨rfl, rfl⟩
    · obtain ⟨ihr, ihc⟩ := ih (sheet.insert a f) h.next hnil
      rw [ihr, ihc, rowCount_insert, columnCount_insert, hr, hc]
      omega

variable {rows : List (List Formula)}

theorem find?_insertRows (h : IsGrid width row rows) (a : Address) :
    (sheet.insertRows row rows).find? a =
      (if row ≤ a.row then rows[a.row - row]?.bind (·[a.column - 1]?) else none).or
        (sheet.find? a) := by
  induction rows generalizing sheet row with
  | nil => simp [insertRows]
  | cons fs rows ih =>
    rw [insertRows, ih (sheet.insertRow row 1 fs) h.tail, sheet.find?_insertRow h.head]
    have hcolumn := a.one_le_column
    rcases Nat.lt_trichotomy a.row row with hr | hr | hr
    · have hne : a.row ≠ row := Nat.ne_of_lt hr
      simp [hne, Nat.not_le_of_lt hr, Nat.not_le_of_lt (Nat.lt_succ_of_lt hr)]
    · rw [if_neg (by omega), if_pos ⟨hr, hcolumn⟩, if_pos (Nat.le_of_eq hr.symm), hr,
        Nat.sub_self]
      rfl
    · have hne : a.row ≠ row := Nat.ne_of_gt hr
      have hindex : a.row - row = a.row - (row + 1) + 1 := by omega
      simp [hne, Nat.le_of_lt hr, Nat.succ_le_of_lt hr, hindex]

theorem insertRows_of_empty (h : ∀ fs ∈ rows, fs = []) : sheet.insertRows row rows = sheet := by
  induction rows generalizing row with
  | nil => rfl
  | cons fs rows ih =>
    rw [insertRows, h fs (List.mem_cons_self ..), insertRow]
    apply ih
    intro r hr
    exact h r (List.mem_cons_of_mem fs hr)

theorem extent_insertRows (h : IsGrid width row rows) (hpos : 0 < width)
    (hrow : row = sheet.rowCount + 1) (hcolumn : sheet.columnCount ≤ width) (hne : rows ≠ []) :
    (sheet.insertRows row rows).rowCount = sheet.rowCount + rows.length ∧
      (sheet.insertRows row rows).columnCount = width := by
  induction rows generalizing sheet row with
  | nil => contradiction
  | cons fs rows ih =>
    have hlength := h.length_eq fs (List.mem_cons_self ..)
    have hfs : fs ≠ [] := List.length_pos_iff.1 (by omega)
    obtain ⟨hr, hc⟩ := sheet.extent_insertRow h.head hfs
    rw [insertRows, List.length_cons]
    by_cases hnil : rows = []
    · rw [hnil, insertRows, hr, hc, List.length_nil]
      omega
    · have hnext : row + 1 = (sheet.insertRow row 1 fs).rowCount + 1 := by omega
      obtain ⟨ihr, ihc⟩ := ih (sheet.insertRow row 1 fs) h.tail hnext (by omega) hnil
      rw [ihr, ihc]
      omega

/-- The block of the sheet of some rows is as high as there are rows and as wide as they are. -/
theorem corner_insertRows (h : IsGrid width 1 rows) :
    ((∅ : Sheet).insertRows 1 rows).corner = Address.at? rows.length width := by
  by_cases hnil : rows = []
  · rw [hnil]
    rfl
  rcases Nat.eq_zero_or_pos width with rfl | hpos
  · rw [insertRows_of_empty ∅ fun fs hfs => List.length_eq_zero_iff.1 (h.length_eq fs hfs)]
    exact (Address.at?_eq_none (.inr rfl)).symm
  · have hzero : (∅ : Sheet).rowCount = 0 := rfl
    have hfirst : 1 = (∅ : Sheet).rowCount + 1 := by rw [hzero]
    obtain ⟨hr, hc⟩ := extent_insertRows ∅ h hpos hfirst (Nat.zero_le width) hnil
    rw [corner_eq, hr, hc, hzero, Nat.zero_add]

end Spreadsheet.Sheet
