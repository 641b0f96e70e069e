import Mathlib.Algebra.Group.Nat.Defs
import Spreadsheet.Proofs.Except
import Spreadsheet.Proofs.Sheet.Rows

namespace Spreadsheet.Sheet

def fieldAt? {α : Type} (rows : List (List α)) (r c : Nat) : Option α :=
  rows[r]?.bind (·[c]?)

def IsReadable (width : Nat) (fields : List (List Char)) : Prop :=
  fields.length = width ∧ ∀ field ∈ fields, ∃ f, Formula.parse field = .ok f

/-- What is wrong with a row. Its fields are not looked at if it has the wrong width. -/
inductive RowFault (width row : Nat) (fields : List (List Char)) : SheetError → Prop
  | uneven (hlength : fields.length ≠ width) :
      RowFault width row fields (.unevenRow row width fields.length)
  | malformed {before after : List (List Char)} {field : List Char} {e : ParseError}
      (hlength : fields.length = width) (hfields : fields = before ++ field :: after)
      (hbefore : ∀ b ∈ before, ∃ f, Formula.parse b = .ok f)
      (hfield : Formula.parse field = .error e) : RowFault width row fields (.malformed e)

/-- What is wrong with the first row that something is wrong with. Only the first row can be too
wide, and its fields are not looked at then. -/
inductive FirstFault (rows : List (List (List Char))) : SheetError → Prop
  | tooWide {first : List (List Char)} (hfirst : rows.head? = some first)
      (hwide : maxColumns < first.length) : FirstFault rows (.tooManyColumns first.length)
  | inRow {first fields : List (List Char)} {before after : List (List (List Char))}
      {e : SheetError} (hfirst : rows.head? = some first) (hwidth : first.length ≤ maxColumns)
      (hrows : rows = before ++ fields :: after)
      (hbefore : ∀ b ∈ before, IsReadable first.length b)
      (hfault : RowFault first.length (before.length + 1) fields e) : FirstFault rows e

/-- A sheet that holds what the fields of some rows say, each at its own place, and nothing else.
Its block ends with the last field of the last row. -/
structure Holds (rows : List (List (List Char))) (sheet : Sheet) : Prop where
  placed : ∀ {r c : Nat} {field : List Char}, fieldAt? rows r c = some field →
    ∃ a f, a.row = r + 1 ∧ a.column = c + 1 ∧ Formula.parse field = .ok f ∧
      sheet.find? a = some f
  only : ∀ {a : Address} {f : Formula}, sheet.find? a = some f →
    ∃ field, fieldAt? rows (a.row - 1) (a.column - 1) = some field ∧ Formula.parse field = .ok f
  extent : ∀ {width : Nat}, (∀ fields ∈ rows, fields.length = width) →
    (sheet.rowCount, sheet.columnCount) =
      if rows = [] ∨ width = 0 then (0, 0) else (rows.length, width)

section Checks

variable {width row : Nat} {fields : List (List Char)} {rows : List (List (List Char))}
  {formulas : List (List Formula)} {e : SheetError}

theorem readRow_eq_ok_iff {fs : List Formula} :
    readRow fields = .ok fs ↔ fields.map Formula.parse = fs.map .ok := by
  rw [readRow, mapError_eq_ok_iff, mapM_eq_ok_iff]

theorem exists_readRow_iff :
    (∃ fs, readRow fields = .ok fs) ↔ ∀ field ∈ fields, ∃ f, Formula.parse field = .ok f := by
  simp only [readRow, mapError_eq_ok_iff, exists_mapM_eq_ok_iff]

theorem exists_checkRow_iff :
    (∃ fs, checkRow width (fields, row) = .ok fs) ↔ IsReadable width fields := by
  rw [IsReadable, ← exists_readRow_iff, checkRow]
  split
  · next hlength => simp only [hlength, true_and]
  · next hlength => simp only [hlength, false_and, reduceCtorEq, exists_false]

theorem readRow_eq_error_iff :
    readRow fields = .error e ↔ ∃ before field after p, fields = before ++ field :: after ∧
      (∀ b ∈ before, ∃ f, Formula.parse b = .ok f) ∧ Formula.parse field = .error p ∧
      .malformed p = e := by
  simp only [readRow, mapError_eq_error_iff, mapM_eq_error_iff]
  constructor
  · rintro ⟨p, ⟨before, field, after, hfields, hbefore, hfield⟩, he⟩
    exact ⟨before, field, after, p, hfields, hbefore, hfield, he⟩
  · rintro ⟨before, field, after, p, hfields, hbefore, hfield, he⟩
    exact ⟨p, ⟨before, field, after, hfields, hbefore, hfield⟩, he⟩

theorem checkRow_eq_error_iff :
    checkRow width (fields, row) = .error e ↔ RowFault width row fields e := by
  rw [checkRow]
  split
  · next hlength =>
    rw [readRow_eq_error_iff]
    constructor
    · rintro ⟨before, field, after, p, hfields, hbefore, hfield, rfl⟩
      exact .malformed hlength hfields hbefore hfield
    · rintro (hne | ⟨_, hfields, hbefore, hfield⟩)
      · contradiction
      · exact ⟨_, _, _, _, hfields, hbefore, hfield, rfl⟩
  · next hlength =>
    constructor
    · rintro ⟨⟩
      exact .uneven hlength
    · rintro (_ | ⟨heq, _, _, _⟩)
      · rfl
      · contradiction

theorem exists_mapM_checkRow_iff :
    (∃ formulas, (rows.zipIdx row).mapM (checkRow width) = .ok formulas) ↔
      ∀ fields ∈ rows, IsReadable width fields := by
  rw [exists_mapM_eq_ok_iff]
  constructor
  · intro h fields hfields
    obtain ⟨i, hi, rfl⟩ := List.getElem_of_mem hfields
    have hmem : (rows[i], row + i) ∈ rows.zipIdx row :=
      List.mk_add_mem_zipIdx_iff_getElem?.2 (List.getElem?_eq_getElem hi)
    exact exists_checkRow_iff.1 (h _ hmem)
  · rintro h ⟨fields, i⟩ hmem
    exact exists_checkRow_iff.2 (h fields (List.fst_mem_of_mem_zipIdx hmem))

/-- Checking stops at the first row that something is wrong with. -/
theorem mapM_checkRow_eq_error_iff :
    (rows.zipIdx row).mapM (checkRow width) = .error e ↔
      ∃ before fields after, rows = before ++ fields :: after ∧
        (∀ b ∈ before, IsReadable width b) ∧ RowFault width (row + before.length) fields e := by
  rw [mapM_eq_error_iff]
  constructor
  · rintro ⟨_, _, _, hrows, hbefore, hfault⟩
    obtain ⟨before, rest, rfl, rfl, hrest⟩ := List.zipIdx_eq_append_iff.1 hrows
    obtain ⟨fields, after, rfl, rfl, -⟩ := List.zipIdx_eq_cons_iff.1 hrest.symm
    refine ⟨before, fields, after, rfl, ?_, checkRow_eq_error_iff.1 hfault⟩
    exact exists_mapM_checkRow_iff.1 (exists_mapM_eq_ok_iff.2 hbefore)
  · rintro ⟨before, fields, after, rfl, hbefore, hfault⟩
    refine ⟨before.zipIdx row, (fields, row + before.length), _,
      by rw [List.zipIdx_append, List.zipIdx_cons], ?_, checkRow_eq_error_iff.2 hfault⟩
    exact exists_mapM_eq_ok_iff.1 (exists_mapM_checkRow_iff.2 hbefore)

end Checks

section Load

variable {width : Nat} {rows : List (List (List Char))} {formulas : List (List Formula)}
  {sheet : Sheet} {e : SheetError}

theorem ofRows_eq_error_iff (hroom : rows.length ≤ maxRows) :
    ofRows rows = .error e ↔ FirstFault rows e := by
  cases rows with
  | nil =>
    constructor
    · intro h
      contradiction
    · rintro (⟨hfirst, -⟩ | ⟨hfirst, -, -, -, -⟩) <;> contradiction
  | cons first rest =>
    by_cases hwidth : first.length ≤ maxColumns
    · have hfirst : ((first :: rest).head?.map List.length).getD 0 = first.length := rfl
      rw [ofRows_eq_mapM_checkRow hfirst hwidth hroom, map_eq_error_iff,
        mapM_checkRow_eq_error_iff]
      constructor
      · rintro ⟨before, fields, after, hrows, hbefore, hfault⟩
        exact .inRow rfl hwidth hrows hbefore (Nat.add_comm 1 _ ▸ hfault)
      · rintro (⟨hfirst, hwide⟩ | ⟨hfirst, -, hrows, hbefore, hfault⟩)
        · obtain rfl := Option.some.inj hfirst
          exact absurd hwide (Nat.not_lt_of_le hwidth)
        · obtain rfl := Option.some.inj hfirst
          exact ⟨_, _, _, hrows, hbefore, Nat.add_comm 1 _ ▸ hfault⟩
    · have hwide := Nat.lt_of_not_le hwidth
      have hrun : ofRows (first :: rest) = .error (.tooManyColumns first.length) := if_pos hwide
      rw [hrun]
      constructor
      · rintro ⟨⟩
        exact .tooWide rfl hwide
      · rintro (⟨hfirst, -⟩ | ⟨hfirst, hle, -, -, -⟩)
        · obtain rfl := Option.some.inj hfirst
          rfl
        · obtain rfl := Option.some.inj hfirst
          contradiction

theorem ofRows_eq_ok_iff (hroom : rows.length ≤ maxRows) :
    ofRows rows = .ok sheet ↔ ∃ width formulas, IsGrid width 1 rows ∧
      rows.mapM readRow = .ok formulas ∧ (∅ : Sheet).insertRows 1 formulas = sheet := by
  constructor
  · intro h
    obtain ⟨width, hfirst⟩ : ∃ width, (rows.head?.map List.length).getD 0 = width := ⟨_, rfl⟩
    have hwidth : width ≤ maxColumns := by
      by_contra hwide
      simp only [ofRows, hfirst] at h
      rw [if_pos (Nat.lt_of_not_le hwide)] at h
      contradiction
    rw [ofRows_eq_mapM_checkRow hfirst hwidth hroom, map_eq_ok_iff] at h
    obtain ⟨formulas, hcheck, hsheet⟩ := h
    have hlength : ∀ fields ∈ rows, fields.length = width := by
      intro fields hfields
      exact (exists_mapM_checkRow_iff.1 ⟨formulas, hcheck⟩ fields hfields).1
    rw [mapM_checkRow hlength] at hcheck
    exact ⟨width, formulas, ⟨hwidth, Nat.le_refl 1, by omega, hlength⟩, hcheck, hsheet⟩
  · rintro ⟨width, formulas, hgrid, hread, rfl⟩
    rw [ofRows_eq hgrid, hread]
    rfl

/-- Rows make a sheet exactly if they have one width that there are columns for, and all of their
fields can be read. -/
theorem exists_ofRows_iff (hroom : rows.length ≤ maxRows) :
    (∃ sheet, ofRows rows = .ok sheet) ↔
      ∃ width ≤ maxColumns, ∀ fields ∈ rows, IsReadable width fields := by
  simp only [ofRows_eq_ok_iff hroom]
  constructor
  · rintro ⟨-, width, formulas, hgrid, hread, -⟩
    refine ⟨width, hgrid.width_le, fun fields hfields => ⟨hgrid.length_eq fields hfields, ?_⟩⟩
    exact exists_readRow_iff.1 (exists_mapM_eq_ok_iff.1 ⟨formulas, hread⟩ fields hfields)
  · rintro ⟨width, hwidth, h⟩
    obtain ⟨formulas, hread⟩ : ∃ formulas, rows.mapM readRow = .ok formulas :=
      exists_mapM_eq_ok_iff.2 fun fields hfields => exists_readRow_iff.2 (h fields hfields).2
    have hlength : ∀ fields ∈ rows, fields.length = width :=
      fun fields hfields => (h fields hfields).1
    exact ⟨_, width, formulas, ⟨hwidth, Nat.le_refl 1, by omega, hlength⟩, hread, rfl⟩

theorem map_parse_fieldAt? (hread : rows.mapM readRow = .ok formulas) (r c : Nat) :
    (fieldAt? rows r c).map Formula.parse = (fieldAt? formulas r c).map .ok := by
  have hrow : (rows.map readRow)[r]? = (formulas.map .ok)[r]? := by rw [mapM_eq_ok_iff.1 hread]
  rw [List.getElem?_map, List.getElem?_map] at hrow
  cases hfields : rows[r]? with
  | none =>
    rw [hfields, Option.map_none, eq_comm, Option.map_eq_none_iff] at hrow
    rw [fieldAt?, fieldAt?, hfields, hrow]
    rfl
  | some fields =>
    rw [hfields, Option.map_some, eq_comm, Option.map_eq_some_iff] at hrow
    obtain ⟨fs, hfs, hok⟩ := hrow
    rw [fieldAt?, fieldAt?, hfields, hfs, Option.bind_some, Option.bind_some,
      ← List.getElem?_map, ← List.getElem?_map, readRow_eq_ok_iff.1 hok.symm]

theorem length_of_mapM_readRow (hread : rows.mapM readRow = .ok formulas) :
    formulas.length = rows.length := by
  simpa only [List.length_map] using (congrArg List.length (mapM_eq_ok_iff.1 hread)).symm

theorem isGrid_of_mapM_readRow (h : IsGrid width 1 rows)
    (hread : rows.mapM readRow = .ok formulas) : IsGrid width 1 formulas := by
  refine ⟨h.width_le, h.one_le_row, length_of_mapM_readRow hread ▸ h.row_le, ?_⟩
  intro fs hfs
  obtain ⟨fields, hfields, hok⟩ : ∃ fields ∈ rows, readRow fields = .ok fs :=
    List.mem_map.1 (mapM_eq_ok_iff.1 hread ▸ List.mem_map_of_mem hfs)
  rw [← h.length_eq fields hfields]
  simpa only [List.length_map] using (congrArg List.length (readRow_eq_ok_iff.1 hok)).symm

theorem extent_of_corner {height : Nat} (hcorner : sheet.corner = Address.at? height width)
    (hheight : height ≤ maxRows) (hwidth : width ≤ maxColumns) :
    (sheet.rowCount, sheet.columnCount) =
      if height = 0 ∨ width = 0 then (0, 0) else (height, width) := by
  rw [rowCount, columnCount, hcorner]
  split
  · next hzero =>
    rw [Address.at?_eq_none hzero]
    rfl
  · next hpos =>
    obtain ⟨a, ha⟩ := Address.exists_at? (by omega) hheight (by omega) hwidth
    rw [ha]
    exact Prod.ext (Address.at?_eq_some_iff.1 ha).1 (Address.at?_eq_some_iff.1 ha).2

theorem holds_of_ofRows (hroom : rows.length ≤ maxRows) (h : ofRows rows = .ok sheet) :
    Holds rows sheet := by
  obtain ⟨width, formulas, hgrid, hread, rfl⟩ := (ofRows_eq_ok_iff hroom).1 h
  have hformulas := isGrid_of_mapM_readRow hgrid hread
  have hfind (a : Address) : ((∅ : Sheet).insertRows 1 formulas).find? a =
      fieldAt? formulas (a.row - 1) (a.column - 1) := by
    rw [find?_insertRows ∅ hformulas, if_pos a.one_le_row]
    exact Option.or_none
  constructor
  case placed =>
    intro r c field hfield
    obtain ⟨fields, hfields, hc⟩ := Option.bind_eq_some_iff.1 hfield
    obtain ⟨f, hf, hparse⟩ : ∃ f, fieldAt? formulas r c = some f ∧ .ok f = Formula.parse field := by
      rw [← Option.map_eq_some_iff, ← map_parse_fieldAt? hread, hfield]
      rfl
    have hr : r < rows.length := (List.getElem?_eq_some_iff.1 hfields).1
    have hc : c < fields.length := (List.getElem?_eq_some_iff.1 hc).1
    rw [hgrid.length_eq fields (List.mem_of_getElem? hfields)] at hc
    have hwidth := hgrid.width_le
    obtain ⟨a, ha⟩ := Address.exists_at? (Nat.le_add_left 1 r) (by omega) (Nat.le_add_left 1 c)
      (by omega)
    obtain ⟨harow, hacolumn⟩ := Address.at?_eq_some_iff.1 ha
    refine ⟨a, f, harow, hacolumn, hparse.symm, ?_⟩
    rw [hfind, harow, hacolumn]
    exact hf
  case only =>
    intro a f hf
    rw [hfind] at hf
    have hmap := map_parse_fieldAt? hread (a.row - 1) (a.column - 1)
    rw [hf, Option.map_some, Option.map_eq_some_iff] at hmap
    exact hmap
  case extent =>
    intro common hcommon
    rw [extent_of_corner (corner_insertRows hformulas) (length_of_mapM_readRow hread ▸ hroom)
      hgrid.width_le, length_of_mapM_readRow hread]
    cases rows with
    | nil => rfl
    | cons fields rows =>
      have hwidth : width = common := by
        have hmem := List.mem_cons_self (a := fields) (l := rows)
        rw [← hgrid.length_eq fields hmem, hcommon fields hmem]
      rw [hwidth]
      simp only [List.length_cons, Nat.succ_ne_zero, reduceCtorEq]

theorem FirstFault.ne_invalidAddress (h : FirstFault rows e) (i : InvalidAddress) :
    e ≠ .invalidAddress i := by
  cases h with
  | tooWide => exact nofun
  | inRow _ _ _ _ hfault => cases hfault <;> exact nofun

end Load

/-- A way to find cells that finds those that exist. With other coordinates it may do anything. -/
def Locates (locate : Nat → Nat → Except InvalidAddress Address) : Prop :=
  ∀ a : Address, locate a.row a.column = .ok a

/-- The address of these coordinates, where the column is counted from zero in one byte. -/
def locateByte (row column : Nat) : Except InvalidAddress Address :=
  Address.ofCoordinates row (UInt8.ofNat (column - 1) + 1).toNat

section Locate

variable (locate : Nat → Nat → Except InvalidAddress Address)

def putRowAt (sheet : Sheet) (row column : Nat) : List (List Char) → Except SheetError Sheet
  | [] => .ok sheet
  | field :: fields => do
    let a ← (locate row column).mapError .invalidAddress
    let sheet ← (sheet.put a field).mapError .malformed
    sheet.putRowAt row (column + 1) fields

def putRowsAt (width : Nat) (sheet : Sheet) (row : Nat) :
    List (List (List Char)) → Except SheetError Sheet
  | [] => .ok sheet
  | fields :: rows => do
    if fields.length ≠ width then throw (.unevenRow row width fields.length)
    if maxRows < row then throw (.invalidAddress ⟨s!"row {row}"⟩)
    let sheet ← sheet.putRowAt locate row 1 fields
    putRowsAt width sheet (row + 1) rows

def ofRowsAt (rows : List (List (List Char))) : Except SheetError Sheet :=
  let width := (rows.head?.map List.length).getD 0
  if maxColumns < width then .error (.tooManyColumns width)
  else putRowsAt locate width ∅ 1 rows

variable {locate} {width row column : Nat} {fields : List (List Char)} (sheet : Sheet)

theorem putRowAt_eq (hlocate : Locates locate) (h : HasRoom row column fields.length) :
    sheet.putRowAt locate row column fields = sheet.putRow row column fields := by
  induction fields generalizing sheet column with
  | nil => rfl
  | cons field fields ih =>
    obtain ⟨a, ha⟩ := h.exists_at?
    obtain ⟨rfl, rfl⟩ := Address.at?_eq_some_iff.1 ha
    rw [putRowAt, putRow, hlocate a, Address.ofCoordinates_eq_ok ha]
    exact congrArg (((sheet.put a field).mapError .malformed).bind ·)
      (funext fun next => ih next h.next)

theorem putRowsAt_eq (hlocate : Locates locate) (hwidth : width ≤ maxColumns) (hrow : 1 ≤ row)
    (rows : List (List (List Char))) :
    sheet.putRowsAt locate width row rows = sheet.putRows width row rows := by
  induction rows generalizing sheet row with
  | nil => rfl
  | cons fields rows ih =>
    rw [putRowsAt, putRows]
    by_cases hlength : fields.length = width
    · by_cases hmax : maxRows < row
      · rw [if_pos hmax, if_pos hmax]
        rfl
      · have hfields : HasRoom row 1 fields.length :=
          ⟨hrow, Nat.le_of_not_lt hmax, Nat.le_refl 1, by omega⟩
        rw [if_neg (not_not_intro hlength), if_neg (not_not_intro hlength), if_neg hmax,
          if_neg hmax, sheet.putRowAt_eq hlocate hfields]
        exact congrArg ((sheet.putRow row 1 fields).bind ·)
          (funext fun next => ih next (Nat.le_add_left 1 row))
    · rw [if_pos hlength, if_pos hlength]
      rfl

/-- No row is looked up that does not exist, and no column. -/
theorem ofRowsAt_eq (hlocate : Locates locate) (rows : List (List (List Char))) :
    ofRowsAt locate rows = ofRows rows := by
  simp only [ofRowsAt, ofRows]
  split
  · rfl
  · next hwidth => exact putRowsAt_eq ∅ hlocate (Nat.le_of_not_lt hwidth) (Nat.le_refl 1) rows

end Locate

theorem locates_locateByte : Locates locateByte := by
  intro a
  have hone := a.one_le_column
  have hmax : a.column ≤ 26 := a.column_le
  have hcolumn : (UInt8.ofNat (a.column - 1) + 1).toNat = a.column := by
    rw [UInt8.toNat_add, UInt8.toNat_ofNat', UInt8.toNat_one]
    omega
  rw [locateByte, hcolumn]
  exact Address.ofCoordinates_eq_ok (Address.at?_eq_some_iff.2 ⟨rfl, rfl⟩)

/-- Rows that 32 bits can count make a sheet exactly if they have one width that there are columns
for, and all of their fields can be read. The sheet holds them and nothing else. What is reported
about other rows is what is wrong with the first of them that something is wrong with. No cell is
ever missing: only cells that exist are looked up, and one byte is enough to count their columns. -/
theorem rows_load_or_report_first_fault (rows : List (List (List Char)))
    (hfew : rows.length < 2 ^ 32) :
    ((∃ sheet, ofRows rows = .ok sheet) ↔
      ∃ width ≤ maxColumns, ∀ fields ∈ rows, IsReadable width fields) ∧
    (∀ sheet, ofRows rows = .ok sheet → Holds rows sheet) ∧
    (∀ e, ofRows rows = .error e ↔ FirstFault rows e) ∧
    (∀ i, ofRows rows ≠ .error (.invalidAddress i)) ∧
    Locates locateByte ∧ ∀ locate, Locates locate → ofRowsAt locate rows = ofRows rows := by
  have hroom : rows.length ≤ maxRows := Nat.le_sub_one_of_lt hfew
  refine ⟨exists_ofRows_iff hroom, fun _ => holds_of_ofRows hroom,
    fun _ => ofRows_eq_error_iff hroom, ?_, locates_locateByte,
    fun _ hlocate => ofRowsAt_eq hlocate rows⟩
  intro i herror
  exact ((ofRows_eq_error_iff hroom).1 herror).ne_invalidAddress i rfl

/-- A row of the wrong width is reported although its fields and those of a row below it are wrong
too, and although it is wider than any sheet. A wrong field is reported before a row below it. -/
theorem rows_load_or_report_first_fault_interleaved :
    let one := ["1".toList, "".toList]
    let wide := List.replicate 30 "*".toList
    let wrong := ["2".toList, "1*".toList]
    [one, wide, wrong].length < 2 ^ 32 ∧ [one, wrong, wide].length < 2 ^ 32 ∧
      ofRows [one, wide, wrong] = .error (.unevenRow 2 2 30) ∧
      ofRows [one, wrong, wide] = .error (.malformed ⟨"1*".toList, .unsupportedTerminal⟩) := by
  intro one wide wrong
  have hone : Formula.parse "1".toList = .ok (.number (.integer 1)) := by decide +kernel
  have hblank : Formula.parse "".toList = .ok .blank := by decide +kernel
  have htwo : Formula.parse "2".toList = .ok (.number (.integer 2)) := by decide +kernel
  have hwrong : Formula.parse "1*".toList = .error ⟨"1*".toList, .unsupportedTerminal⟩ := by decide +kernel
  have hreadable : ∀ b ∈ [one], IsReadable 2 b :=
    List.forall_mem_singleton.2 ⟨rfl, List.forall_mem_cons.2 ⟨⟨_, hone⟩,
      List.forall_mem_singleton.2 ⟨_, hblank⟩⟩⟩
  have hbefore : ∀ b ∈ ["2".toList], ∃ f, Formula.parse b = .ok f :=
    List.forall_mem_singleton.2 ⟨_, htwo⟩
  have huneven : FirstFault [one, wide, wrong] (.unevenRow 2 2 30) := by
    have hrows : [one, wide, wrong] = [one] ++ wide :: [wrong] := rfl
    exact .inRow rfl (by decide) hrows hreadable (.uneven (by decide))
  have hmalformed :
      FirstFault [one, wrong, wide] (.malformed ⟨"1*".toList, .unsupportedTerminal⟩) := by
    have hrows : [one, wrong, wide] = [one] ++ wrong :: [wide] := rfl
    have hfields : wrong = ["2".toList] ++ "1*".toList :: [] := rfl
    exact .inRow rfl (by decide) hrows hreadable (.malformed rfl hfields hbefore hwrong)
  exact ⟨by decide, by decide,
    ((rows_load_or_report_first_fault [one, wide, wrong] (by decide)).2.2.1 _).2 huneven,
    ((rows_load_or_report_first_fault [one, wrong, wide] (by decide)).2.2.1 _).2 hmalformed⟩

end Spreadsheet.Sheet
