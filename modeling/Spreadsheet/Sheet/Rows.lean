import Spreadsheet.Log
import Spreadsheet.Sheet

namespace Spreadsheet

namespace Sheet

def putRow (sheet : Sheet) (row column : Nat) : List (List Char) → Except SheetError Sheet
  | [] => .ok sheet
  | field :: fields => do
    let a ← (Address.ofCoordinates row column).mapError .invalidAddress
    let sheet ← (sheet.put a field).mapError .malformed
    sheet.putRow row (column + 1) fields

/-- Writes rows of one width, from the given row on. The width is checked before the fields. -/
def putRows (width : Nat) (sheet : Sheet) (row : Nat) :
    List (List (List Char)) → Except SheetError Sheet
  | [] => .ok sheet
  | fields :: rows => do
    if fields.length ≠ width then throw (.unevenRow row width fields.length)
    if maxRows < row then throw (.invalidAddress ⟨s!"row {row}"⟩)
    let sheet ← sheet.putRow row 1 fields
    putRows width sheet (row + 1) rows

def ofRows (rows : List (List (List Char))) : Except SheetError Sheet :=
  let width := (rows.head?.map List.length).getD 0
  if maxColumns < width then .error (.tooManyColumns width)
  else putRows width ∅ 1 rows

def loadedEntry (sheet : Sheet) : Log.Entry :=
  ⟨.debug, "cassava_engine::engine::grid",
    s!"loaded grid with {sheet.rowCount} rows and {sheet.columnCount} columns"⟩

end Sheet

end Spreadsheet
