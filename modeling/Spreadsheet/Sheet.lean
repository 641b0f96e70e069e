import Spreadsheet.Sheet.Error
import Std.Data.TreeMap

namespace Spreadsheet

/-- Cells that were written, and the lower right corner of the smallest block from A1 on that
holds them all. Cells of that block need not have been written. -/
structure Sheet where
  cells : Std.TreeMap Address Formula := ∅
  corner : Option Address := none

namespace Sheet

def empty : Sheet := {}

instance : EmptyCollection Sheet := ⟨empty⟩

instance : Inhabited Sheet := ⟨∅⟩

variable (sheet : Sheet)

def rowCount : Nat :=
  sheet.corner.elim 0 Address.row

def columnCount : Nat :=
  sheet.corner.elim 0 Address.column

def size : Nat :=
  sheet.cells.size

def isEmpty : Bool :=
  sheet.cells.isEmpty

def find? (a : Address) : Option Formula :=
  sheet.cells[a]?

def covers (a : Address) : Bool :=
  a.row ≤ sheet.rowCount && a.column ≤ sheet.columnCount

def insert (a : Address) (f : Formula) : Sheet where
  cells := sheet.cells.insert a f
  corner := some (sheet.corner.elim a a.join)

def put (a : Address) (text : List Char) : Except ParseError Sheet :=
  (Formula.parse text).map (sheet.insert a)

theorem find?_insert (a b : Address) (f : Formula) :
    (sheet.insert a f).find? b = if a = b then some f else sheet.find? b := by
  simp [find?, insert, Std.TreeMap.getElem?_insert]

def rowAddresses (row : Nat) : List Address :=
  (List.range sheet.columnCount).filterMap fun i => Address.at? row (i + 1)

def addresses : List Address :=
  (List.range' 1 sheet.rowCount).flatMap sheet.rowAddresses

/-- The first `n` cells of the block, row by row. No others are looked at. -/
def firstAddresses (n : Nat) : List Address :=
  (List.range (min n (sheet.rowCount * sheet.columnCount))).filterMap fun i =>
    Address.at? (i / sheet.columnCount + 1) (i % sheet.columnCount + 1)

def putNamed (name text : List Char) : Except SheetError Sheet := do
  let a ← (Address.parse name).mapError .invalidAddress
  (sheet.put a text).mapError .malformed

end Sheet

end Spreadsheet
