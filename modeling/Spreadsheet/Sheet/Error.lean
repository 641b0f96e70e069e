import Spreadsheet.Expr.Parser

namespace Spreadsheet

inductive ReadError
  | blank
  | selfReference (a : Address)
  | outOfRange (a : Address)
  /-- The chain holds every cell entered before, row by row. -/
  | circular (a : Address) (chain : List Address)
deriving DecidableEq, Repr

def ReadError.message : ReadError → String
  | blank => "Blank cells cannot be evaluated. Bad reference?"
  | selfReference a => s!"Self referring cell address: {a}"
  | outOfRange a => s!"Address {a} is outside of the spreadsheet"
  | circular a chain =>
    let names := " ".intercalate (chain.map Address.name)
    s!"Address {a} has a circular reference. Reference chain is [{names}]"

inductive SheetError
  | invalidAddress (e : InvalidAddress)
  | malformed (e : ParseError)
  | tooManyColumns (found : Nat)
  | unevenRow (row expected found : Nat)
deriving DecidableEq, Repr

def SheetError.message : SheetError → String
  | invalidAddress e => e.message
  | malformed e => e.message
  | tooManyColumns found =>
    s!"No more than 26 columns allowed (cells are named 'A' to 'Z'), found {found}"
  | unevenRow row expected found =>
    s!"Inconsistent number of columns in row {row}: {expected} expected, found {found}"

end Spreadsheet
