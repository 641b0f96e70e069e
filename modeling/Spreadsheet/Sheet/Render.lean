import Spreadsheet.Sheet.Read

namespace Spreadsheet

structure RenderError where
  address : Address
  cause : ReadError
deriving DecidableEq, Repr

namespace Sheet

variable (sheet : Sheet) (policy : Policy) (places : Nat)

def renderRow (row : Nat) : Except RenderError (List Char) := do
  let fields ← (sheet.rowAddresses row).mapM fun a =>
    (sheet.read policy places a).mapError (⟨a, ·⟩)
  return [','].intercalate fields ++ ['\n']

/-- The next `count` rows from row `row` on, after the rows that are done, the latest first. -/
def renderRows (done : List (List Char)) (row : Nat) :
    (count : Nat) → Except RenderError (List (List Char))
  | 0 => .ok done.reverse
  | count + 1 => do
    let line ← sheet.renderRow policy places row
    renderRows (line :: done) (row + 1) count

def render : Except RenderError (List Char) :=
  (sheet.renderRows policy places [] 1 sheet.rowCount).map List.flatten

/-- Goes on with these cells, behind the rows that are done and the fields that the current row has
so far. The last column ends a row. -/
def renderFrom (done : List Char) (fields : List (List Char)) :
    List Address → Except RenderError (List Char)
  | [] => .ok done
  | a :: rest => do
    let text ← (sheet.read policy places a).mapError (⟨a, ·⟩)
    let fields := fields ++ [text]
    if a.column = sheet.columnCount then
      renderFrom (done ++ ([','].intercalate fields ++ ['\n'])) [] rest
    else renderFrom done fields rest

/-- The same text in one pass over all cells, which `render` need not hold at once. -/
def renderInOnePass : Except RenderError (List Char) :=
  sheet.renderFrom policy places [] [] sheet.addresses

def renderLog : List Log.Entry :=
  let read := match sheet.render policy places with
    | .ok _ => sheet.rowCount * sheet.columnCount
    | .error e => (e.address.row - 1) * sheet.columnCount + e.address.column
  (sheet.firstAddresses read).flatMap sheet.readLog

end Sheet

end Spreadsheet
