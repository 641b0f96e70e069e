import Spreadsheet.Log
import Spreadsheet.Text.Blank

namespace Spreadsheet.Csv

def dropReturn (line : List Char) : List Char :=
  if line.getLast? = some '\r' then line.dropLast else line

/-- The lines of a text. A last line without a line end counts unless it is empty, and keeps a
carriage return. -/
def lines (text : List Char) : List (List Char) :=
  match _rest : text.dropWhile (· ≠ '\n') with
  | [] => if text.isEmpty then [] else [text]
  | _ :: rest => dropReturn (text.takeWhile (· ≠ '\n')) :: lines rest
termination_by text.length
decreasing_by
  have := (text.dropWhile_sublist (· ≠ '\n')).length_le
  simp only [_rest, List.length_cons] at this
  omega

/-- A field that is being read: its characters, the latest first, and whether it had a quote. -/
structure Field where
  reversed : List Char := []
  quoted : Bool := false

namespace Field

def push (field : Field) (c : Char) : Field :=
  { field with reversed := c :: field.reversed }

def finish (field : Field) : List Char :=
  if field.quoted then field.reversed.reverse else Text.trim field.reversed.reverse

end Field

/-- The fields of the rest of a line, where `inside` says whether a quote is open. An open quote
hides commas, and in it a doubled quote stands for one. -/
def fieldsFrom (inside : Bool) (field : Field) : List Char → List (List Char)
  | [] => [field.finish]
  | '"' :: rest =>
    if inside then
      match rest with
      | '"' :: rest => fieldsFrom true (field.push '"') rest
      | rest => fieldsFrom false field rest
    else fieldsFrom true { field with quoted := true } rest
  | c :: rest =>
    if c = ',' ∧ !inside then field.finish :: fieldsFrom false {} rest
    else fieldsFrom inside (field.push c) rest

def fields (line : List Char) : List (List Char) :=
  fieldsFrom false {} line

def rows (text : List Char) : List (List (List Char)) :=
  (lines text).map fields

def readEntry (count : Nat) : Log.Entry :=
  ⟨.debug, "cassava_core::storage::csv", s!"read {count} csv rows"⟩

end Spreadsheet.Csv
