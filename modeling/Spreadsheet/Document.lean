import Spreadsheet.Csv
import Spreadsheet.Sheet.Render
import Spreadsheet.Sheet.Rows

namespace Spreadsheet

inductive DocumentError
  | io (reason : String)
  | notFound (path : String)
  | notReadable (path : String)
  | load (cause : SheetError)
  | print (e : RenderError)
deriving DecidableEq, Repr

namespace DocumentError

def message : DocumentError → String
  | io reason => s!"IO error: {reason}"
  | notFound path => s!"File not found - {path}"
  | notReadable path => s!"File not readable - {path}"
  | load _ => "Cannot load spreadsheet"
  | print e => s!"Cannot print cells that cannot be evaluated correctly ({e.address})"

def cause? : DocumentError → Option String
  | io reason => some reason
  | notFound _ => none
  | notReadable _ => none
  | load cause => some cause.message
  | print e => some e.cause.message

end DocumentError

structure ReadFailure where
  denied : Bool
  reason : String
deriving DecidableEq, Repr

structure FileEntry where
  regular : Bool
  content : Except ReadFailure ByteArray

abbrev FileView := String → Option FileEntry

namespace Csv

def decodeRows (bytes : ByteArray) : Except DocumentError (List (List (List Char))) :=
  match String.fromUTF8? bytes with
  | some text => .ok (rows text.toList)
  | none => .error (.io "stream did not contain valid UTF-8")

end Csv

structure Document where
  sheet : Sheet := ∅
  path? : Option String := none

namespace Document

/-- Loading, with what it reports up to its end, be it a failure or not. -/
structure Loading where
  result : Except DocumentError Document
  log : List Log.Entry

def ofBytes (bytes : ByteArray) : Loading :=
  match Csv.decodeRows bytes with
  | .error e => ⟨.error e, []⟩
  | .ok rows =>
    let read := Csv.readEntry rows.length
    match Sheet.ofRows rows with
    | .error e => ⟨.error (.load e), [read]⟩
    | .ok sheet => ⟨.ok { sheet }, [read, sheet.loadedEntry]⟩

def readFile (files : FileView) (path : String) : Except DocumentError ByteArray :=
  match files path with
  | none => .error (.notFound path)
  | some entry =>
    if entry.regular then
      entry.content.mapError fun failure =>
        if failure.denied then .notReadable path else .io failure.reason
    else .error (.notReadable path)

def load (files : FileView) (path : String) : Loading :=
  match readFile files path with
  | .error e => ⟨.error e, []⟩
  | .ok bytes =>
    let loading := ofBytes bytes
    match loading.result with
    | .error e => ⟨.error e, loading.log⟩
    | .ok document =>
      ⟨.ok { document with path? := path },
        loading.log ++ [⟨.debug, "cassava_core::document::io", s!"opened {path}"⟩]⟩

end Document

structure Printing where
  result : Except DocumentError Unit
  sent : Option (List Char)

namespace Sheet

/-- Prints a sheet to a sink, which accepts a text or gives the reason why not. A sheet that
cannot be rendered sends nothing. -/
def print (sheet : Sheet) (sink : List Char → Except String Unit) (policy : Policy)
    (places : Nat) : Printing :=
  match sheet.render policy places with
  | .error e => ⟨.error (.print e), none⟩
  | .ok text => ⟨(sink text).mapError .io, some text⟩

def printEntry (sheet : Sheet) (policy : Policy) (places : Nat) : Log.Entry :=
  ⟨.debug, "cassava_core::storage::writer",
    s!"writing {sheet.rowCount} rows ({policy.title}, {places} decimals)"⟩

end Sheet

end Spreadsheet
