namespace Spreadsheet.Log

inductive Level
  | error
  | warn
  | info
  | debug
  | trace
deriving DecidableEq, Repr

namespace Level

def name : Level → String
  | error => "ERROR"
  | warn => "WARN"
  | info => "INFO"
  | debug => "DEBUG"
  | trace => "TRACE"

def rank : Level → Nat
  | error => 1
  | warn => 2
  | info => 3
  | debug => 4
  | trace => 5

end Level

/-- The least urgent level that is shown. With none, nothing is. -/
abbrev Threshold := Option Level

namespace Threshold

def ofVerbosity (verbosity : Int) : Threshold :=
  if verbosity < 0 then none
  else if verbosity = 0 then some .warn
  else if verbosity = 1 then some .info
  else if verbosity = 2 then some .debug
  else some .trace

def admits (t : Threshold) (level : Level) : Bool :=
  t.any (level.rank ≤ ·.rank)

end Threshold

structure Entry where
  level : Level
  source : String
  message : String
deriving DecidableEq, Repr

def Entry.line (e : Entry) : String :=
  s!"[{e.level.name} {e.source}] {e.message}"

def lines (t : Threshold) (entries : List Entry) : List String :=
  (entries.filter (t.admits ·.level)).map Entry.line

end Spreadsheet.Log
