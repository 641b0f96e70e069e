import Spreadsheet.Log
import Spreadsheet.Settings.Toml
import Spreadsheet.Sheet.Read

/-! Settings: flags over a settings file, the file over the defaults. -/
namespace Spreadsheet

structure SettingsFile where
  precision : Option Nat := none
  policy : Option Policy := none
deriving DecidableEq, Repr, Inhabited

namespace SettingsFile

def setPrecision (file : SettingsFile) (n : Int) : Option SettingsFile :=
  if file.precision.isNone ∧ 0 ≤ n then some { file with precision := some n.toNat } else none

def setPolicy (file : SettingsFile) (name : Toml.Key) : Option SettingsFile :=
  if file.policy.isNone then
    (Policy.ofName? (.ofList name)).map fun policy => { file with policy := some policy }
  else none

def addEntry (file : SettingsFile) : Toml.Statement → Option SettingsFile
  | .entry [key] value =>
    match String.ofList key, value with
    | "precision", .integer n => file.setPrecision n
    | "policy", .text name => file.setPolicy name
    | "policy", .choice name => file.setPolicy name
    | _, _ => none
  | .entry [key, name] .nothing => if key = "policy".toList then file.setPolicy name else none
  | _ => none

/-- The key that the tables of a document choose, where they hold nothing but the policy. -/
def tablePolicy? : List Toml.Statement → Option Toml.Key
  | [.table [table], .entry [name] .nothing] => if table = "policy".toList then some name else none
  | [.table [table, name]] => if table = "policy".toList then some name else none
  | [.table [table], .table [table', name]] =>
    if table = "policy".toList ∧ table' = table then some name else none
  | [.table [table', name], .table [table]] =>
    if table = "policy".toList ∧ table' = table then some name else none
  | _ => none

private def isEntry : Toml.Statement → Bool
  | .entry .. => true
  | .table .. => false

/-- What the statements of a document say, if they say settings and nothing else. -/
def ofStatements? (statements : List Toml.Statement) : Option SettingsFile := do
  let file ← (statements.takeWhile isEntry).foldlM addEntry {}
  match statements.dropWhile isEntry with
  | [] => some file
  | tables => (tablePolicy? tables).bind file.setPolicy

/-- The entries before the first table are added one by one, and the tables choose the policy. -/
theorem exists_of_ofStatements? {statements : List Toml.Statement} {file : SettingsFile}
    (h : ofStatements? statements = some file) :
    ∃ entries tables said, statements = entries ++ tables ∧
      entries.foldlM addEntry {} = some said ∧
      (tables = [] ∨ (tablePolicy? tables).bind said.setPolicy = some file) := by
  obtain ⟨said, hsaid, h⟩ := Option.bind_eq_some_iff.1 h
  refine ⟨_, _, said, List.takeWhile_append_dropWhile.symm, hsaid, ?_⟩
  split at h
  · next htables => exact .inl htables
  · exact .inr h

def parse? (text : List Char) : Option SettingsFile :=
  (Toml.document text).bind ofStatements?

end SettingsFile

structure Settings where
  precision : Nat := 2
  policy : Policy := .formatted
deriving DecidableEq, Repr

namespace Settings

def resolve (file : SettingsFile) (precision : Option Nat) (policy : Option Policy) : Settings where
  precision := (precision <|> file.precision).getD ({} : Settings).precision
  policy := (policy <|> file.policy).getD ({} : Settings).policy

def entry (settings : Settings) : Log.Entry :=
  ⟨.debug, "cassava::config", s!"resolved settings: Settings \x7b precision: {settings.precision}, policy: {settings.policy.title} \x7d"⟩

end Settings

end Spreadsheet
