import Spreadsheet.Document
import Spreadsheet.Settings

namespace Spreadsheet

structure UserDirectories where
  home : Option String := none
  config : Option String := none

def joinPath (directory name : String) : String :=
  if directory.endsWith "/" then directory ++ name else directory ++ "/" ++ name

/-- The user's settings file. The configuration directory has to be absolute, or the one in the home
directory is taken. A user without a home has none. -/
def UserDirectories.settingsPath? (user : UserDirectories) : Option String := do
  let home ← user.home.filter (· ≠ "")
  let config := (user.config.filter (·.startsWith "/")).getD (joinPath home ".config")
  return joinPath (joinPath config "cassava") "config.toml"

inductive SettingsWarning
  | notFound (path : String)
  | notParsed (path : String)
  | notRead (path reason : String)
deriving DecidableEq, Repr

def SettingsWarning.message : SettingsWarning → String
  | notFound path => s!"Config file not found: {path}"
  | notParsed path => s!"Failed to parse {path}"
  | notRead path reason => s!"Failed to read {path}: {reason}"

namespace SettingsFile

/-- What reads the text of a settings file, as a whole or not at all. -/
abbrev Decoder := List Char → Option SettingsFile

variable (decode : Decoder)

def ofEntry (path : String) (entry : FileEntry) : Except SettingsWarning SettingsFile := do
  let bytes ← entry.content.mapError (.notRead path ·.reason)
  let text ← match String.fromUTF8? bytes with
    | some text => pure text
    | none => throw (.notRead path "stream did not contain valid UTF-8")
  match decode text.toList with
  | some file => pure file
  | none => throw (.notParsed path)

/-- What the file given explicitly says, or else the user's own, with at most one warning. The user's
own file may be missing without one. -/
def load (files : FileView) (user : UserDirectories) (explicit : Option String) :
    SettingsFile × Option SettingsWarning :=
  match explicit <|> user.settingsPath? with
  | none => ({}, none)
  | some path =>
    match files path with
    | none => ({}, if explicit.isSome then some (.notFound path) else none)
    | some entry =>
      match ofEntry decode path entry with
      | .ok file => (file, none)
      | .error warning => ({}, some warning)

end SettingsFile

end Spreadsheet
