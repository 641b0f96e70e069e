import Spreadsheet.CommandLine.Run

namespace Spreadsheet

def reason : IO.Error → String
  | .noFileOrDirectory _ code details => s!"{details} (os error {code})"
  | .permissionDenied _ code details => s!"{details} (os error {code})"
  | .inappropriateType _ code details => s!"{details} (os error {code})"
  | .invalidArgument _ code details => s!"{details} (os error {code})"
  | .resourceExhausted _ code details => s!"{details} (os error {code})"
  | e => toString e

def directoryCode : UInt32 := 21

/-- What stands at a path. A path that is too long, or goes through something that is no directory,
leads nowhere. A directory is no regular file, and anything else that is there is taken for one. -/
def inspect (path : String) : IO (Option FileEntry) := do
  try
    let bytes ← IO.FS.readBinFile path
    return some ⟨true, .ok bytes⟩
  catch e =>
    match e with
    | .noFileOrDirectory .. | .invalidArgument .. => return none
    | .permissionDenied .. => return some ⟨true, .error ⟨true, reason e⟩⟩
    | .inappropriateType _ code _ =>
      return if code = directoryCode then some ⟨false, .error ⟨false, reason e⟩⟩ else none
    | _ => return some ⟨true, .error ⟨false, reason e⟩⟩

def survey (user : UserDirectories) (arguments : List String) : IO Surroundings := do
  match Command.parse arguments with
  | .ok (.run name options) =>
    let readsStdin := name == "-"
    let paths := (if readsStdin then [] else [name]) ++
      (options.config <|> user.settingsPath?).toList
    let entries ← paths.mapM fun path => return (path, ← inspect path)
    let stdin ←
      if readsStdin then
        try .ok <$> (← IO.getStdin).readBinToEnd catch e => pure (.error (reason e))
      else pure (.ok .empty)
    return { stdin, user, files := fun path => (entries.lookup path).join }
  | _ => return { stdin := .ok .empty, files := fun _ => none }

def attempt (write : IO Unit) : IO (Except String Unit) := do
  try write; return .ok () catch e => return .error (reason e)

def deliver (pending : Pending) : IO (Except String Unit) :=
  let text := String.ofList pending.text
  match pending.target with
  | .stdout => attempt do
    let stdout ← IO.getStdout
    stdout.putStr text
    stdout.flush
  | .file path => attempt (IO.FS.writeFile path text)

end Spreadsheet

open Spreadsheet in
def main (arguments : List String) : IO UInt32 := do
  let user := { home := ← IO.getEnv "HOME", config := ← IO.getEnv "XDG_CONFIG_HOME" }
  let outcome ← match Run.start (← survey user arguments) arguments with
    | .finished outcome => pure outcome
    | .writing pending => pending.conclude <$> deliver pending
  for line in outcome.stderr do
    IO.eprintln line
  return outcome.exitCode.toUInt32
