import Spreadsheet.CommandLine.Failure
import Spreadsheet.FileTree
import Spreadsheet.Settings.Load

/-! A whole run: arguments, settings, input, rendering, and one write at the end.
Each stage can stop the run, and nothing is written before all the others are done. -/
namespace Spreadsheet

structure Surroundings where
  stdin : Except String ByteArray
  files : FileView
  user : UserDirectories := {}
  decode : SettingsFile.Decoder := SettingsFile.parse?

inductive Target
  | stdout
  | file (path : String)
deriving DecidableEq, Repr

def Target.write (tree : FileTree) (text : List Char) : Target → Except String FileTree
  | stdout => .ok tree
  | file path => tree.write path (String.ofList text).toUTF8

structure Outcome where
  exitCode : Nat
  stderr : List String
  written : Option (Target × List Char) := none

namespace Outcome

def stdout (outcome : Outcome) : List Char :=
  match outcome.written with
  | some (.stdout, text) => text
  | _ => []

def file? (outcome : Outcome) : Option (String × List Char) :=
  match outcome.written with
  | some (.file path, text) => some (path, text)
  | _ => none

end Outcome

/-- A rendered text that only has to be written, and the lines reported so far. -/
structure Pending where
  target : Target
  text : List Char
  stderr : List String
  threshold : Log.Threshold

inductive Stage
  | finished (outcome : Outcome)
  | writing (pending : Pending)

namespace Failure

def outcome (failure : Failure) (stderr : List String) : Outcome where
  exitCode := failure.exitCode
  stderr := stderr ++ [failure.line]

end Failure

namespace Pending

def conclude (pending : Pending) (answer : Except String Unit) : Outcome :=
  match answer, pending.target with
  | .ok _, .stdout => ⟨0, pending.stderr, some (pending.target, pending.text)⟩
  | .ok _, .file path =>
    let wrote := Log.lines pending.threshold [⟨.info, "cassava", s!"wrote {path}"⟩]
    ⟨0, pending.stderr ++ wrote, some (pending.target, pending.text)⟩
  | .error reason, .stdout => (Failure.document (.io reason)).outcome pending.stderr
  | .error reason, .file path =>
    (Failure.inContext s!"Cannot write {path}" (.io reason)).outcome pending.stderr

end Pending

namespace Run

def input (surroundings : Surroundings) (name : String) : Document.Loading :=
  if name = "-" then
    match surroundings.stdin with
    | .ok bytes => Document.ofBytes bytes
    | .error reason => ⟨.error (.io reason), []⟩
  else Document.load surroundings.files name

/-- The settings file of a run and its warning. Without settings files none is looked for, but one
that is given is used all the same. -/
def settingsFile (surroundings : Surroundings) (options : Options) :
    SettingsFile × Option SettingsWarning :=
  if options.noConfig ∧ options.config.isNone then ({}, none)
  else SettingsFile.load surroundings.decode surroundings.files surroundings.user options.config

def settings (surroundings : Surroundings) (options : Options) : Settings :=
  .resolve (settingsFile surroundings options).1 options.precision options.policy

private def target (options : Options) : Target :=
  options.output.elim .stdout .file

private def settingsLog (surroundings : Surroundings) (options : Options) : List Log.Entry :=
  (settingsFile surroundings options).2.toList.map (⟨.warn, "cassava", ·.message⟩) ++
    [(settings surroundings options).entry]

/-- The reads are reported only where they are shown, since reporting repeats them. -/
private def renderLog (threshold : Log.Threshold) (settings : Settings) (sheet : Sheet) :
    List Log.Entry :=
  ⟨.info, "cassava", s!"loaded {sheet.rowCount} rows x {sheet.columnCount} columns"⟩ ::
    if threshold.admits .debug then sheet.renderLog settings.policy settings.precision else []

def render (surroundings : Surroundings) (name : String) (options : Options) : Stage :=
  let threshold := Log.Threshold.ofVerbosity options.verbosity
  let settings := settings surroundings options
  let loading := input surroundings name
  let log := settingsLog surroundings options ++ loading.log
  match loading.result with
  | .error e => .finished ((Failure.document e).outcome (Log.lines threshold log))
  | .ok document =>
    let sheet := document.sheet
    let log := log ++ renderLog threshold settings sheet
    match sheet.render settings.policy settings.precision with
    | .error e => .finished ((Failure.document (.print e)).outcome (Log.lines threshold log))
    | .ok text =>
      let log := match options.output with
        | none => log ++ [sheet.printEntry settings.policy settings.precision]
        | some _ => log
      .writing ⟨target options, text, Log.lines threshold log, threshold⟩

def start (surroundings : Surroundings) (arguments : List String) : Stage :=
  match Command.parse arguments with
  | .error e =>
    let failure := Failure.usage e
    .finished ⟨failure.exitCode, failure.line :: usage, none⟩
  | .ok .help => .finished ⟨0, usage, none⟩
  | .ok (.run name options) => render surroundings name options

def run (surroundings : Surroundings) (write : Target → List Char → Except String Unit)
    (arguments : List String) : Outcome :=
  match start surroundings arguments with
  | .finished outcome => outcome
  | .writing pending => pending.conclude (write pending.target pending.text)

/-- A run whose files are in a tree, and the tree that it leaves. -/
def inTree (tree : FileTree) (surroundings : Surroundings) (arguments : List String) :
    Outcome × FileTree :=
  match start { surroundings with files := tree.view } arguments with
  | .finished outcome => (outcome, tree)
  | .writing pending =>
    let written := pending.target.write tree pending.text
    (pending.conclude (written.map fun _ => ()), written.toOption.getD tree)

theorem fst_inTree (tree : FileTree) (surroundings : Surroundings) (arguments : List String) :
    (inTree tree surroundings arguments).1 =
      run { surroundings with files := tree.view }
        (fun target text => (target.write tree text).map fun _ => ()) arguments := by
  unfold inTree run
  split <;> rfl

end Run

end Spreadsheet
