import Spreadsheet.CommandLine.Run
import Spreadsheet.Proofs.Sheet.Render

/-! Runs, phase by phase. The first phase that a run does not complete decides its exit code, and
nothing is written unless all phases before the write are complete. -/
namespace Spreadsheet

/-- Bytes make a sheet in two steps: they are text, and the rows of the text make a sheet. -/
theorem Document.map_sheet_ofBytes (bytes : ByteArray) :
    (Document.ofBytes bytes).result.map Document.sheet =
      (Csv.decodeRows bytes).bind fun rows => (Sheet.ofRows rows).mapError .load := by
  rw [Document.ofBytes]
  cases Csv.decodeRows bytes with
  | error e => rfl
  | ok rows =>
    dsimp only [Except.bind]
    cases Sheet.ofRows rows <;> rfl

theorem Document.map_sheet_load (files : FileView) (path : String) :
    (Document.load files path).result.map Document.sheet =
      (Document.readFile files path).bind fun bytes =>
        (Document.ofBytes bytes).result.map Document.sheet := by
  rw [Document.load]
  cases Document.readFile files path with
  | error e => rfl
  | ok bytes =>
    dsimp only [Except.bind]
    cases (Document.ofBytes bytes).result <;> rfl

namespace Run

inductive Phase
  | arguments
  | location
  | reading
  | construction
  | evaluation
  | writing
deriving DecidableEq, Repr

namespace Phase

def all : List Phase :=
  [arguments, location, reading, construction, evaluation, writing]

def exitCode : Phase → Nat
  | arguments => 1
  | location => 1
  | reading => 2
  | construction => 3
  | evaluation => 4
  | writing => 2

end Phase

variable (surroundings : Surroundings)

/-- The input may be read: it is the standard input, or a regular file that is there and whose
reading is not denied. -/
def Permitted (name : String) : Prop :=
  name = "-" ∨ ∃ entry, surroundings.files name = some entry ∧ entry.regular = true ∧
    ∀ failure, entry.content = .error failure → failure.denied = false

def HasText (name : String) (text : String) : Prop :=
  ∃ bytes, String.fromUTF8? bytes = some text ∧
    (name = "-" ∧ surroundings.stdin = .ok bytes ∨
      name ≠ "-" ∧ surroundings.files name = some ⟨true, .ok bytes⟩)

def Loads (name : String) (sheet : Sheet) : Prop :=
  ∃ text, HasText surroundings name text ∧ Sheet.ofRows (Csv.rows text.toList) = .ok sheet

/-- The text that a run has to write and where to: its sheet, rendered under its settings. -/
def Prints (arguments : List String) (target : Target) (text : List Char) : Prop :=
  ∃ name options sheet, Command.parse arguments = .ok (.run name options) ∧
    Loads surroundings name sheet ∧
    sheet.render (settings surroundings options).policy (settings surroundings options).precision =
      .ok text ∧
    target = options.output.elim .stdout .file

/-- A run with these arguments gets past a phase, where `write` answers its write. -/
def Completes (write : Target → List Char → Except String Unit) (arguments : List String) :
    Phase → Prop
  | .arguments => ∃ name options, Command.parse arguments = .ok (.run name options)
  | .location => ∃ name options, Command.parse arguments = .ok (.run name options) ∧
      Permitted surroundings name
  | .reading => ∃ name options text, Command.parse arguments = .ok (.run name options) ∧
      HasText surroundings name text
  | .construction => ∃ name options sheet, Command.parse arguments = .ok (.run name options) ∧
      Loads surroundings name sheet
  | .evaluation => ∃ name options sheet, Command.parse arguments = .ok (.run name options) ∧
      Loads surroundings name sheet ∧ ∀ a, sheet.covers a = true → ∃ text,
        sheet.read (settings surroundings options).policy
          (settings surroundings options).precision a = .ok text
  | .writing => ∃ target text, Prints surroundings arguments target text ∧
      write target text = .ok ()

open Classical in
noncomputable def firstIncomplete? (write : Target → List Char → Except String Unit)
    (arguments : List String) : Option Phase :=
  Phase.all.find? (¬ Completes surroundings write arguments ·)

def bytes (name : String) : Except DocumentError ByteArray :=
  if name = "-" then surroundings.stdin.mapError .io
  else Document.readFile surroundings.files name

variable {surroundings} {write : Target → List Char → Except String Unit}
  {arguments : List String} {name : String}

/-! ### The input -/

theorem bytes_eq_ok_iff {content : ByteArray} :
    bytes surroundings name = .ok content ↔
      name = "-" ∧ surroundings.stdin = .ok content ∨
        name ≠ "-" ∧ surroundings.files name = some ⟨true, .ok content⟩ := by
  by_cases hname : name = "-"
  · simp [bytes, hname, mapError_eq_ok_iff]
  · simp only [bytes, Document.readFile, hname, false_and, false_or, ne_eq,
      not_false_eq_true, true_and]
    rcases surroundings.files name with _ | ⟨_ | _, read⟩ <;> simp [mapError_eq_ok_iff]

theorem bytes_eq_error {e : DocumentError} (h : bytes surroundings name = .error e) :
    ¬ Permitted surroundings name ∧ (Failure.document e).exitCode = 1 ∨
      Permitted surroundings name ∧ ∃ reason, e = .io reason := by
  by_cases hname : name = "-"
  · have hio : ∃ reason, e = .io reason := by
      rw [bytes, if_pos hname] at h
      cases hstdin : surroundings.stdin with
      | error reason => exact ⟨reason, by simpa [hstdin, Except.mapError] using h.symm⟩
      | ok content => simp [hstdin, Except.mapError] at h
    exact .inr ⟨.inl hname, hio⟩
  · rw [bytes, if_neg hname, Document.readFile] at h
    simp only [Permitted, hname, false_or]
    generalize surroundings.files name = entry? at h
    rcases entry? with _ | ⟨_ | _, read⟩
    · obtain rfl := Except.error.inj h
      exact .inl ⟨by simp, rfl⟩
    · obtain rfl := Except.error.inj h
      exact .inl ⟨by simp, rfl⟩
    · rcases read with ⟨_ | _, reason⟩ | content
      · obtain rfl := Except.error.inj h
        exact .inr ⟨by simp, reason, rfl⟩
      · obtain rfl := Except.error.inj h
        exact .inl ⟨by simp, rfl⟩
      · contradiction

theorem hasText_iff {text : String} :
    HasText surroundings name text ↔
      ∃ content, bytes surroundings name = .ok content ∧ String.fromUTF8? content = some text := by
  simp only [HasText, bytes_eq_ok_iff, and_comm]

theorem permitted_of_bytes {content : ByteArray} (h : bytes surroundings name = .ok content) :
    Permitted surroundings name :=
  (bytes_eq_ok_iff.1 h).imp And.left fun ⟨_, hfile⟩ => ⟨_, hfile, rfl, fun _ h => nomatch h⟩

theorem HasText.unique {text text' : String} (h : HasText surroundings name text)
    (h' : HasText surroundings name text') : text = text' := by
  obtain ⟨content, hbytes, htext⟩ := hasText_iff.1 h
  obtain ⟨content', hbytes', htext'⟩ := hasText_iff.1 h'
  cases hbytes.symm.trans hbytes'
  exact Option.some.inj (htext.symm.trans htext')

theorem Loads.unique {sheet sheet' : Sheet} (h : Loads surroundings name sheet)
    (h' : Loads surroundings name sheet') : sheet = sheet' := by
  obtain ⟨text, htext, hrows⟩ := h
  obtain ⟨text', htext', hrows'⟩ := h'
  cases htext.unique htext'
  exact Except.ok.inj (hrows.symm.trans hrows')

theorem Prints.unique {target target' : Target} {text text' : List Char}
    (h : Prints surroundings arguments target text)
    (h' : Prints surroundings arguments target' text') : target = target' ∧ text = text' := by
  obtain ⟨name, options, sheet, hparse, hsheet, hrender, htarget⟩ := h
  obtain ⟨name', options', sheet', hparse', hsheet', hrender', htarget'⟩ := h'
  cases hparse.symm.trans hparse'
  cases hsheet.unique hsheet'
  exact ⟨htarget.trans htarget'.symm, Except.ok.inj (hrender.symm.trans hrender')⟩

theorem map_sheet_input (surroundings : Surroundings) (name : String) :
    (input surroundings name).result.map Document.sheet =
      (bytes surroundings name).bind fun content =>
        (Document.ofBytes content).result.map Document.sheet := by
  rw [input, bytes]
  split
  · cases surroundings.stdin <;> rfl
  · exact Document.map_sheet_load surroundings.files name

theorem input_cases (surroundings : Surroundings) (name : String) :
    (∃ e, (input surroundings name).result = .error e ∧ (Failure.document e).exitCode = 1 ∧
      ¬ Permitted surroundings name) ∨
    (∃ reason, (input surroundings name).result = .error (.io reason) ∧
      Permitted surroundings name ∧ ¬ ∃ text, HasText surroundings name text) ∨
    (∃ cause, (input surroundings name).result = .error (.load cause) ∧
      (∃ text, HasText surroundings name text) ∧ ¬ ∃ sheet, Loads surroundings name sheet) ∨
    ∃ document, (input surroundings name).result = .ok document ∧
      Loads surroundings name document.sheet := by
  -- the document differs from its sheet in its path only, so the sheet says how reading went
  have hinput := map_sheet_input surroundings name
  cases hbytes : bytes surroundings name with
  | error e =>
    rw [hbytes] at hinput
    have hresult := map_eq_error_iff.1 hinput
    rcases bytes_eq_error hbytes with ⟨hpermitted, hcode⟩ | ⟨hpermitted, reason, rfl⟩
    · exact .inl ⟨e, hresult, hcode, hpermitted⟩
    · refine .inr (.inl ⟨reason, hresult, hpermitted, ?_⟩)
      rintro ⟨text, htext⟩
      obtain ⟨content, hcontent, -⟩ := hasText_iff.1 htext
      rw [hbytes] at hcontent
      contradiction
  | ok content =>
    have htext (text : String) :
        HasText surroundings name text ↔ String.fromUTF8? content = some text := by
      simp [hasText_iff, hbytes]
    rw [hbytes] at hinput
    simp only [Except.bind, Document.map_sheet_ofBytes, Csv.decodeRows] at hinput
    cases hdecode : String.fromUTF8? content with
    | none =>
      rw [hdecode] at hinput
      refine .inr (.inl ⟨_, map_eq_error_iff.1 hinput, permitted_of_bytes hbytes, ?_⟩)
      simp [htext, hdecode]
    | some text =>
      have hloads (sheet : Sheet) :
          Loads surroundings name sheet ↔ Sheet.ofRows (Csv.rows text.toList) = .ok sheet := by
        simp [Loads, htext, hdecode]
      rw [hdecode] at hinput
      dsimp only at hinput
      cases hrows : Sheet.ofRows (Csv.rows text.toList) with
      | error cause =>
        rw [hrows] at hinput
        refine .inr (.inr (.inl ⟨cause, map_eq_error_iff.1 hinput, ⟨text, ?_⟩, ?_⟩))
        · exact (htext text).2 hdecode
        · simp [hloads, hrows]
      | ok sheet =>
        rw [hrows] at hinput
        obtain ⟨document, hresult, rfl⟩ := map_eq_ok_iff.1 hinput
        exact .inr (.inr (.inr ⟨document, hresult, (hloads _).2 hrows⟩))

/-! ### The order of the phases -/

theorem Prints.evaluation {target : Target} {text : List Char}
    (h : Prints surroundings arguments target text) :
    Completes surroundings write arguments .evaluation :=
  let ⟨name, options, sheet, hparse, hsheet, hrender, _⟩ := h
  ⟨name, options, sheet, hparse, hsheet, Sheet.exists_render_eq_ok_iff.1 ⟨text, hrender⟩⟩

namespace Completes

theorem toArguments (h : Completes surroundings write arguments .location) :
    Completes surroundings write arguments .arguments :=
  let ⟨name, options, hparse, _⟩ := h
  ⟨name, options, hparse⟩

theorem toLocation (h : Completes surroundings write arguments .reading) :
    Completes surroundings write arguments .location := by
  obtain ⟨name, options, text, hparse, htext⟩ := h
  obtain ⟨content, hbytes, -⟩ := hasText_iff.1 htext
  exact ⟨name, options, hparse, permitted_of_bytes hbytes⟩

theorem toReading (h : Completes surroundings write arguments .construction) :
    Completes surroundings write arguments .reading :=
  let ⟨name, options, _, hparse, text, htext, _⟩ := h
  ⟨name, options, text, hparse, htext⟩

theorem toConstruction (h : Completes surroundings write arguments .evaluation) :
    Completes surroundings write arguments .construction :=
  let ⟨name, options, sheet, hparse, hsheet, _⟩ := h
  ⟨name, options, sheet, hparse, hsheet⟩

theorem toEvaluation (h : Completes surroundings write arguments .writing) :
    Completes surroundings write arguments .evaluation :=
  let ⟨_, _, hprints, _⟩ := h
  hprints.evaluation

theorem pairwise (surroundings : Surroundings)
    (write : Target → List Char → Except String Unit) (arguments : List String) :
    Phase.all.Pairwise fun earlier later =>
      Completes surroundings write arguments later →
        Completes surroundings write arguments earlier := by
  let Reaches (earlier later : Phase) : Prop :=
    Completes surroundings write arguments later → Completes surroundings write arguments earlier
  have : Trans Reaches Reaches Reaches := ⟨fun h h' hlater => h (h' hlater)⟩
  refine List.IsChain.pairwise (R := Reaches) ?_
  simp only [Phase.all, List.isChain_cons_cons, List.IsChain.singleton, and_true]
  exact ⟨toArguments, toLocation, toReading, toConstruction, toEvaluation⟩

/-- A run that gets past a phase got past all before it. -/
theorem of_mem {before after : List Phase} {later earlier : Phase}
    (h : Completes surroundings write arguments later)
    (hall : Phase.all = before ++ later :: after) (hmem : earlier ∈ before) :
    Completes surroundings write arguments earlier := by
  have hpairwise := pairwise surroundings write arguments
  rw [hall, List.pairwise_append] at hpairwise
  exact hpairwise.2.2 earlier hmem later List.mem_cons_self h

theorem of_evaluation {phase : Phase} (h : Completes surroundings write arguments .evaluation)
    (hphase : phase ≠ .writing) : Completes surroundings write arguments phase := by
  cases phase with
  | writing => contradiction
  | evaluation => exact h
  | construction => exact h.toConstruction
  | reading => exact h.toConstruction.toReading
  | location => exact h.toConstruction.toReading.toLocation
  | arguments => exact h.toConstruction.toReading.toLocation.toArguments

end Completes

theorem firstIncomplete?_eq_some (before : List Phase) (last : Phase) {phase : Phase}
    {after : List Phase} (hall : Phase.all = before ++ last :: phase :: after)
    (hlast : Completes surroundings write arguments last)
    (h : ¬ Completes surroundings write arguments phase) :
    firstIncomplete? surroundings write arguments = some phase := by
  rw [firstIncomplete?, List.find?_eq_some_iff_append]
  refine ⟨by simpa using h, before ++ [last], after, by simp [hall], fun earlier hmem => ?_⟩
  have hearlier : Completes surroundings write arguments earlier := by
    rcases List.mem_append.1 hmem with hmem | hmem
    · exact hlast.of_mem hall hmem
    · exact List.mem_singleton.1 hmem ▸ hlast
  simpa using hearlier

theorem firstIncomplete?_eq_none (h : Completes surroundings write arguments .writing) :
    firstIncomplete? surroundings write arguments = none := by
  rw [firstIncomplete?, List.find?_eq_none]
  intro phase hmem
  have hall : Phase.all = Phase.all.dropLast ++ [.writing] := rfl
  have hphase : Completes surroundings write arguments phase := by
    rcases List.mem_append.1 (hall ▸ hmem) with hmem | hmem
    · exact h.of_mem hall hmem
    · exact List.mem_singleton.1 hmem ▸ h
  simpa using hphase

/-! ### The run -/

/-- A run ends like this when it does not get past a phase before its write. -/
structure StopsAt (surroundings : Surroundings)
    (write : Target → List Char → Except String Unit) (arguments : List String) (phase : Phase)
    (outcome : Outcome) : Prop where
  first : firstIncomplete? surroundings write arguments = some phase
  exitCode : outcome.exitCode = phase.exitCode
  written : outcome.written = none

theorem render_cases {options : Options}
    (hparse : Command.parse arguments = .ok (.run name options)) :
    (∃ outcome phase, render surroundings name options = .finished outcome ∧
      StopsAt surroundings write arguments phase outcome) ∨
    ∃ pending, render surroundings name options = .writing pending ∧
      Prints surroundings arguments pending.target pending.text := by
  rcases input_cases surroundings name with ⟨e, hresult, hcode, hpermitted⟩ |
    ⟨reason, hresult, hpermitted, htext⟩ | ⟨cause, hresult, ⟨text, htext⟩, hloads⟩ |
    ⟨document, hresult, hsheet⟩
  · refine .inl ⟨_, .location, by rw [render, hresult], ?_, hcode, rfl⟩
    exact firstIncomplete?_eq_some [] .arguments rfl ⟨name, options, hparse⟩
      (by simpa [Completes, hparse] using hpermitted)
  · refine .inl ⟨_, .reading, by rw [render, hresult], ?_, rfl, rfl⟩
    exact firstIncomplete?_eq_some [.arguments] .location rfl ⟨name, options, hparse, hpermitted⟩
      (by simpa [Completes, hparse] using htext)
  · refine .inl ⟨_, .construction, by rw [render, hresult], ?_, rfl, rfl⟩
    exact firstIncomplete?_eq_some [.arguments, .location] .reading rfl
      ⟨name, options, text, hparse, htext⟩ (by simpa [Completes, hparse] using hloads)
  · rw [render, hresult]
    dsimp only
    cases hrender : document.sheet.render (settings surroundings options).policy
        (settings surroundings options).precision with
    | error e =>
      refine .inl ⟨_, .evaluation, rfl, ?_, rfl, rfl⟩
      refine firstIncomplete?_eq_some [.arguments, .location, .reading] .construction rfl
        ⟨name, options, _, hparse, hsheet⟩ ?_
      rintro ⟨name', options', sheet, hparse', hsheet', hreads⟩
      cases hparse.symm.trans hparse'
      cases hsheet.unique hsheet'
      obtain ⟨rendered, hrendered⟩ := Sheet.exists_render_eq_ok_iff.2 hreads
      rw [hrender] at hrendered
      contradiction
    | ok text => exact .inr ⟨_, rfl, name, options, document.sheet, hparse, hsheet, hrender, rfl⟩

theorem start_cases (surroundings : Surroundings)
    (write : Target → List Char → Except String Unit) (h : Command.parse arguments ≠ .ok .help) :
    (∃ outcome phase, start surroundings arguments = .finished outcome ∧
      StopsAt surroundings write arguments phase outcome) ∨
    ∃ pending, start surroundings arguments = .writing pending ∧
      Prints surroundings arguments pending.target pending.text := by
  rw [start]
  cases hparse : Command.parse arguments with
  | error e =>
    refine .inl ⟨_, .arguments, rfl, ?_, rfl, rfl⟩
    simp [firstIncomplete?, Phase.all, Completes, hparse]
  | ok command =>
    cases command with
    | help => contradiction
    | run name options => exact render_cases hparse

structure Staged (surroundings : Surroundings)
    (write : Target → List Char → Except String Unit) (arguments : List String)
    (outcome : Outcome) : Prop where
  exitCode : outcome.exitCode =
    (firstIncomplete? surroundings write arguments).elim 0 Phase.exitCode
  nothing : ∀ phase, phase ≠ .writing → ¬ Completes surroundings write arguments phase →
    outcome.stdout = [] ∧ outcome.file? = none
  written : outcome.exitCode = 0 → ∃ target text, Prints surroundings arguments target text ∧
    outcome.written = some (target, text)

theorem StopsAt.staged {phase : Phase} {outcome : Outcome}
    (h : StopsAt surroundings write arguments phase outcome) :
    Staged surroundings write arguments outcome where
  exitCode := by rw [h.first, h.exitCode]; rfl
  nothing _ _ _ := by simp [Outcome.stdout, Outcome.file?, h.written]
  written hzero := by
    have hcode := h.exitCode.symm.trans hzero
    cases phase <;> contradiction

end Run

theorem Pending.conclude_ok (pending : Pending) :
    (pending.conclude (.ok ())).exitCode = 0 ∧
      (pending.conclude (.ok ())).written = some (pending.target, pending.text) := by
  rcases pending with ⟨_ | path, text, stderr, threshold⟩ <;> exact ⟨rfl, rfl⟩

theorem Pending.conclude_error (pending : Pending) (reason : String) :
    (pending.conclude (.error reason)).exitCode = Run.Phase.writing.exitCode ∧
      (pending.conclude (.error reason)).written = none := by
  rcases pending with ⟨_ | path, text, stderr, threshold⟩ <;> exact ⟨rfl, rfl⟩

namespace Run

theorem Prints.staged {pending : Pending}
    (h : Prints surroundings arguments pending.target pending.text) :
    Staged surroundings write arguments
      (pending.conclude (write pending.target pending.text)) where
  exitCode := by
    cases hwrite : write pending.target pending.text with
    | error reason =>
      rw [(pending.conclude_error reason).1, firstIncomplete?_eq_some
        [.arguments, .location, .reading, .construction] .evaluation rfl h.evaluation]
      · rfl
      · rintro ⟨target, text, hprints, hok⟩
        obtain ⟨rfl, rfl⟩ := h.unique hprints
        rw [hwrite] at hok
        contradiction
    | ok =>
      -- the write is the last phase, and all before it are behind the run that comes to it
      rw [pending.conclude_ok.1,
        firstIncomplete?_eq_none ⟨pending.target, pending.text, h, hwrite⟩]
      rfl
  nothing phase hphase hno := absurd (h.evaluation.of_evaluation hphase) hno
  written hzero := by
    cases hwrite : write pending.target pending.text with
    | error reason =>
      rw [hwrite, (pending.conclude_error reason).1] at hzero
      contradiction
    | ok => exact ⟨pending.target, pending.text, h, pending.conclude_ok.2⟩

def answer (tree : FileTree) (target : Target) (text : List Char) : Except String Unit :=
  (target.write tree text).map fun _ => ()

def Holds (tree after : FileTree) (outcome : Outcome) (text : List Char) : Target → Prop
  | .stdout => outcome.stdout = text ∧ after = tree
  | .file path => outcome.stdout = [] ∧
      after.view path = some ⟨true, .ok (String.ofList text).toUTF8⟩

theorem holds_of_exitCode_eq_zero {tree : FileTree} {pending : Pending}
    (h : (pending.conclude (answer tree pending.target pending.text)).exitCode = 0) :
    Holds tree ((pending.target.write tree pending.text).toOption.getD tree)
      (pending.conclude (answer tree pending.target pending.text)) pending.text pending.target := by
  rcases pending with ⟨_ | path, text, stderr, threshold⟩
  · exact ⟨rfl, rfl⟩
  · simp only [answer, Target.write] at h ⊢
    cases hwrite : tree.write path (String.ofList text).toUTF8 with
    | error reason =>
      rw [hwrite] at h
      contradiction
    | ok after => exact ⟨rfl, (FileTree.view_of_write hwrite path).trans (if_pos rfl)⟩

structure StagedIn (surroundings : Surroundings) (arguments : List String)
    (tree : FileTree) (outcome : Outcome) (after : FileTree) : Prop where
  staged : Staged surroundings (answer tree) arguments outcome
  unchanged : ∀ phase, phase ≠ .writing →
    ¬ Completes surroundings (answer tree) arguments phase → after = tree
  holds : outcome.exitCode = 0 → ∃ target text, Prints surroundings arguments target text ∧
    Holds tree after outcome text target

theorem staged_run (surroundings : Surroundings)
    (write : Target → List Char → Except String Unit) (h : Command.parse arguments ≠ .ok .help) :
    Staged surroundings write arguments (run surroundings write arguments) := by
  rw [run]
  rcases start_cases surroundings write h with ⟨outcome, phase, hstart, hstops⟩ |
    ⟨pending, hstart, hprints⟩
  · rw [hstart]
    exact hstops.staged
  · rw [hstart]
    exact hprints.staged

/-- A run whose files are in a tree stops before it has changed anything, or comes to its write. -/
theorem inTree_staged (tree : FileTree) (hfiles : surroundings.files = tree.view)
    (h : Command.parse arguments ≠ .ok .help) :
    StagedIn surroundings arguments tree (inTree tree surroundings arguments).1
      (inTree tree surroundings arguments).2 := by
  obtain ⟨stdin, files, user, decode⟩ := surroundings
  obtain rfl : files = tree.view := hfiles
  -- as a run, it is one whose write the tree answers
  have hstaged : Staged ⟨stdin, tree.view, user, decode⟩ (answer tree) arguments
      (inTree tree ⟨stdin, tree.view, user, decode⟩ arguments).1 := by
    rw [fst_inTree]
    exact staged_run _ _ h
  rw [inTree] at hstaged ⊢
  dsimp only at hstaged ⊢
  rcases start_cases ⟨stdin, tree.view, user, decode⟩ (answer tree) h with
    ⟨outcome, phase, hstart, hstops⟩ | ⟨pending, hstart, hprints⟩
  · rw [hstart] at hstaged ⊢
    refine ⟨hstaged, fun _ _ _ => rfl, fun hzero => ?_⟩
    obtain ⟨target, text, -, hwritten⟩ := hstaged.written hzero
    rw [hstops.written] at hwritten
    contradiction
  · rw [hstart] at hstaged ⊢
    refine ⟨hstaged, fun phase hphase hno => ?_, fun hzero => ?_⟩
    · exact absurd (hprints.evaluation.of_evaluation hphase) hno
    · exact ⟨_, _, hprints, holds_of_exitCode_eq_zero hzero⟩

/-- A run goes through its phases in their order. The first that it does not get past decides its
exit code, and before the write nothing is printed and no file is changed. A run that gets past
all of them leaves its sheet, rendered under its settings, at its target. -/
theorem run_staged (surroundings : Surroundings) (write : Target → List Char → Except String Unit)
    (arguments : List String) (h : Command.parse arguments ≠ .ok .help) :
    Staged surroundings write arguments (run surroundings write arguments) ∧
      ∀ tree : FileTree, surroundings.files = tree.view → StagedIn surroundings arguments tree
        (inTree tree surroundings arguments).1 (inTree tree surroundings arguments).2 :=
  ⟨staged_run surroundings write h, fun tree hfiles => inTree_staged tree hfiles h⟩

/-- Input with a malformed cell before a byte that is not text. It is the reading that fails, and
the file that is there stays as it was. -/
theorem run_staged_bytes_after_malformed_cell :
    let input : ByteArray := ⟨#[0x32, 0x2b, 0x0a, 0xff]⟩
    let tree : FileTree :=
      { nodes := [(["out.csv"], .file "1.00\n".toUTF8)], refusal := "refused" }
    let surroundings : Surroundings := { stdin := .ok input, files := tree.view }
    let ended := inTree tree surroundings ["-", "-o", "out.csv"]
    ended.1.exitCode = 2 ∧ ended.1.stdout = [] ∧ ended.2 = tree := by
  intro input tree surroundings ended
  have hparse : Command.parse ["-", "-o", "out.csv"] =
      .ok (.run "-" { input := some "-", output := some "out.csv" }) := by decide +kernel
  have hdecode : String.fromUTF8? ⟨#[0x32, 0x2b, 0x0a, 0xff]⟩ = none := by decide
  have hlocation : Completes surroundings (answer tree) ["-", "-o", "out.csv"] .location :=
    ⟨_, _, hparse, .inl rfl⟩
  have hreading : ¬ Completes surroundings (answer tree) ["-", "-o", "out.csv"] .reading := by
    simp [Completes, hparse, HasText, surroundings, input, hdecode]
  have hstaged := (run_staged surroundings (answer tree) ["-", "-o", "out.csv"]
    (by simp [hparse])).2 tree rfl
  refine ⟨?_, (hstaged.staged.nothing .reading (by decide) hreading).1,
    hstaged.unchanged .reading (by decide) hreading⟩
  rw [hstaged.staged.exitCode,
    firstIncomplete?_eq_some [.arguments] .location rfl hlocation hreading]
  rfl

end Run

end Spreadsheet
