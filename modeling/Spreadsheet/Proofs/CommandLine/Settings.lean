import Spreadsheet.CommandLine.Run
import Spreadsheet.Proofs.CommandLine.Words
import Spreadsheet.Proofs.Settings

/-! Runs whose settings file cannot be used. Apart from what they report, they do what a run does
that looks for no settings file. -/
namespace Spreadsheet

namespace Command

def Word.arguments (word : Word) : List String :=
  word.argument :: word.value.toList

/-- The words that give no settings file, behind one that asks for none. -/
def withoutSettings (words : List Word) : List Word :=
  ⟨.noConfig, "--no-config", none⟩ :: words.filter (·.item ≠ .config)

variable {arguments : List String} {words : List Word}

theorem withoutSettings_concat (words : List Word) (word : Word) :
    withoutSettings (words ++ [word]) =
      if word.item = .config then withoutSettings words else withoutSettings words ++ [word] := by
  by_cases h : word.item = .config <;> simp [withoutSettings, h]

theorem inputs_withoutSettings (words : List Word) :
    inputs (withoutSettings words) = inputs words := by
  induction words using List.reverseRecOn with
  | nil => rfl
  | append_singleton words word ih =>
    rw [withoutSettings_concat, inputs_concat]
    split
    · next h => simp [h, ih]
    · rw [inputs_concat, ih]

theorem Spells.filter (h : Spells arguments words) :
    Spells ((words.filter (·.item ≠ .config)).flatMap Word.arguments)
      (words.filter (·.item ≠ .config)) := by
  induction h with
  | nil => exact .nil
  | @plain argument item rest words hitem hvalue _ ih =>
    have hkept : item ≠ .config := by
      rintro rfl
      contradiction
    rw [List.filter_cons_of_pos (by simpa using hkept)]
    exact .plain hitem hvalue ih
  | @valued argument value item rest words hitem hvalue _ ih =>
    by_cases hconfig : item = .config
    · rwa [List.filter_cons_of_neg (by simpa using hconfig)]
    · rw [List.filter_cons_of_pos (by simpa using hconfig)]
      exact .valued hitem hvalue ih
  | @missing argument item hitem hvalue =>
    by_cases hconfig : item = .config
    · rw [List.filter_cons_of_neg (by simpa using hconfig)]
      exact .nil
    · rw [List.filter_cons_of_pos (by simpa using hconfig)]
      exact .missing hitem hvalue

theorem Spells.withoutSettings (h : Spells arguments words) :
    Spells ((withoutSettings words).flatMap Word.arguments) (withoutSettings words) :=
  .plain (.named List.mem_cons_self) rfl h.filter

theorem Passes.withoutSettings (h : Passes words) : Passes (withoutSettings words) := by
  induction words using List.reverseRecOn with
  | nil =>
    refine passes_concat_iff.2 ⟨passes_nil, ?_⟩
    rintro _ ⟨⟩ <;> contradiction
  | append_singleton words word ih =>
    obtain ⟨hwords, hword⟩ := passes_concat_iff.1 h
    rw [withoutSettings_concat]
    split
    · exact ih hwords
    · refine passes_concat_iff.2 ⟨ih hwords, fun result hstops => hword result ?_⟩
      -- the words before matter by their inputs only
      cases hstops with
      | help h => exact .help h
      | missingValue h hvalue => exact .missingValue h hvalue
      | invalidPrecision h hvalue hread => exact .invalidPrecision h hvalue hread
      | unknownOption h => exact .unknownOption h
      | unexpectedArgument h hinputs =>
        exact .unexpectedArgument h (inputs_withoutSettings words ▸ hinputs)

theorem options_withoutSettings (words : List Word) :
    options (withoutSettings words) = { options words with config := none, noConfig := true } := by
  induction words using List.reverseRecOn with
  | nil => rfl
  | append_singleton words word ih =>
    rw [withoutSettings_concat, options_concat]
    split
    · next h => simp [ih, update, Word.valueOf?, Word.policy?, h]
    · next h => simp [options_concat, ih, update, Word.valueOf?, h]

/-- Without its settings, a run that is asked for has the same input and the same other options. -/
theorem parse_withoutSettings {name : String} {options : Options} (h : Spells arguments words)
    (hparse : parse arguments = .ok (.run name options)) :
    parse ((withoutSettings words).flatMap Word.arguments) =
      .ok (.run name { options with config := none, noConfig := true }) := by
  have hanswers : Answers words (parse arguments) := answers_parseFrom h passes_nil
  have hanswers' : Answers (withoutSettings words)
      (parse ((withoutSettings words).flatMap Word.arguments)) :=
    answers_parseFrom h.withoutSettings passes_nil
  rw [hparse] at hanswers
  cases hanswers with
  | stops _ _ hstops => cases hstops
  | run hpasses hinputs =>
    refine hanswers'.unique ?_
    rw [← options_withoutSettings]
    exact .run hpasses.withoutSettings ((inputs_withoutSettings words).trans hinputs)

end Command

structure Outcome.SameEffects (outcome outcome' : Outcome) : Prop where
  exitCode : outcome.exitCode = outcome'.exitCode
  stdout : outcome.stdout = outcome'.stdout
  file? : outcome.file? = outcome'.file?

inductive Stage.SameEffects : Stage → Stage → Prop
  | finished {outcome outcome' : Outcome} : outcome.SameEffects outcome' →
      SameEffects (.finished outcome) (.finished outcome')
  | writing {pending pending' : Pending} : pending.target = pending'.target →
      pending.text = pending'.text → SameEffects (.writing pending) (.writing pending')

theorem Pending.sameEffects_conclude {pending pending' : Pending} (answer : Except String Unit)
    (htarget : pending.target = pending'.target) (htext : pending.text = pending'.text) :
    (pending.conclude answer).SameEffects (pending'.conclude answer) := by
  obtain ⟨target, text, stderr, threshold⟩ := pending
  obtain ⟨target', text', stderr', threshold'⟩ := pending'
  obtain rfl : target = target' := htarget
  obtain rfl : text = text' := htext
  cases answer <;> cases target <;> exact ⟨rfl, rfl, rfl⟩

namespace Run

def settingsPath? (surroundings : Surroundings) (options : Options) : Option String :=
  if options.noConfig ∧ options.config.isNone then none
  else options.config <|> surroundings.user.settingsPath?

def HasNoSettings (surroundings : Surroundings) (options : Options) : Prop :=
  settingsPath? surroundings options = none ∨
    ∃ path warning, settingsPath? surroundings options = some path ∧
      SettingsFile.Refuses surroundings.decode surroundings.files path options.config.isSome warning

variable {surroundings surroundings' : Surroundings} {options options' : Options}
  {arguments arguments' : List String} {name path : String}

theorem settingsFile_of_settingsPath? (h : settingsPath? surroundings options = some path) :
    (options.config <|> surroundings.user.settingsPath?) = some path ∧
      settingsFile surroundings options =
        SettingsFile.load surroundings.decode surroundings.files surroundings.user
          options.config := by
  rw [settingsPath?] at h
  rw [settingsFile]
  split at h
  · contradiction
  · next hsome => exact ⟨h, if_neg hsome⟩

theorem settingsFile_of_hasNoSettings (h : HasNoSettings surroundings options) :
    (settingsFile surroundings options).1 = {} := by
  rcases h with hnone | ⟨path, warning, hpath, hrefuses⟩
  · rw [settingsPath?] at hnone
    rw [settingsFile]
    split at hnone
    · next h => rw [if_pos h]
    · next h => rw [if_neg h, SettingsFile.load, hnone]
  · obtain ⟨hfound, hfile⟩ := settingsFile_of_settingsPath? hpath
    rw [hfile, SettingsFile.load_of_refuses hfound hrefuses]

/-- Of the settings file, only what it says matters for what a run does. -/
theorem sameEffects_render (hinput : input surroundings name = input surroundings' name)
    (hsettings : settings surroundings options = settings surroundings' options')
    (houtput : options.output = options'.output) :
    (render surroundings name options).SameEffects (render surroundings' name options') := by
  simp only [render, hinput, hsettings]
  cases (input surroundings' name).result with
  | error e => exact .finished ⟨rfl, rfl, rfl⟩
  | ok document =>
    dsimp only
    cases document.sheet.render (settings surroundings' options').policy
        (settings surroundings' options').precision with
    | error e => exact .finished ⟨rfl, rfl, rfl⟩
    | ok text => exact .writing (congrArg (·.elim .stdout Target.file) houtput) rfl

theorem sameEffects_start (hparse : Command.parse arguments = .ok (.run name options))
    (hparse' : Command.parse arguments' = .ok (.run name options'))
    (h : HasNoSettings surroundings options) (h' : HasNoSettings surroundings' options')
    (hinput : input surroundings name = input surroundings' name)
    (houtput : options.output = options'.output)
    (hprecision : options.precision = options'.precision)
    (hpolicy : options.policy = options'.policy) :
    (start surroundings arguments).SameEffects (start surroundings' arguments') := by
  simp only [start, hparse, hparse']
  refine sameEffects_render hinput ?_ houtput
  rw [settings, settings, settingsFile_of_hasNoSettings h, settingsFile_of_hasNoSettings h',
    hprecision, hpolicy]

theorem sameEffects_run (write : Target → List Char → Except String Unit)
    (h : (start surroundings arguments).SameEffects (start surroundings' arguments')) :
    (run surroundings write arguments).SameEffects (run surroundings' write arguments') := by
  unfold run
  generalize start surroundings arguments = stage at h
  generalize start surroundings' arguments' = stage' at h
  cases h with
  | finished houtcome => exact houtcome
  | writing htarget htext =>
    dsimp only
    rw [htarget, htext]
    exact Pending.sameEffects_conclude _ htarget htext

theorem snd_inTree_eq {tree : FileTree}
    (h : (start { surroundings with files := tree.view } arguments).SameEffects
      (start { surroundings with files := tree.view } arguments')) :
    (inTree tree surroundings arguments).2 = (inTree tree surroundings arguments').2 := by
  unfold inTree
  generalize start { surroundings with files := tree.view } arguments = stage at h
  generalize start { surroundings with files := tree.view } arguments' = stage' at h
  cases h with
  | finished => rfl
  | writing htarget htext =>
    dsimp only
    rw [htarget, htext]

/-- A settings file is used or refused. A run whose settings file is refused is told why, at most
once. Else it does what it does without settings, be they left out of its arguments or missing around
it. Where the file is used, there is no warning, and each setting is what the arguments say, or else
the file, or else the default. What is no TOML is refused, and so is a file where anything is said
that is no setting, whatever stands next to it. -/
theorem refused_settings_are_none {words : List Command.Word} (surroundings : Surroundings)
    (hwords : Command.Spells arguments words)
    (hparse : Command.parse arguments = .ok (.run name options))
    (hpath : settingsPath? surroundings options = some path) :
    ((∃ file, SettingsFile.Accepts surroundings.decode surroundings.files path file) ∨
      ∃ warning, SettingsFile.Refuses surroundings.decode surroundings.files path
        options.config.isSome warning) ∧
    (∀ warning, SettingsFile.Refuses surroundings.decode surroundings.files path
        options.config.isSome warning →
      let plain := (Command.withoutSettings words).flatMap Command.Word.arguments
      SettingsFile.load surroundings.decode surroundings.files surroundings.user options.config =
        ({}, warning) ∧
      Command.parse plain = .ok (.run name { options with config := none, noConfig := true }) ∧
      (∀ write, (run surroundings write arguments).SameEffects (run surroundings write plain)) ∧
      (∀ tree : FileTree, surroundings.files = tree.view →
        (inTree tree surroundings arguments).2 = (inTree tree surroundings plain).2) ∧
      ∀ surroundings' write, input surroundings name = input surroundings' name →
        HasNoSettings surroundings' options →
        (run surroundings write arguments).SameEffects (run surroundings' write arguments)) ∧
    (∀ file, SettingsFile.Accepts surroundings.decode surroundings.files path file →
      SettingsFile.load surroundings.decode surroundings.files surroundings.user options.config =
        (file, none) ∧
      (settings surroundings options).precision =
        options.precision.getD (file.precision.getD 2) ∧
      (settings surroundings options).policy =
        options.policy.getD (file.policy.getD .formatted)) ∧
    (∀ text, Toml.document text = none → SettingsFile.parse? text = none) ∧
    ∀ text statements said, Toml.document text = some statements →
      said ∈ Toml.said [] statements → ¬ SettingsFile.IsSetting said →
      SettingsFile.parse? text = none := by
  obtain ⟨hfound, hfile⟩ := settingsFile_of_settingsPath? hpath
  refine ⟨SettingsFile.accepts_or_refuses _ _ _ _, fun warning hrefuses => ?_,
    fun file haccepts => ?_, fun text hdocument => ?_, fun _ _ _ => SettingsFile.parse?_eq_none⟩
  · have hnone : HasNoSettings surroundings options := .inr ⟨path, warning, hpath, hrefuses⟩
    have hparse' := Command.parse_withoutSettings hwords hparse
    have hplain : (start surroundings arguments).SameEffects (start surroundings _) :=
      sameEffects_start hparse hparse' hnone (.inl rfl) rfl rfl rfl rfl
    refine ⟨SettingsFile.load_of_refuses hfound hrefuses, hparse',
      fun write => sameEffects_run write hplain, fun tree htree => ?_,
      fun surroundings' write hinput hnone' => ?_⟩
    · obtain ⟨stdin, files, user, decode⟩ := surroundings
      obtain rfl : files = tree.view := htree
      exact snd_inTree_eq hplain
    · exact sameEffects_run write (sameEffects_start hparse hparse hnone hnone' hinput rfl rfl rfl)
  · have hload := SettingsFile.load_of_accepts hfound haccepts
    rw [settings, hfile, hload]
    refine ⟨rfl, ?_, ?_⟩
    · cases options.precision <;> rfl
    · cases options.policy <;> rfl
  · rw [SettingsFile.parse?, hdocument, Option.bind_none]

/-- A settings file with a good precision next to a key that says no setting. The precision is not
used, and the run prints what it prints without the file. -/
theorem refused_settings_are_none_unknown_key :
    let files : FileView := fun path =>
      if path = "bad.toml" then some ⟨true, .ok "precision = 1\ncolour = 2\n".toUTF8⟩ else none
    let surroundings : Surroundings := { stdin := .ok "1,,2\n".toUTF8, files }
    SettingsFile.load SettingsFile.parse? files {} (some "bad.toml") =
      ({}, some (.notParsed "bad.toml")) ∧
      ∀ write, (run surroundings write ["-c", "bad.toml", "-"]).SameEffects
        (run surroundings write ["--no-config", "-"]) := by
  intro files surroundings
  have hparse : Command.parse ["-c", "bad.toml", "-"] =
      .ok (.run "-" { input := some "-", config := some "bad.toml" }) := by decide +kernel
  have hwords : Command.Spells ["-c", "bad.toml", "-"]
      [⟨.config, "-c", some "bad.toml"⟩, ⟨.input, "-", none⟩] :=
    .valued (.named (by decide)) rfl (.plain (.named (by decide)) rfl .nil)
  have hrejected : SettingsFile.parse? "precision = 1\ncolour = 2\n".toList = none := by decide +kernel
  have hrefuses : SettingsFile.Refuses SettingsFile.parse? files "bad.toml" true
      (some (.notParsed "bad.toml")) :=
    .rejected rfl (dif_pos "precision = 1\ncolour = 2\n".isValidUTF8) hrejected
  obtain ⟨hload, -, hrun, -⟩ :=
    (refused_settings_are_none surroundings hwords hparse rfl).2.1 _ hrefuses
  exact ⟨hload, hrun⟩

end Run

end Spreadsheet
