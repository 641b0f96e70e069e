import Mathlib.Algebra.Group.Nat.Defs
import Mathlib.Data.List.Induction
import Mathlib.Logic.ExistsUnique
import Spreadsheet.CommandLine.Arguments
import Spreadsheet.Proofs.Text.Digits

/-! Arguments as a list of words: single arguments, and options with their values. Reading stops at
the first word that asks for help or is a mistake, and otherwise each option is what the last word
that sets it says. -/
namespace Spreadsheet

namespace Item

def names : Item → List String
  | help => ["-h", "--help"]
  | policy .strict => ["-s", "--strict"]
  | policy .formatted => ["-f", "--formatted"]
  | precision => ["-p", "--precision"]
  | output => ["-o", "--output"]
  | config => ["-c", "--config"]
  | noConfig => ["--no-config"]
  | verbose => ["-v", "--verbose"]
  | quiet => ["-q", "--quiet"]
  | input => ["-"]
  | unknown => []

/-- What an argument is where none is taken as a value. -/
inductive Is (argument : String) : Item → Prop
  | named {item : Item} : argument ∈ item.names → Is argument item
  | input : argument.startsWith "-" = false → Is argument .input
  | unknown : argument.startsWith "-" = true → (∀ item : Item, argument ∉ item.names) →
      Is argument .unknown

def takesValue : Item → Bool
  | precision | output | config => true
  | _ => false

variable {argument : String} {item : Item}

theorem is_ofArgument (argument : String) : Is argument (ofArgument argument) := by
  unfold ofArgument
  split
  iterate 18 exact .named (by decide)
  split
  · next h =>
    refine .unknown h fun item hmem => ?_
    rcases item with _ | ⟨_ | _⟩ | _ | _ | _ | _ | _ | _ | _ | _ <;> simp_all [names]
  · next h => exact .input (Bool.eq_false_iff.2 h)

theorem startsWith_of_mem_names (h : argument ∈ item.names) : argument.startsWith "-" = true := by
  rw [String.startsWith_string_iff]
  rcases item with _ | ⟨_ | _⟩ | _ | _ | _ | _ | _ | _ | _ | _ <;>
    simp only [names, List.mem_cons, List.not_mem_nil, or_false] at h
  all_goals rcases h with rfl | rfl <;> decide

theorem ofArgument_of_mem_names (h : argument ∈ item.names) : ofArgument argument = item := by
  rcases item with _ | ⟨_ | _⟩ | _ | _ | _ | _ | _ | _ | _ | _ <;>
    simp only [names, List.mem_cons, List.not_mem_nil, or_false] at h
  all_goals rcases h with rfl | rfl <;> rfl

theorem Is.unique {item' : Item} (h : Is argument item) (h' : Is argument item') : item = item' := by
  cases h with
  | named h =>
    cases h' with
    | named h' => exact (ofArgument_of_mem_names h).symm.trans (ofArgument_of_mem_names h')
    | input h' => simp [startsWith_of_mem_names h] at h'
    | unknown _ h' => exact absurd h (h' item)
  | input h =>
    cases h' with
    | named h' => simp [startsWith_of_mem_names h'] at h
    | input => rfl
    | unknown h' => simp [h] at h'
  | unknown h hnone =>
    cases h' with
    | named h' => exact absurd h' (hnone item')
    | input h' => simp [h] at h'
    | unknown => rfl

theorem Is.ofArgument_eq (h : Is argument item) : ofArgument argument = item :=
  (is_ofArgument argument).unique h

end Item

namespace Command

/-- An argument that is not a value, with the value that it takes, if it is followed by one. -/
structure Word where
  item : Item
  argument : String
  value : Option String
deriving DecidableEq, Repr

/-- The words of an argument list, from left to right. An option that has a value takes the next
argument, whatever that is. Only the last argument can lack its value. -/
inductive Spells : List String → List Word → Prop
  | nil : Spells [] []
  | plain {argument : String} {item : Item} {rest : List String} {words : List Word} :
      Item.Is argument item → item.takesValue = false → Spells rest words →
      Spells (argument :: rest) (⟨item, argument, none⟩ :: words)
  | valued {argument value : String} {item : Item} {rest : List String} {words : List Word} :
      Item.Is argument item → item.takesValue = true → Spells rest words →
      Spells (argument :: value :: rest) (⟨item, argument, some value⟩ :: words)
  | missing {argument : String} {item : Item} :
      Item.Is argument item → item.takesValue = true →
      Spells [argument] [⟨item, argument, none⟩]

def inputs (words : List Word) : List String :=
  (words.filter (·.item = .input)).map Word.argument

/-- A word ends the reading, with this result, where these words stand before it. -/
inductive Stops (before : List Word) (word : Word) : Except UsageError Command → Prop
  | help : word.item = .help → Stops before word (.ok .help)
  | missingValue : word.item.takesValue = true → word.value = none →
      Stops before word (.error (.missingValue word.argument))
  | invalidPrecision {text : String} : word.item = .precision → word.value = some text →
      readPrecision? text.toList = none → Stops before word (.error (.invalidPrecision text))
  | unknownOption : word.item = .unknown → Stops before word (.error (.unknownOption word.argument))
  | unexpectedArgument : word.item = .input → inputs before ≠ [] →
      Stops before word (.error (.unexpectedArgument word.argument))

def Passes (words : List Word) : Prop :=
  ∀ before word after result, words = before ++ word :: after → ¬ Stops before word result

def last? {α : Type} (say : Word → Option α) (words : List Word) : Option α :=
  words.reverse.findSome? say

/-- How many verbose words stand behind the last quiet one, which itself counts as minus one. -/
def volume (words : List Word) : Int :=
  let verbose := (words.reverse.takeWhile (·.item ≠ .quiet)).countP (·.item = .verbose)
  if words.any (·.item = .quiet) then verbose - 1 else verbose

namespace Word

def valueOf? (item : Item) (word : Word) : Option String :=
  if word.item = item then word.value else none

def policy? (word : Word) : Option Policy :=
  match word.item with
  | .policy p => some p
  | _ => none

end Word

def options (words : List Word) : Options where
  input := (inputs words).head?
  output := last? (·.valueOf? .output) words
  config := last? (·.valueOf? .config) words
  noConfig := words.any (·.item = .noConfig)
  precision := last? (fun word => (word.valueOf? .precision).bind (readPrecision? ·.toList)) words
  policy := last? Word.policy? words
  verbosity := min 127 (volume words)

inductive Answers (words : List Word) : Except UsageError Command → Prop
  | stops {before after : List Word} {word : Word} {result : Except UsageError Command} :
      words = before ++ word :: after → Passes before → Stops before word result →
      Answers words result
  | missingInput : Passes words → inputs words = [] → Answers words (.error .missingInput)
  | run {input : String} : Passes words → inputs words = [input] →
      Answers words (.ok (.run input (options words)))

variable {arguments : List String} {words words' before : List Word} {word : Word}
  {result result' : Except UsageError Command}

/-! ### Words -/

theorem Spells.unique (h : Spells arguments words) (h' : Spells arguments words') :
    words = words' := by
  induction h generalizing words' with
  | nil =>
    cases h'
    rfl
  | plain hitem hvalue hrest ih =>
    cases h' with
    | plain hitem' _ hrest' =>
      obtain rfl := hitem.unique hitem'
      rw [ih hrest']
    | valued hitem' hvalue' _ | missing hitem' hvalue' =>
      obtain rfl := hitem.unique hitem'
      rw [hvalue] at hvalue'
      contradiction
  | valued hitem hvalue hrest ih =>
    cases h' with
    | plain hitem' hvalue' _ =>
      obtain rfl := hitem.unique hitem'
      rw [hvalue] at hvalue'
      contradiction
    | valued hitem' _ hrest' =>
      obtain rfl := hitem.unique hitem'
      rw [ih hrest']
  | missing hitem hvalue =>
    cases h' with
    | plain hitem' hvalue' _ =>
      obtain rfl := hitem.unique hitem'
      rw [hvalue] at hvalue'
      contradiction
    | missing hitem' =>
      obtain rfl := hitem.unique hitem'
      rfl

theorem exists_spells (arguments : List String) : ∃ words, Spells arguments words := by
  match arguments with
  | [] => exact ⟨[], .nil⟩
  | argument :: rest =>
    have hitem := Item.is_ofArgument argument
    cases hvalue : (Item.ofArgument argument).takesValue with
    | false =>
      obtain ⟨words, hrest⟩ := exists_spells rest
      exact ⟨_, .plain hitem hvalue hrest⟩
    | true =>
      match rest with
      | [] => exact ⟨_, .missing hitem hvalue⟩
      | value :: rest =>
        obtain ⟨words, hrest⟩ := exists_spells rest
        exact ⟨_, .valued hitem hvalue hrest⟩

/-! ### Where reading stops -/

theorem Stops.unique (h : Stops before word result) (h' : Stops before word result') :
    result = result' := by
  cases h <;> cases h' <;> simp_all [Item.takesValue]

theorem passes_nil : Passes [] := by
  intro before word after result h
  simp at h

theorem passes_concat_iff :
    Passes (before ++ [word]) ↔ Passes before ∧ ∀ result, ¬ Stops before word result := by
  constructor
  · intro h
    refine ⟨fun front last after result heq => ?_, fun result => h _ _ [] result rfl⟩
    exact h front last (after ++ [word]) result (by simp [heq])
  · rintro ⟨h, hword⟩ front last after result heq
    rcases List.eq_nil_or_concat after with rfl | ⟨after, _, rfl⟩
    · obtain ⟨rfl, rfl⟩ := List.append_inj' heq rfl |>.imp_right List.head_eq_of_cons_eq
      exact hword result
    · rw [List.concat_eq_append, ← List.cons_append, ← List.append_assoc] at heq
      exact h _ _ _ _ (List.append_inj' heq rfl).1

theorem inputs_concat (words : List Word) (word : Word) :
    inputs (words ++ [word]) =
      if word.item = .input then inputs words ++ [word.argument] else inputs words := by
  by_cases h : word.item = .input <;> simp [inputs, h]

theorem Passes.length_inputs_le (h : Passes words) : (inputs words).length ≤ 1 := by
  induction words using List.reverseRecOn with
  | nil => simp [inputs]
  | append_singleton before word ih =>
    obtain ⟨hbefore, hword⟩ := passes_concat_iff.1 h
    rw [inputs_concat]
    split
    · next hitem =>
      have hnone : inputs before = [] := by
        by_contra hsome
        exact hword _ (.unexpectedArgument hitem hsome)
      simp [hnone]
    · exact ih hbefore

theorem Stops.eq_of_passes {rest after after' : List Word} {word' : Word}
    (h : Stops before word result) (hpasses : Passes (before ++ rest))
    (heq : word :: after = rest ++ word' :: after') : rest = [] ∧ word = word' := by
  cases rest with
  | nil => exact ⟨rfl, List.head_eq_of_cons_eq heq⟩
  | cons first rest =>
    obtain rfl := List.head_eq_of_cons_eq heq
    exact absurd h (hpasses before word rest result rfl)

theorem Answers.unique (h : Answers words result) (h' : Answers words result') :
    result = result' := by
  cases h with
  | stops heq hpasses hstops =>
    cases h' with
    | @stops before' after' word' _ heq' hpasses' hstops' =>
      rw [heq, List.append_eq_append_iff] at heq'
      rcases heq' with ⟨rest, rfl, heq'⟩ | ⟨rest, rfl, heq'⟩
      · obtain ⟨rfl, rfl⟩ := hstops.eq_of_passes hpasses' heq'
        rw [List.append_nil] at hstops'
        exact hstops.unique hstops'
      · obtain ⟨rfl, rfl⟩ := hstops'.eq_of_passes hpasses heq'
        rw [List.append_nil] at hstops
        exact hstops.unique hstops'
    | missingInput hpasses' => exact absurd hstops (hpasses' _ _ _ _ heq)
    | run hpasses' => exact absurd hstops (hpasses' _ _ _ _ heq)
  | missingInput hpasses hinputs =>
    cases h' with
    | stops heq' _ hstops' => exact absurd hstops' (hpasses _ _ _ _ heq')
    | missingInput => rfl
    | run _ hinputs' =>
      rw [hinputs] at hinputs'
      contradiction
  | run hpasses hinputs =>
    cases h' with
    | stops heq' _ hstops' => exact absurd hstops' (hpasses _ _ _ _ heq')
    | missingInput _ hinputs' =>
      rw [hinputs] at hinputs'
      contradiction
    | run _ hinputs' =>
      rw [hinputs] at hinputs'
      rw [List.singleton_inj.1 hinputs']

/-! ### Reading -/

theorem last?_concat {α : Type} (say : Word → Option α) (words : List Word) (word : Word) :
    last? say (words ++ [word]) = (say word).or (last? say words) := by
  rw [last?, List.reverse_append, List.reverse_singleton, List.singleton_append, List.findSome?_cons]
  cases say word <;> rfl

theorem volume_concat (words : List Word) (word : Word) :
    volume (words ++ [word]) =
      if word.item = .quiet then -1
      else if word.item = .verbose then volume words + 1
      else volume words := by
  simp only [volume, List.reverse_append, List.reverse_singleton, List.singleton_append,
    List.takeWhile_cons, List.any_append, List.any_cons, List.any_nil]
  by_cases hquiet : word.item = .quiet
  · simp [hquiet]
  · by_cases hverbose : word.item = .verbose
    · simp [hverbose]
      split <;> omega
    · simp [hquiet, hverbose]

def update (options : Options) (word : Word) : Options where
  input := options.input.or (if word.item = .input then some word.argument else none)
  output := (word.valueOf? .output).or options.output
  config := (word.valueOf? .config).or options.config
  noConfig := options.noConfig || word.item = .noConfig
  precision := ((word.valueOf? .precision).bind (readPrecision? ·.toList)).or options.precision
  policy := word.policy?.or options.policy
  verbosity :=
    if word.item = .quiet then -1
    else if word.item = .verbose then min 127 (options.verbosity + 1)
    else options.verbosity

theorem options_concat (words : List Word) (word : Word) :
    options (words ++ [word]) = update (options words) word := by
  simp only [options, update, last?_concat, inputs_concat, volume_concat, List.any_append,
    List.any_cons, List.any_nil, Bool.or_false, Options.mk.injEq, true_and]
  constructor
  · split
    · rw [List.head?_append, List.head?_singleton]
    · rw [Option.or_none]
  · split
    · rfl
    · split
      · omega
      · rfl

theorem Answers.of_passes (h : Passes before) :
    Answers before ((options before).input.elim (.error .missingInput)
      (.ok <| .run · (options before))) := by
  have hle := h.length_inputs_le
  have hinput : (options before).input = (inputs before).head? := rfl
  rw [hinput]
  match hinputs : inputs before with
  | [] => exact .missingInput h hinputs
  | [input] => exact .run h hinputs
  | _ :: _ :: _ =>
    rw [hinputs] at hle
    simp at hle

/-- A word that does not end the reading sets its option. -/
theorem Passes.advance {rest : List String} (h : Passes before)
    (hword : ∀ result, ¬ Stops before word result)
    (hrest : ∀ {before}, Passes before →
      Answers (before ++ words) (parseFrom (options before) rest)) :
    Answers (before ++ word :: words) (parseFrom (update (options before) word) rest) := by
  have hconcat := hrest (passes_concat_iff.2 ⟨h, hword⟩)
  rwa [List.append_assoc, options_concat] at hconcat

/-- Reading goes on with the options that the words so far set. -/
theorem answers_parseFrom (h : Spells arguments words) (hbefore : Passes before) :
    Answers (before ++ words) (parseFrom (options before) arguments) := by
  induction h generalizing before with
  | nil =>
    rw [List.append_nil]
    exact .of_passes hbefore
  | @plain argument item rest words hitem hvalue _ ih =>
    have advance (h : ∀ result, ¬ Stops before ⟨item, argument, none⟩ result) :=
      hbefore.advance h ih
    rw [parseFrom.eq_def]
    dsimp only
    rw [hitem.ofArgument_eq]
    cases item with
    | precision | output | config => contradiction
    | help => exact .stops rfl hbefore (.help rfl)
    | unknown => exact .stops rfl hbefore (.unknownOption rfl)
    | policy | noConfig | verbose | quiet =>
      have h := advance (by rintro _ ⟨⟩ <;> contradiction)
      simpa [update, Word.valueOf?, Word.policy?, maxVerbosity] using h
    | input =>
      have hinput : (options before).input = (inputs before).head? := rfl
      cases hinputs : inputs before with
      | cons first others =>
        simp only [hinput, hinputs, List.head?_cons, Option.isSome_some, if_true]
        exact .stops rfl hbefore (.unexpectedArgument rfl (by simp [hinputs]))
      | nil =>
        have h := advance (by rintro _ ⟨⟩ <;> contradiction)
        simpa [update, Word.valueOf?, Word.policy?, hinput, hinputs] using h
  | @valued argument value item rest words hitem hvalue _ ih =>
    have advance (h : ∀ result, ¬ Stops before ⟨item, argument, some value⟩ result) :=
      hbefore.advance h ih
    rw [parseFrom.eq_def]
    dsimp only
    rw [hitem.ofArgument_eq]
    cases item with
    | help | policy | noConfig | verbose | quiet | unknown | input => contradiction
    | output | config =>
      have h := advance (by rintro _ ⟨⟩ <;> contradiction)
      simpa [update, Word.valueOf?, Word.policy?] using h
    | precision =>
      cases hread : readPrecision? value.toList with
      | none =>
        exact .stops rfl hbefore (.invalidPrecision rfl rfl hread)
      | some n =>
        have h := advance (by rintro _ ⟨⟩ <;> simp_all)
        simpa [update, Word.valueOf?, Word.policy?, hread] using h
  | @missing argument item hitem hvalue =>
    rw [parseFrom.eq_def]
    dsimp only
    rw [hitem.ofArgument_eq]
    have hstops : Answers (before ++ [⟨item, argument, none⟩]) (.error (.missingValue argument)) :=
      .stops rfl hbefore (.missingValue hvalue rfl)
    cases item with
    | help | policy | noConfig | verbose | quiet | unknown | input => contradiction
    | precision | output | config => exact hstops

/-- A count of decimals is written by digits, with a plus sign or none, and fits into 64 bits. -/
theorem readPrecision?_eq_some_iff {text : List Char} {n : Nat} :
    readPrecision? text = some n ↔ ∃ digits, (text = digits ∨ text = '+' :: digits) ∧
      IsDigits digits ∧ Nat.ofDigitChars 10 digits 0 = n ∧ n < 2 ^ 64 := by
  have hcount (digits : List Char) :
      (if !digits.isEmpty && digits.all Char.isDigit then
        if Nat.ofDigitChars 10 digits 0 < UInt64.size then some (Nat.ofDigitChars 10 digits 0) else none
      else none) = some n ↔
        IsDigits digits ∧ Nat.ofDigitChars 10 digits 0 = n ∧ n < 2 ^ 64 := by
    rw [isDigits_iff, Option.ite_none_right_eq_some, Option.ite_none_right_eq_some,
      Option.some.injEq]
    refine and_congr_right fun _ => ?_
    rw [and_comm]
    refine and_congr_right ?_
    rintro rfl
    exact Iff.rfl
  unfold readPrecision?
  split
  · next digits =>
    rw [hcount]
    constructor
    · exact fun h => ⟨digits, .inr rfl, h⟩
    · rintro ⟨_, rfl | heq, hd, h⟩
      · exact absurd (hd.2 '+' List.mem_cons_self) (by decide)
      · exact (List.cons.inj heq).2 ▸ ⟨hd, h⟩
  · next hplus =>
    rw [hcount]
    constructor
    · exact fun h => ⟨text, .inl rfl, h⟩
    · rintro ⟨digits, rfl | rfl, h⟩
      · exact h
      · exact absurd rfl (hplus digits)

/-- Arguments are read word by word, and there is one way to take them as words. The first word
that asks for help or is a mistake decides. Without one, an input has to be there, and the run has
this input and the options that the words set. -/
theorem parse_iff_answers (arguments : List String) :
    (∃! words, Spells arguments words) ∧
    (∀ words result, Spells arguments words →
      (parse arguments = result ↔ Answers words result)) ∧
    ∀ text n, readPrecision? text = some n ↔ ∃ digits, (text = digits ∨ text = '+' :: digits) ∧
      IsDigits digits ∧ Nat.ofDigitChars 10 digits 0 = n ∧ n < 2 ^ 64 := by
  obtain ⟨words, hwords⟩ := exists_spells arguments
  refine ⟨⟨words, hwords, fun _ h => h.unique hwords⟩, ?_,
    fun text n => readPrecision?_eq_some_iff⟩
  intro words result h
  have hanswers : Answers words (parse arguments) := answers_parseFrom h passes_nil
  constructor
  · rintro rfl
    exact hanswers
  · exact hanswers.unique

example : parse ["-q", "-o", "--help", "-v", "a.csv"] =
    .ok (.run "a.csv" { input := some "a.csv", output := some "--help", verbosity := 0 }) := by
  decide +kernel

end Command

end Spreadsheet
