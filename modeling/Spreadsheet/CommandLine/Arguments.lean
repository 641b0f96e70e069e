import Spreadsheet.Sheet.Read

namespace Spreadsheet

inductive UsageError
  | missingValue (option : String)
  | invalidPrecision (text : String)
  | unknownOption (option : String)
  | unexpectedArgument (argument : String)
  | missingInput
deriving DecidableEq, Repr

def UsageError.message : UsageError → String
  | missingValue option => s!"{option} requires a value"
  | invalidPrecision text => s!"Invalid precision: {text}"
  | unknownOption option => s!"Unknown option: {option}"
  | unexpectedArgument argument => s!"Unexpected argument: {argument}"
  | missingInput => "No input file given"

inductive Item
  | help
  | policy (p : Policy)
  | precision
  | output
  | config
  | noConfig
  | verbose
  | quiet
  | unknown
  | input
deriving DecidableEq, Repr

def Item.ofArgument (argument : String) : Item :=
  match argument with
  | "-h" | "--help" => help
  | "-s" | "--strict" => policy .strict
  | "-f" | "--formatted" => policy .formatted
  | "-p" | "--precision" => precision
  | "-o" | "--output" => output
  | "-c" | "--config" => config
  | "--no-config" => noConfig
  | "-v" | "--verbose" => verbose
  | "-q" | "--quiet" => quiet
  | "-" => input
  | _ => if argument.startsWith "-" then unknown else input

structure Options where
  input : Option String := none
  output : Option String := none
  config : Option String := none
  noConfig : Bool := false
  precision : Option Nat := none
  policy : Option Policy := none
  verbosity : Int := 0
deriving DecidableEq, Repr

inductive Command
  | help
  | run (input : String) (options : Options)
deriving DecidableEq, Repr

namespace Command

/-- A count of decimals: digits, with a plus sign or none, for a 64-bit word. -/
def readPrecision? (text : List Char) : Option Nat :=
  let digits := match text with
    | '+' :: digits => digits
    | digits => digits
  if !digits.isEmpty && digits.all Char.isDigit then
    let n := Nat.ofDigitChars 10 digits 0
    if n < UInt64.size then some n else none
  else none

def maxVerbosity : Int := 127

/-- Reads arguments from left to right, up to the first mistake or request for help. An option that
has a value takes the next argument, whatever that is. -/
def parseFrom (options : Options) : List String → Except UsageError Command
  | [] => options.input.elim (.error .missingInput) (.ok <| .run · options)
  | argument :: rest =>
    match Item.ofArgument argument with
    | .help => .ok .help
    | .policy p => parseFrom { options with policy := some p } rest
    | .noConfig => parseFrom { options with noConfig := true } rest
    | .verbose => parseFrom { options with verbosity := min maxVerbosity (options.verbosity + 1) } rest
    | .quiet => parseFrom { options with verbosity := -1 } rest
    | .unknown => .error (.unknownOption argument)
    | .input =>
      if options.input.isSome then .error (.unexpectedArgument argument)
      else parseFrom { options with input := some argument } rest
    | .precision =>
      match rest with
      | [] => .error (.missingValue argument)
      | value :: rest =>
        match readPrecision? value.toList with
        | none => .error (.invalidPrecision value)
        | some n => parseFrom { options with precision := some n } rest
    | .output =>
      match rest with
      | [] => .error (.missingValue argument)
      | value :: rest => parseFrom { options with output := some value } rest
    | .config =>
      match rest with
      | [] => .error (.missingValue argument)
      | value :: rest => parseFrom { options with config := some value } rest

def parse (arguments : List String) : Except UsageError Command :=
  parseFrom {} arguments

end Command

def usage : List String :=
  ["Usage: cassava [OPTIONS] <FILE>",
    "",
    "Arguments:",
    "  <FILE>                    CSV spreadsheet to evaluate (- for stdin)",
    "",
    "Options:",
    "  -s, --strict              Fail on blank cells",
    "  -f, --formatted           Print blank cells as empty fields (default)",
    "  -p, --precision <N>       Decimal places in output (default: 2)",
    "  -o, --output <FILE>       Write results to a file instead of stdout",
    "  -c, --config <FILE>       Load settings from a TOML file",
    "      --no-config           Ignore the user config file",
    "  -v, --verbose             More logging (can be repeated)",
    "  -q, --quiet               No logging",
    "  -h, --help                Print help"]

end Spreadsheet
