import Spreadsheet.Text.Blank
import Spreadsheet.Text.Split
import Spreadsheet.Expr.Literal

/-! Reading cell text as an expression.
Text is split at the last place of an operator, so what comes before it is the left operand. -/
namespace Spreadsheet

inductive ParseFault
  | unsupportedCharacter (c : Char)
  | nothingToSplit
  | operatorMissing (op : Operator)
  | operandMissing (op : Operator)
  | integerTooLarge
  | integerTooSmall
  | invalidAddress
  | unsupportedTerminal
deriving DecidableEq, Repr

def ParseFault.message : ParseFault → String
  | unsupportedCharacter c => s!"unsupported character '{c}'"
  | nothingToSplit => "empty binary expression"
  | operatorMissing op => s!"no '{op.symbol}' to split on"
  | operandMissing op => s!"'{op.symbol}' is missing an operand"
  | integerTooLarge => "integer out of range (number too large to fit in target type)"
  | integerTooSmall => "integer out of range (number too small to fit in target type)"
  | invalidAddress => "invalid cell address"
  | unsupportedTerminal => "unsupported terminal value"

structure ParseError where
  fragment : List Char
  fault : ParseFault
deriving DecidableEq, Repr

def ParseError.message (e : ParseError) : String :=
  s!"Malformed expression '{String.ofList e.fragment}': {e.fault.message}"

namespace Expr

def isCellChar (c : Char) : Bool :=
  c.isDigit || (Address.columnOfLetter? c).isSome || c = '.' || Text.isBlank c ||
    (Operator.ofSymbol? c).isSome

def parseTerminal (text : List Char) : Except ParseError (Expr Literal) :=
  let text := Text.trim text
  match Literal.readInteger? text with
  | some n =>
    if n > Int64.maxValue.toInt then .error ⟨text, .integerTooLarge⟩
    else if n < Int64.minValue.toInt then .error ⟨text, .integerTooSmall⟩
    else .ok (.number (.integer (.ofInt n)))
  | none =>
    match Literal.readDecimal? text with
    | some literal => .ok (.number literal)
    | none =>
      if Address.isNameShaped text then
        (Address.ofName? text).elim (.error ⟨text, .invalidAddress⟩) (.ok <| .reference ·)
      else if text.isEmpty then .ok .blank
      else .error ⟨text, .unsupportedTerminal⟩

/-- The two operands of the last `op` in a text. Neither may be blank. -/
def splitOperands (op : Operator) (text : List Char) :
    Except ParseError (List Char × List Char) :=
  let text := Text.trim text
  if text.isEmpty then .error ⟨text, .nothingToSplit⟩
  else match Text.splitLast? op.symbol text with
    | none => .error ⟨text, .operatorMissing op⟩
    | some (left, right) =>
      if left.all Text.isBlank || right.all Text.isBlank then
        .error ⟨text, .operandMissing op⟩
      else .ok (left, right)

theorem length_lt_of_splitOperands {op : Operator} {text left right : List Char}
    (h : splitOperands op text = .ok (left, right)) :
    left.length < text.length ∧ right.length < text.length := by
  have short := Text.length_trim_le text
  simp only [splitOperands] at h
  split at h
  · contradiction
  · split at h
    · contradiction
    · next hs =>
      split at h
      · contradiction
      · obtain ⟨hl, -⟩ := Text.splitLast?_eq_some_iff.1 hs
        have := congrArg List.length hl
        simp only [Except.ok.injEq, Prod.mk.injEq] at h
        simp only [List.length_append, List.length_cons, h] at this
        omega

/-- Reads a text of supported characters. The operator to split at is the first one in the order of
`Operator.all` that stands inside the text: at its start it is a sign. -/
def parseText (text : List Char) : Except ParseError (Expr Literal) :=
  match Operator.all.find? (Text.hasInner ·.symbol (Text.trim text)) with
  | none => parseTerminal text
  | some op =>
    match _split : splitOperands op text with
    | .error e => .error e
    | .ok (left, right) => do return .binary op (← parseText left) (← parseText right)
termination_by text.length
decreasing_by
  · exact (length_lt_of_splitOperands _split).1
  · exact (length_lt_of_splitOperands _split).2

def parseBinary (op : Operator) (text : List Char) : Except ParseError (Expr Literal) := do
  let (left, right) ← splitOperands op text
  return .binary op (← parseText left) (← parseText right)

def parse (text : List Char) : Except ParseError (Expr Literal) :=
  match text.find? (!isCellChar ·) with
  | some c => .error ⟨text, .unsupportedCharacter c⟩
  | none => parseText text

theorem parseText_eq (text : List Char) :
    parseText text =
      match Operator.all.find? (Text.hasInner ·.symbol (Text.trim text)) with
      | none => parseTerminal text
      | some op => parseBinary op text := by
  rw [parseText]
  split
  · rfl
  · next op _ =>
    rw [parseBinary]
    split <;> next h => rw [h]; rfl

end Expr

def Formula.parse (text : List Char) : Except ParseError Formula :=
  (Expr.parse text).map (.map Literal.toNumber)

end Spreadsheet
