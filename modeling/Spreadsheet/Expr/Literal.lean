import Spreadsheet.Expr

namespace Spreadsheet

/-- A number literal: a 64-bit integer, or `digits / 10 ^ places` with a sign that zero keeps. -/
inductive Literal
  | integer (n : Int64)
  | decimal (negative : Bool) (digits places : Nat)
deriving DecidableEq, Repr

namespace Literal

-- Powers are those of `Nat`, also where monoids are known.
attribute [local instance (high)] instPowNat

def toNumber : Literal → Number
  | integer n => .integer n
  | decimal negative digits places => .float (Binary64.nearest negative digits (10 ^ places))

def takeSign : List Char → Bool × List Char
  | '-' :: rest => (true, rest)
  | text => (false, text)

def readInteger? (text : List Char) : Option Int :=
  let (negative, digits) := takeSign text
  if !digits.isEmpty && digits.all Char.isDigit then
    let n := Nat.ofDigitChars 10 digits 0
    some (if negative then -n else n)
  else none

/-- The decimal that an optional minus sign, digits, a point and further digits write.
There may be no digit before the point, but there is one after it. -/
def readDecimal? (text : List Char) : Option Literal :=
  let (negative, unsigned) := takeSign text
  let whole := unsigned.takeWhile Char.isDigit
  match unsigned.dropWhile Char.isDigit with
  | '.' :: fraction =>
    if !fraction.isEmpty && fraction.all Char.isDigit then
      some (.decimal negative (Nat.ofDigitChars 10 (whole ++ fraction) 0) fraction.length)
    else none
  | _ => none

end Literal

end Spreadsheet
