import Spreadsheet.Binary64

namespace Spreadsheet.Decimal

-- Powers are those of `Nat`, also where monoids are known.
attribute [local instance (high)] instPowNat

/-- The integer nearest to `num / den`, of two equally near ones the even one. -/
def roundHalfEven (num den : Nat) : Nat :=
  let quotient := num / den
  match compare (2 * (num % den)) den with
  | .lt => quotient
  | .eq => quotient + quotient % 2
  | .gt => quotient + 1

def lastDigits (places n : Nat) : List Char :=
  let digits := Nat.toDigits 10 (n % 10 ^ places)
  List.replicate (places - digits.length) '0' ++ digits

def fixedUnits (places n : Nat) : List Char :=
  Nat.toDigits 10 (n / 10 ^ places) ++
    if places = 0 then [] else '.' :: lastDigits places n

/-- A number with `places` decimals: its exact value is rounded, a half to the even neighbour.
The sign is kept, also where zero is left. NaN has none. -/
def fixed (places : Nat) (x : Float) : List Char :=
  let place := Binary64.place x
  if Binary64.infinityPlace < place then "NaN".toList
  else
    (if Binary64.isNegative x then ['-'] else []) ++
      if place = Binary64.infinityPlace then "inf".toList
      else fixedUnits places
        (roundHalfEven (Binary64.magnitude place * 10 ^ places) Binary64.scale)

end Spreadsheet.Decimal
