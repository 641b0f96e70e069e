import Spreadsheet.Address
import Spreadsheet.Binary64

/-! Cell expressions: constants, blanks, references, and arithmetic on two operands.
What stands for a constant is left open, so one tree can hold exact literals or numbers. -/
namespace Spreadsheet

inductive Operator
  | add
  | subtract
  | multiply
  | divide
deriving DecidableEq, Repr

namespace Operator

def symbol : Operator → Char
  | add => '+'
  | subtract => '-'
  | multiply => '*'
  | divide => '/'

/-- All operators, in the order in which they are looked for when text is split. -/
def all : List Operator :=
  [add, subtract, multiply, divide]

def ofSymbol? (c : Char) : Option Operator :=
  all.find? (·.symbol = c)

theorem ofSymbol?_eq_some_iff {c : Char} {op : Operator} :
    ofSymbol? c = some op ↔ op.symbol = c := by
  constructor
  · intro h
    simpa using List.find?_some h
  · rintro rfl
    cases op <;> decide

def apply : Operator → Float → Float → Float
  | add => (· + ·)
  | subtract => (· - ·)
  | multiply => (· * ·)
  | divide => (· / ·)

end Operator

inductive Expr (ν : Type)
  | number (n : ν)
  | blank
  | reference (a : Address)
  | binary (op : Operator) (left right : Expr ν)
deriving DecidableEq, Repr

namespace Expr

variable {ν μ : Type}

instance : Inhabited (Expr ν) := ⟨blank⟩

def map (f : ν → μ) : Expr ν → Expr μ
  | number n => number (f n)
  | blank => blank
  | reference a => reference a
  | binary op l r => binary op (l.map f) (r.map f)

def operator? : Expr ν → Option Operator
  | binary op _ _ => some op
  | _ => none

def operands? : Expr ν → Option (Expr ν × Expr ν)
  | binary _ l r => some (l, r)
  | _ => none

def isLeaf (e : Expr ν) : Bool :=
  e.operator?.isNone

theorem map_map {ξ : Type} (g : μ → ξ) (f : ν → μ) (e : Expr ν) :
    (e.map f).map g = e.map (g ∘ f) := by
  induction e <;> simp_all [map]

end Expr

inductive Number
  | integer (n : Int64)
  | float (x : Float)
deriving DecidableEq, Repr

def Number.toFloat : Number → Float
  | integer n => Binary64.ofInt n.toInt
  | float x => x

abbrev Formula := Expr Number

end Spreadsheet
