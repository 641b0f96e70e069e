import Spreadsheet.Decimal
import Spreadsheet.Sheet.Eval

namespace Spreadsheet

inductive Policy
  | strict
  /-- Blank cells read as empty text. References to them fail all the same. -/
  | formatted
deriving DecidableEq, Repr, Inhabited

namespace Policy

def name : Policy → String
  | strict => "strict"
  | formatted => "formatted"

def title : Policy → String
  | strict => "Strict"
  | formatted => "Formatted"

def ofName? (name : String) : Option Policy :=
  [strict, formatted].find? (·.name = name)

end Policy

namespace Sheet

variable (sheet : Sheet)

def lookUp (a : Address) : Except ReadError (Option Formula) :=
  if sheet.covers a then .ok (sheet.find? a) else .error (.outOfRange a)

def value (f : Formula) : Except ReadError Float :=
  (sheet.eval ∅ f).result

/-- The value of a cell. The cell itself counts as entered only once a reference leads to it. -/
def get (a : Address) : Except ReadError Float := do
  match ← sheet.lookUp a with
  | none => .error .blank
  | some f => sheet.value f

/-- The text of a formula, going on from the cells that were entered before, and the cells entered
after it. A blank is empty text; a blank operand is still an error. -/
def display (places : Nat) (v : Visits) (f : Formula) : Except ReadError (List Char) × Visits :=
  if f = .blank then (.ok [], v)
  else
    let e := sheet.eval v f
    (e.result.map (Decimal.fixed places), e.visits)

def getStrict (places : Nat) (a : Address) : Except ReadError (List Char) :=
  (sheet.get a).map (Decimal.fixed places)

def getFormatted (places : Nat) (a : Address) : Except ReadError (List Char) := do
  match ← sheet.lookUp a with
  | none => .ok []
  | some f => (sheet.display places ∅ f).1

def read (policy : Policy) (places : Nat) (a : Address) : Except ReadError (List Char) :=
  match policy with
  | .strict => sheet.getStrict places a
  | .formatted => sheet.getFormatted places a

variable {sheet}

theorem get_of_covers {a : Address} (hc : sheet.covers a) :
    sheet.get a = (sheet.find? a).elim (.error .blank) sheet.value := by
  cases hf : sheet.find? a <;> simp [get, lookUp, hc, hf, bind, Except.bind]

theorem get_of_not_covers {a : Address} (hc : ¬ sheet.covers a) :
    sheet.get a = .error (.outOfRange a) := by
  simp [get, lookUp, hc, bind, Except.bind]

theorem get_eq_ok_iff {a : Address} {x : Float} :
    sheet.get a = .ok x ↔
      sheet.covers a ∧ ∃ f, sheet.find? a = some f ∧ sheet.value f = .ok x := by
  by_cases hc : sheet.covers a
  · rw [get_of_covers hc]
    cases sheet.find? a <;> simp [hc]
  · simp [get_of_not_covers hc, hc]

/-- Only a blank cell of the block reads differently under the two policies. -/
theorem getFormatted_eq (places : Nat) (a : Address) :
    sheet.getFormatted places a =
      if sheet.covers a ∧ (sheet.find? a).getD .blank = .blank then .ok []
      else sheet.getStrict places a := by
  by_cases hc : sheet.covers a
  · cases hf : sheet.find? a with
    | none => simp [getFormatted, lookUp, hc, hf, bind, Except.bind]
    | some f =>
      by_cases hb : f = .blank <;>
        simp [getFormatted, getStrict, get, lookUp, hc, hf, hb, bind, Except.bind, display, value]
  · simp [getFormatted, getStrict, get, lookUp, hc, bind, Except.bind, Except.map]

theorem getStrict_eq_ok_iff {places : Nat} {a : Address} {text : List Char} :
    sheet.getStrict places a = .ok text ↔ ∃ x, sheet.get a = .ok x ∧ Decimal.fixed places x = text := by
  rw [getStrict]
  cases sheet.get a <;> simp [Except.map]

theorem get_ne_ok_of_blank {a : Address} (h : (sheet.find? a).getD .blank = .blank) (x : Float) :
    sheet.get a ≠ .ok x := by
  intro hget
  obtain ⟨-, f, hf, hvalue⟩ := get_eq_ok_iff.1 hget
  rw [hf] at h
  rw [show f = .blank from h, value, eval_blank] at hvalue
  contradiction

/-- A cell reads as empty text if it is blank and blanks may be read, and else as its value. -/
theorem read_eq_ok_iff {policy : Policy} {places : Nat} {a : Address} {text : List Char} :
    sheet.read policy places a = .ok text ↔
      policy = .formatted ∧ sheet.covers a = true ∧ (sheet.find? a).getD .blank = .blank ∧ text = [] ∨
        ∃ x, sheet.get a = .ok x ∧ Decimal.fixed places x = text := by
  cases policy with
  | strict =>
    rw [read, getStrict_eq_ok_iff]
    simp
  | formatted =>
    rw [read, getFormatted_eq]
    split
    · next h =>
      simp [h, get_ne_ok_of_blank h.2, eq_comm]
    · next h =>
      rw [getStrict_eq_ok_iff]
      constructor
      · exact .inr
      · rintro (⟨-, hc, hb, -⟩ | hx)
        · exact absurd ⟨hc, hb⟩ h
        · exact hx

variable (sheet)

def readLog (a : Address) : List Log.Entry :=
  match sheet.lookUp a with
  | .ok (some f) => (sheet.eval ∅ f).log
  | _ => []

end Sheet

end Spreadsheet
