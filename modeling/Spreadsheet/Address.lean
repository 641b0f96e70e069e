/-! Cell addresses: a column named by one letter and a row number, both counted from one. -/
namespace Spreadsheet

def maxColumns : Nat := 26

def maxRows : Nat := UInt32.size - 1

structure Address where
  row : Nat
  column : Nat
  one_le_row : 1 ≤ row
  row_le : row ≤ maxRows
  one_le_column : 1 ≤ column
  column_le : column ≤ maxColumns
deriving DecidableEq, Repr

structure InvalidAddress where
  text : String
deriving DecidableEq, Repr

def InvalidAddress.message (e : InvalidAddress) : String :=
  s!"Invalid cell address: {e.text}"

/-- A format of stored data that can hold texts. -/
structure TextFormat (δ ε : Type) where
  write : String → Except ε δ
  read : δ → Except ε String
  /-- What the format says of a text that stands for nothing, by the reason for that. -/
  refusal : String → ε

namespace Address

instance : Ord Address where
  compare a b := (compare a.row b.row).then (compare a.column b.column)

instance : Std.TransOrd Address :=
  inferInstanceAs (Std.TransCmp (compareLex (compareOn Address.row) (compareOn Address.column)))

instance : Std.LawfulEqOrd Address where
  eq_of_compare {a b} h := by
    obtain ⟨hr, hc⟩ := Ordering.then_eq_eq.1 (show (compare a.row b.row).then _ = .eq from h)
    have hr := Nat.compare_eq_eq.1 hr
    have hc := Nat.compare_eq_eq.1 hc
    cases a; cases b
    simp_all

def at? (row column : Nat) : Option Address :=
  if h : (1 ≤ row ∧ row ≤ maxRows) ∧ 1 ≤ column ∧ column ≤ maxColumns then
    some ⟨row, column, h.1.1, h.1.2, h.2.1, h.2.2⟩
  else none

theorem at?_eq_some_iff {row column : Nat} {a : Address} :
    at? row column = some a ↔ a.row = row ∧ a.column = column := by
  have := a.one_le_row; have := a.row_le; have := a.one_le_column; have := a.column_le
  cases a
  unfold at?
  grind

def ofCoordinates (row column : Nat) : Except InvalidAddress Address :=
  (at? row column).elim (.error ⟨s!"row {row} column {column}"⟩) .ok

def columnOfLetter? (c : Char) : Option Nat :=
  if 'A' ≤ c ∧ c ≤ 'Z' then some (c.toNat - 'A'.toNat + 1) else none

def letter (a : Address) : Char :=
  .ofNat ('A'.toNat + a.column - 1)

theorem columnOfLetter?_letter (a : Address) : columnOfLetter? a.letter = some a.column := by
  obtain ⟨row, column, _, _, h1, h2⟩ := a
  simp only [maxColumns] at h2
  have : ∀ n < 27, 1 ≤ n → columnOfLetter? (.ofNat ('A'.toNat + n - 1)) = some n := by decide
  exact this column (by omega) h1

def nameChars (a : Address) : List Char :=
  a.letter :: Nat.toDigits 10 a.row

def name (a : Address) : String :=
  .ofList a.nameChars

instance : ToString Address := ⟨name⟩

/-- The row number that digits write. Zeros may stand before it, but no sign. -/
def rowOfDigits? (digits : List Char) : Option Nat :=
  if !digits.isEmpty && digits.all Char.isDigit then some (Nat.ofDigitChars 10 digits 0) else none

/-- Whether text looks like a name: a capital letter and digits. The row may still not exist. -/
def isNameShaped : List Char → Bool
  | [] => false
  | c :: digits => (columnOfLetter? c).isSome && (rowOfDigits? digits).isSome

def ofName? : List Char → Option Address
  | [] => none
  | c :: digits => do at? (← rowOfDigits? digits) (← columnOfLetter? c)

def parse (name : List Char) : Except InvalidAddress Address :=
  (ofName? name).elim (.error ⟨.ofList name⟩) .ok

def ofParts (row column : List Char) : Except InvalidAddress Address :=
  let found : Option Address := match column with
    | [c] => do at? (← rowOfDigits? row) (← columnOfLetter? c)
    | _ => none
  found.elim (.error ⟨.ofList (row ++ ',' :: column)⟩) .ok

variable {δ ε : Type}

def store (format : TextFormat δ ε) (a : Address) : Except ε δ :=
  format.write a.name

def load (format : TextFormat δ ε) (data : δ) : Except ε Address := do
  let name ← format.read data
  (parse name.toList).mapError (format.refusal ·.message)

/-- The lower right corner of the smallest block from A1 on that holds both cells. -/
def join (a b : Address) : Address where
  row := max a.row b.row
  column := max a.column b.column
  one_le_row := Nat.le_trans a.one_le_row (Nat.le_max_left ..)
  row_le := Nat.max_le.2 ⟨a.row_le, b.row_le⟩
  one_le_column := Nat.le_trans a.one_le_column (Nat.le_max_left ..)
  column_le := Nat.max_le.2 ⟨a.column_le, b.column_le⟩

end Address

end Spreadsheet
