import Mathlib.Algebra.Group.Nat.Defs
import Mathlib.Logic.Function.Defs
import Spreadsheet.Proofs.Address
import Spreadsheet.Proofs.Except

/-! Names of cells, read and written. Every address has one name without zeros before its row, and
all ways to get an address from texts or numbers agree on which there are. -/
namespace Spreadsheet.Address

def IsName (s : List Char) (letter : Char) (digits : List Char) : Prop :=
  s = letter :: digits ∧ 'A' ≤ letter ∧ letter ≤ 'Z' ∧ IsDigits digits ∧
    1 ≤ Nat.ofDigitChars 10 digits 0 ∧ Nat.ofDigitChars 10 digits 0 ≤ 2 ^ 32 - 1

variable {s row column digits : List Char} {c : Char} {a : Address}

theorem parse_eq_ok_iff : parse s = .ok a ↔ ofName? s = some a := by
  rw [parse, elim_error_eq_ok_iff]

theorem parse_eq_error (h : ∀ a, parse s ≠ .ok a) : parse s = .error ⟨.ofList s⟩ := by
  rw [parse]
  cases ha : ofName? s with
  | none => rfl
  | some a => exact absurd (parse_eq_ok_iff.2 ha) (h a)

theorem ofName?_nameChars (a : Address) : ofName? a.nameChars = some a :=
  ofName?_eq_some_iff.2 ⟨_, rfl, isDigits_toDigits a.row, Nat.ofDigitChars_ten_toDigits⟩

theorem parse_name (a : Address) : parse a.name.toList = .ok a := by
  rw [parse_eq_ok_iff, name, String.toList_ofList, ofName?_nameChars]

theorem name_injective : Function.Injective name := by
  intro a b h
  have hb := parse_name b
  rw [← h, parse_name] at hb
  exact Except.ok.inj hb

theorem columnOfLetter?_eq_some_iff_toNat {n : Nat} :
    columnOfLetter? c = some n ↔ ('A' ≤ c ∧ c ≤ 'Z') ∧ c.toNat - 'A'.toNat + 1 = n := by
  rw [columnOfLetter?]
  split
  · next h => simp [h]
  · next h => simp [h]

theorem parse_eq_ok_iff_isName :
    parse s = .ok a ↔ ∃ letter digits, IsName s letter digits ∧
      Nat.ofDigitChars 10 digits 0 = a.row ∧ letter.toNat - 'A'.toNat + 1 = a.column := by
  rw [parse_eq_ok_iff, ofName?_eq_some_iff]
  constructor
  · rintro ⟨digits, rfl, hd, hrow⟩
    obtain ⟨⟨hfirst, hlast⟩, hcolumn⟩ :=
      columnOfLetter?_eq_some_iff_toNat.1 (columnOfLetter?_letter a)
    refine ⟨a.letter, digits, ⟨rfl, hfirst, hlast, hd, ?_, ?_⟩, hrow, hcolumn⟩
    · exact hrow ▸ a.one_le_row
    · exact hrow ▸ a.row_le
  · rintro ⟨letter, digits, ⟨rfl, hfirst, hlast, hd, -, -⟩, hrow, hcolumn⟩
    have hletter : letter = a.letter :=
      columnOfLetter?_eq_some_iff.1 (columnOfLetter?_eq_some_iff_toNat.2 ⟨⟨hfirst, hlast⟩, hcolumn⟩)
    exact ⟨digits, hletter ▸ rfl, hd, hrow⟩

/-- Each name in the grammar is that of some cell. -/
theorem IsName.exists_parse {letter : Char} (h : IsName s letter digits) :
    ∃ a, parse s = .ok a := by
  obtain ⟨hs, hfirst, hlast, hd, hrow, hrow'⟩ := h
  have hcolumn : letter.toNat - 'A'.toNat + 1 ≤ maxColumns := by
    have hle : letter.toNat ≤ 'Z'.toNat := hlast
    have hsize : 'Z'.toNat - 'A'.toNat + 1 = maxColumns := rfl
    omega
  obtain ⟨a, ha⟩ := exists_at? hrow hrow' (Nat.le_add_left 1 _) hcolumn
  obtain ⟨har, hac⟩ := at?_eq_some_iff.1 ha
  exact ⟨a, parse_eq_ok_iff_isName.2
    ⟨letter, digits, ⟨hs, hfirst, hlast, hd, hrow, hrow'⟩, har.symm, hac.symm⟩⟩

/-- The name of a cell is any other text that names it, without the zeros before the row. -/
theorem nameChars_of_parse (h : parse (c :: digits) = .ok a) :
    a.nameChars = c :: digits.dropWhile (· = '0') := by
  obtain ⟨_, heq, hd, hrow⟩ := ofName?_eq_some_iff.1 (parse_eq_ok_iff.1 h)
  obtain ⟨rfl, rfl⟩ := List.cons.inj heq
  have hne : Nat.ofDigitChars 10 digits 0 ≠ 0 := hrow ▸ Nat.ne_of_gt a.one_le_row
  rw [nameChars, ← hrow, toDigits_ofDigitChars hd.2 hne]

/-- A row and a column that are given apart are read like the name that they make. -/
theorem ofParts_eq_ok_iff :
    ofParts row column = .ok a ↔ ∃ letter, column = [letter] ∧ parse (letter :: row) = .ok a := by
  unfold ofParts
  rw [elim_error_eq_ok_iff]
  rcases column with _ | ⟨letter, _ | ⟨second, rest⟩⟩
  · simp
  · constructor
    · exact fun h => ⟨letter, rfl, parse_eq_ok_iff.2 h⟩
    · rintro ⟨_, heq, h⟩
      obtain rfl := List.head_eq_of_cons_eq heq
      exact parse_eq_ok_iff.1 h
  · simp

theorem ofCoordinates_eq_ok_iff {row column : Nat} :
    ofCoordinates row column = .ok a ↔ a.row = row ∧ a.column = column := by
  rw [ofCoordinates, elim_error_eq_ok_iff, at?_eq_some_iff]

theorem load_eq_ok_iff {δ ε : Type} {format : TextFormat δ ε} {data : δ} :
    load format data = .ok a ↔ ∃ name, format.read data = .ok name ∧ parse name.toList = .ok a := by
  simp only [load, bind_eq_ok_iff, mapError_eq_ok_iff]

/-- Stored data names a cell again, if the format reads what it wrote. -/
theorem load_of_store {δ ε : Type} {format : TextFormat δ ε} {data : δ}
    (hformat : ∀ text data, format.write text = .ok data → format.read data = .ok text)
    (h : store format a = .ok data) : load format data = .ok a :=
  load_eq_ok_iff.2 ⟨a.name, hformat _ _ h, parse_name a⟩

/-- Names are exact. The name of an address is read as this address, so that no two have the same.
A text is read exactly if it is one letter and digits that write a row that there is, and then it
is the name up to zeros before the row. Any other text is named by the error. Parts, coordinates
and stored data give the same addresses, and none outside the rows and columns. -/
theorem names_exact :
    (∀ a : Address, parse a.name.toList = .ok a) ∧ Function.Injective name ∧
    (∀ s a, parse s = .ok a ↔ ∃ letter digits, IsName s letter digits ∧
      Nat.ofDigitChars 10 digits 0 = a.row ∧ letter.toNat - 'A'.toNat + 1 = a.column) ∧
    (∀ s letter digits, IsName s letter digits →
      ∃ a, parse s = .ok a ∧ a.name = .ofList (letter :: digits.dropWhile (· = '0'))) ∧
    (∀ s, (¬ ∃ letter digits, IsName s letter digits) → parse s = .error ⟨.ofList s⟩) ∧
    (∀ row column a, ofParts row column = .ok a ↔
      column.length = 1 ∧ parse (column ++ row) = .ok a) ∧
    (∀ row column a, ofCoordinates row column = .ok a ↔ a.row = row ∧ a.column = column) ∧
    (∀ (δ ε : Type) (format : TextFormat δ ε) (data : δ) (a : Address),
      (load format data = .ok a ↔ ∃ name, format.read data = .ok name ∧ parse name.toList = .ok a) ∧
      ((∀ text data, format.write text = .ok data → format.read data = .ok text) →
        store format a = .ok data → load format data = .ok a)) ∧
    ∀ a : Address, (1 ≤ a.row ∧ a.row ≤ 2 ^ 32 - 1) ∧ 1 ≤ a.column ∧ a.column ≤ 26 := by
  refine ⟨parse_name, name_injective, fun s a => parse_eq_ok_iff_isName, ?_, ?_, ?_,
    fun row column a => ofCoordinates_eq_ok_iff,
    fun δ ε format data a => ⟨load_eq_ok_iff, load_of_store⟩,
    fun a => ⟨⟨a.one_le_row, a.row_le⟩, a.one_le_column, a.column_le⟩⟩
  · intro s letter digits h
    obtain ⟨a, ha⟩ := h.exists_parse
    rw [h.1] at ha ⊢
    exact ⟨a, ha, congrArg String.ofList (nameChars_of_parse ha)⟩
  · intro s hnone
    refine parse_eq_error fun a ha => hnone ?_
    obtain ⟨letter, digits, h, -⟩ := parse_eq_ok_iff_isName.1 ha
    exact ⟨letter, digits, h⟩
  · intro row column a
    rw [ofParts_eq_ok_iff, List.length_eq_one_iff]
    constructor
    · rintro ⟨letter, rfl, h⟩
      exact ⟨⟨letter, rfl⟩, h⟩
    · rintro ⟨⟨letter, rfl⟩, h⟩
      exact ⟨letter, rfl, h⟩

/-- A cell of the last column, stored between quotes. -/
theorem names_exact_between_quotes :
    let quoted : TextFormat (List Char) String :=
      { write := fun text => .ok ('"' :: text.toList ++ ['"']),
        read := fun data => match data with
          | '"' :: rest =>
            if rest.getLast? = some '"' then .ok (.ofList rest.dropLast) else .error "no string"
          | _ => .error "no string",
        refusal := id }
    ∃ a : Address, a.row = 12 ∧ a.column = 26 ∧ store quoted a = .ok "\"Z12\"".toList ∧
      load quoted "\"Z12\"".toList = .ok a := by
  intro quoted
  have hformat (text : String) (data : List Char) (hdata : quoted.write text = .ok data) :
      quoted.read data = .ok text := by
    rw [← Except.ok.inj hdata]
    simp [quoted]
  obtain ⟨a, ha⟩ : ∃ a, at? 12 26 = some a := ⟨_, rfl⟩
  obtain ⟨hrow, hcolumn⟩ := at?_eq_some_iff.1 ha
  have hstore : store quoted a = .ok "\"Z12\"".toList := by
    cases ha
    rfl
  have hload := (names_exact.2.2.2.2.2.2.2.1 _ _ quoted _ a).2 hformat hstore
  exact ⟨a, hrow, hcolumn, hstore, hload⟩

end Spreadsheet.Address
