import Spreadsheet.Expr
import Spreadsheet.Text.Blank

namespace Spreadsheet

def IsDigits (s : List Char) : Prop :=
  s ≠ [] ∧ ∀ c ∈ s, c.isDigit = true

theorem isDigits_iff {s : List Char} :
    IsDigits s ↔ (!s.isEmpty && s.all Char.isDigit) = true := by
  simp [IsDigits]

theorem isDigits_toDigits (n : Nat) : IsDigits (Nat.toDigits 10 n) :=
  ⟨Nat.toDigits_ne_nil, fun _ hc => Nat.isDigit_of_mem_toDigits (by decide) (by decide) hc⟩

private theorem digitChar_of_isDigit {c : Char} (hc : c.isDigit = true) :
    c.toNat - '0'.toNat < 10 ∧ (c.toNat - '0'.toNat).digitChar = c := by
  have hle : 48 ≤ c.toNat ∧ c.toNat ≤ 57 := by
    simpa [Char.isDigit, UInt32.le_iff_toNat_le] using hc
  have hall : ∀ n < 10, n.digitChar = Char.ofNat (48 + n) := by decide
  have hlt : c.toNat - 48 < 10 := by omega
  refine ⟨hlt, ?_⟩
  rw [show '0'.toNat = 48 from rfl, hall _ hlt, Nat.add_sub_cancel' hle.1, Char.ofNat_toNat]

/-- Digits behind a number that is not zero are written as they stand. -/
theorem toDigits_ofDigitChars_append {digits : List Char} (hd : ∀ c ∈ digits, c.isDigit = true)
    {n : Nat} (hn : 0 < n) :
    Nat.toDigits 10 (Nat.ofDigitChars 10 digits n) = Nat.toDigits 10 n ++ digits := by
  induction digits generalizing n with
  | nil => simp
  | cons c digits ih =>
    rw [List.forall_mem_cons] at hd
    obtain ⟨hlt, hc⟩ := digitChar_of_isDigit hd.1
    rw [Nat.ofDigitChars_cons, ih hd.2 (by omega),
      ← Nat.toDigits_append_toDigits (by decide) hn hlt, Nat.toDigits_of_lt_base hlt, hc]
    simp

/-- A number is written as the digits that it was read from, without the zeros before them. -/
theorem toDigits_ofDigitChars {digits : List Char} (hd : ∀ c ∈ digits, c.isDigit = true)
    (hne : Nat.ofDigitChars 10 digits 0 ≠ 0) :
    Nat.toDigits 10 (Nat.ofDigitChars 10 digits 0) = digits.dropWhile (· = '0') := by
  induction digits with
  | nil => exact absurd rfl hne
  | cons c digits ih =>
    rw [List.forall_mem_cons] at hd
    rw [Nat.ofDigitChars_cons, Nat.mul_zero, Nat.zero_add] at hne ⊢
    obtain ⟨hlt, hc⟩ := digitChar_of_isDigit hd.1
    by_cases hzero : c = '0'
    · subst hzero
      rw [List.dropWhile_cons_of_pos (by decide)]
      exact ih hd.2 hne
    · have hpos : 0 < c.toNat - '0'.toNat := by
        refine Nat.pos_of_ne_zero fun h => hzero ?_
        rw [← hc, h]
        rfl
      rw [List.dropWhile_cons_of_neg (by simpa using hzero), toDigits_ofDigitChars_append hd.2 hpos,
        Nat.toDigits_of_lt_base hlt, hc, List.singleton_append]

theorem Operator.symbol_injective : Function.Injective Operator.symbol := by
  intro o op h
  have := ofSymbol?_eq_some_iff.2 h
  rw [ofSymbol?_eq_some_iff.2 rfl] at this
  exact (Option.some.inj this).symm

def IsSolid (c : Char) : Prop :=
  Text.isBlank c = false ∧ Operator.ofSymbol? c = none
deriving Decidable

theorem IsSolid.ne_symbol {c : Char} (hc : IsSolid c) (op : Operator) : op.symbol ≠ c := by
  intro h
  have hnone := hc.2
  rw [Operator.ofSymbol?_eq_some_iff.2 h] at hnone
  contradiction

theorem isSolid_of_isDigit {c : Char} (hc : c.isDigit = true) : IsSolid c := by
  obtain ⟨hlt, heq⟩ := digitChar_of_isDigit hc
  have hall : ∀ n < 10, IsSolid n.digitChar := by decide
  exact heq ▸ hall _ hlt

theorem forall_letter (p : Char → Prop) (a : Address)
    (h : ∀ n < 27, 1 ≤ n → p (Char.ofNat ('A'.toNat + n - 1))) : p a.letter :=
  h a.column (Nat.lt_succ_of_le a.column_le) a.one_le_column

theorem isSolid_letter (a : Address) : IsSolid a.letter :=
  forall_letter IsSolid a (by decide)

end Spreadsheet
