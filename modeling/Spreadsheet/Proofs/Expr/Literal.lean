import Mathlib.Algebra.Group.Int.Defs
import Mathlib.Data.List.TakeWhile
import Spreadsheet.Expr.Literal
import Spreadsheet.Proofs.Text.Digits

namespace Spreadsheet

def signedValue (negative : Bool) (digits : List Char) : Int :=
  if negative then -(Nat.ofDigitChars 10 digits 0 : Int) else Nat.ofDigitChars 10 digits 0

/-- Unsigned text of a literal, with the value that the literal has under a sign. An integer has to
fit into 64 bits with its sign. -/
inductive IsNumeral (negative : Bool) : List Char → Literal → Prop
  | integer {digits : List Char} :
      IsDigits digits → -2 ^ 63 ≤ signedValue negative digits →
      signedValue negative digits < 2 ^ 63 →
      IsNumeral negative digits (.integer (.ofInt (signedValue negative digits)))
  | decimal {whole fraction : List Char} :
      (∀ c ∈ whole, c.isDigit = true) → IsDigits fraction →
      IsNumeral negative (whole ++ '.' :: fraction)
        (.decimal negative (Nat.ofDigitChars 10 (whole ++ fraction) 0) fraction.length)

def withSign (negative : Bool) (s : List Char) : List Char :=
  if negative then '-' :: s else s

namespace Literal

theorem takeSign_withSign {s : List Char} (hs : s.head? ≠ some '-') (negative : Bool) :
    takeSign (withSign negative s) = (negative, s) := by
  cases negative with
  | true => rfl
  | false =>
    show takeSign s = (false, s)
    unfold takeSign
    split
    · exact absurd rfl hs
    · rfl

theorem withSign_takeSign (s : List Char) : withSign (takeSign s).1 (takeSign s).2 = s := by
  unfold takeSign
  split <;> rfl

theorem readInteger?_withSign {digits : List Char} (hd : IsDigits digits) (negative : Bool) :
    readInteger? (withSign negative digits) = some (signedValue negative digits) := by
  have hhead : digits.head? ≠ some '-' := by
    intro h
    have := hd.2 '-' (List.mem_of_mem_head? h)
    contradiction
  simp only [readInteger?, takeSign_withSign hhead, isDigits_iff.1 hd, if_true, signedValue]

theorem exists_of_readInteger?_eq_some {s : List Char} {n : Int} (h : readInteger? s = some n) :
    ∃ negative digits, s = withSign negative digits ∧ IsDigits digits ∧
      n = signedValue negative digits := by
  simp only [readInteger?] at h
  split at h
  · next hd =>
    exact ⟨(takeSign s).1, (takeSign s).2, (withSign_takeSign s).symm, isDigits_iff.2 hd,
      (Option.some.inj h).symm⟩
  · contradiction

theorem readDecimal?_withSign {whole fraction : List Char} (hw : ∀ c ∈ whole, c.isDigit = true)
    (hf : IsDigits fraction) (negative : Bool) :
    readDecimal? (withSign negative (whole ++ '.' :: fraction)) =
      some (.decimal negative (Nat.ofDigitChars 10 (whole ++ fraction) 0) fraction.length) := by
  have hhead : (whole ++ '.' :: fraction).head? ≠ some '-' := by
    cases whole with
    | nil => simp
    | cons c whole =>
      rintro ⟨⟩
      exact absurd (hw '-' (List.mem_cons_self ..)) (by decide)
  have htake : (whole ++ '.' :: fraction).takeWhile Char.isDigit = whole := by
    rw [List.takeWhile_append_of_pos hw, List.takeWhile_cons_of_neg (by decide), List.append_nil]
  have hdrop : (whole ++ '.' :: fraction).dropWhile Char.isDigit = '.' :: fraction := by
    rw [List.dropWhile_append_of_pos hw, List.dropWhile_cons_of_neg (by decide)]
  simp only [readDecimal?, takeSign_withSign hhead, htake, hdrop, isDigits_iff.1 hf, if_true]

theorem exists_of_readDecimal?_eq_some {s : List Char} {n : Literal} (h : readDecimal? s = some n) :
    ∃ negative whole fraction, s = withSign negative (whole ++ '.' :: fraction) ∧
      (∀ c ∈ whole, c.isDigit = true) ∧ IsDigits fraction ∧
      n = .decimal negative (Nat.ofDigitChars 10 (whole ++ fraction) 0) fraction.length := by
  simp only [readDecimal?] at h
  split at h
  · next fraction hdrop =>
    split at h
    · next hf =>
      refine ⟨(takeSign s).1, (takeSign s).2.takeWhile Char.isDigit, fraction, ?_,
        fun c hc => List.mem_takeWhile_imp hc, isDigits_iff.2 hf, (Option.some.inj h).symm⟩
      rw [← hdrop, List.takeWhile_append_dropWhile, withSign_takeSign]
    · contradiction
  · contradiction

theorem readInteger?_eq_none_of_mem {s : List Char} {c : Char} (hc : c ∈ s) (hne : c ≠ '-')
    (hd : c.isDigit = false) : readInteger? s = none := by
  cases h : readInteger? s with
  | none => rfl
  | some n =>
    obtain ⟨negative, digits, rfl, hdigits, -⟩ := exists_of_readInteger?_eq_some h
    have hmem : c ∈ digits := by
      cases negative with
      | false => exact hc
      | true => exact (List.mem_cons.1 hc).resolve_left hne
    rw [hdigits.2 c hmem] at hd
    contradiction

theorem readDecimal?_eq_none_of_not_mem {s : List Char} (hs : '.' ∉ s) : readDecimal? s = none := by
  cases h : readDecimal? s with
  | none => rfl
  | some n =>
    obtain ⟨negative, whole, fraction, rfl, -⟩ := exists_of_readDecimal?_eq_some h
    cases negative <;> simp [withSign] at hs

end Literal

end Spreadsheet
