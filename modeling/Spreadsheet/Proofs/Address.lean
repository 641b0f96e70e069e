import Spreadsheet.Address
import Spreadsheet.Proofs.Text.Digits

/-! Coordinates of cells, and their names: one letter, and digits that write the row. -/
namespace Spreadsheet.Address

theorem exists_at? {row column : Nat} (hrow : 1 ≤ row) (hrow' : row ≤ maxRows)
    (hcolumn : 1 ≤ column) (hcolumn' : column ≤ maxColumns) : ∃ a, at? row column = some a :=
  ⟨⟨row, column, hrow, hrow', hcolumn, hcolumn'⟩, at?_eq_some_iff.2 ⟨rfl, rfl⟩⟩

theorem at?_eq_none {row column : Nat} (h : row = 0 ∨ column = 0) : at? row column = none :=
  dif_neg (by omega)

theorem ofCoordinates_eq_ok {row column : Nat} {a : Address} (ha : at? row column = some a) :
    ofCoordinates row column = .ok a := by
  rw [ofCoordinates, ha]
  rfl

theorem columnOfLetter?_eq_some_iff {c : Char} {a : Address} :
    columnOfLetter? c = some a.column ↔ c = a.letter := by
  constructor
  · intro h
    simp only [columnOfLetter?] at h
    split at h
    · next hc =>
      have hle : 'A'.toNat ≤ c.toNat := hc.1
      have hcol := Option.some.inj h
      have : 'A'.toNat + a.column - 1 = c.toNat := by omega
      rw [letter, this, Char.ofNat_toNat]
    · contradiction
  · rintro rfl
    exact columnOfLetter?_letter a

/-- A text names a cell exactly if it is the letter of its column before digits of its row. -/
theorem ofName?_eq_some_iff {s : List Char} {a : Address} :
    ofName? s = some a ↔
      ∃ digits, s = a.letter :: digits ∧ IsDigits digits ∧ Nat.ofDigitChars 10 digits 0 = a.row := by
  cases s with
  | nil => simp [ofName?]
  | cons c digits =>
    by_cases hd : IsDigits digits
    · have hrow : rowOfDigits? digits = some (Nat.ofDigitChars 10 digits 0) := by
        rw [rowOfDigits?, if_pos (isDigits_iff.1 hd)]
      constructor
      · intro h
        simp only [ofName?, hrow, Option.bind_eq_bind, Option.bind_some, Option.bind_eq_some_iff,
          at?_eq_some_iff] at h
        obtain ⟨column, hcol, hr, rfl⟩ := h
        rw [columnOfLetter?_eq_some_iff.1 hcol]
        exact ⟨digits, rfl, hd, hr.symm⟩
      · rintro ⟨_, heq, -, hr⟩
        obtain ⟨rfl, rfl⟩ := List.cons.inj heq
        simp only [ofName?, hrow, columnOfLetter?_letter, Option.bind_eq_bind, Option.bind_some,
          at?_eq_some_iff, and_true]
        exact hr.symm
    · have hrow : rowOfDigits? digits = none := by
        rw [rowOfDigits?, if_neg (fun h => hd (isDigits_iff.2 h))]
      simp only [ofName?, hrow, Option.bind_eq_bind, Option.bind_none, reduceCtorEq, false_iff]
      rintro ⟨_, heq, hd', -⟩
      obtain ⟨-, rfl⟩ := List.cons.inj heq
      exact hd hd'

theorem isNameShaped_of_ofName? {s : List Char} {a : Address} (h : ofName? s = some a) :
    isNameShaped s = true := by
  obtain ⟨digits, rfl, hd, -⟩ := ofName?_eq_some_iff.1 h
  simp only [isNameShaped, columnOfLetter?_letter, rowOfDigits?, if_pos (isDigits_iff.1 hd)]
  rfl

def Before (a b : Address) : Prop :=
  a.row < b.row ∨ a.row = b.row ∧ a.column < b.column

theorem compare_eq_lt_iff {a b : Address} : compare a b = .lt ↔ a.Before b := by
  rw [show compare a b = (compare a.row b.row).then (compare a.column b.column) from rfl,
    Ordering.then_eq_lt, Nat.compare_eq_lt, Nat.compare_eq_lt, Nat.compare_eq_eq]
  rfl

theorem Before.asymm {a b : Address} (h : a.Before b) : ¬ b.Before a := by
  unfold Before at *
  omega

theorem before_trichotomy (a b : Address) : a.Before b ∨ a = b ∨ b.Before a := by
  cases h : compare a b with
  | lt => exact .inl (compare_eq_lt_iff.1 h)
  | eq => exact .inr (.inl (Std.LawfulEqOrd.eq_of_compare h))
  | gt => exact .inr (.inr (compare_eq_lt_iff.1 (Std.OrientedCmp.lt_of_gt h)))

theorem nodup_of_pairwise_before {as : List Address} (h : as.Pairwise Before) : as.Nodup :=
  h.imp fun hab heq => (heq ▸ hab).asymm (heq ▸ hab)

/-- At most one list holds given cells in this order, each once. -/
theorem eq_of_pairwise_before {as bs : List Address} (ha : as.Pairwise Before)
    (hb : bs.Pairwise Before) (h : ∀ a, a ∈ as ↔ a ∈ bs) : as = bs := by
  have hperm : as.Perm bs := (List.perm_ext_iff_of_nodup (nodup_of_pairwise_before ha)
    (nodup_of_pairwise_before hb)).2 h
  refine List.Perm.eq_of_pairwise ?_ ha hb hperm
  intro a b _ _ hab hba
  exact absurd hba hab.asymm

end Spreadsheet.Address
