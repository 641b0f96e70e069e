import Spreadsheet.Decimal
import Spreadsheet.Proofs.Binary64
import Spreadsheet.Proofs.Expr.Parsing

namespace Spreadsheet

namespace Decimal

def IsRounded (num den n : Nat) : Prop :=
  2 * Nat.dist num (n * den) < den ∨ 2 * Nat.dist num (n * den) = den ∧ n % 2 = 0

private theorem isRounded_roundHalfEven (num : Nat) {den : Nat} (hden : 0 < den) :
    IsRounded num den (roundHalfEven num den) := by
  have hdiv : num / den * den + num % den = num := Nat.div_add_mod' num den
  have hmod : num % den < den := Nat.mod_lt num hden
  simp only [IsRounded, roundHalfEven, Nat.dist]
  split
  · next h =>
    have := Nat.compare_eq_lt.1 h
    omega
  · next h =>
    have := Nat.compare_eq_eq.1 h
    rcases Nat.mod_two_eq_zero_or_one (num / den) with heven | hodd
    · rw [heven, Nat.add_zero]
      omega
    · rw [hodd, Nat.add_mul (num / den)]
      omega
  · next h =>
    have := Nat.compare_eq_gt.1 h
    rw [Nat.add_mul (num / den)]
    omega

private theorem IsRounded.le {num den n m : Nat} (hden : 0 < den) (hn : IsRounded num den n)
    (hm : IsRounded num den m) : m ≤ n := by
  simp only [IsRounded, Nat.dist] at hn hm
  rcases Nat.lt_or_ge n m with h | h
  · obtain ⟨k, rfl⟩ := Nat.exists_eq_add_of_lt h
    rw [Nat.add_mul (n + k), Nat.add_mul n] at hm
    cases k with
    | zero => omega
    | succ k =>
      rw [Nat.add_mul k] at hm
      omega
  · exact h

theorem roundHalfEven_eq_iff {num den n : Nat} (hden : 0 < den) :
    roundHalfEven num den = n ↔ IsRounded num den n := by
  have hround := isRounded_roundHalfEven num hden
  constructor
  · rintro rfl
    exact hround
  · intro h
    exact Nat.le_antisymm (h.le hden hround) (hround.le hden h)

/-- What is at least as near to a count of units as something that rounds to it rounds to it too. -/
theorem IsRounded.of_dist_le {num num' den n : Nat} (h : IsRounded num den n)
    (hle : Nat.dist num' (n * den) ≤ Nat.dist num (n * den)) : IsRounded num' den n := by
  simp only [IsRounded] at *
  omega

open Binary64 in
/-- A count of units that a finite number rounds to is what the number nearest to that count
rounds to, however coarse the numbers are there. -/
theorem isRounded_nearestPlace {q unit n : Nat} (hunit : 0 < unit) (hq : q < infinityPlace)
    (h : IsRounded (magnitude q * unit) scale n) :
    nearestPlace n unit < infinityPlace ∧
      IsRounded (magnitude (nearestPlace n unit) * unit) scale n := by
  obtain ⟨r, hr, hmin⟩ := exists_nearestPlace_eq n hunit
  have hround : IsRounded (magnitude r * unit) scale n := h.of_dist_le (hmin q)
  have hfinite : r < infinityPlace := by
    by_contra hinf
    have hfar : (magnitude q + scale) * unit < magnitude r * unit :=
      Nat.mul_lt_mul_of_pos_right (magnitude_add_scale_lt hq (Nat.le_of_not_lt hinf)) hunit
    have hscale : scale ≤ scale * unit := Nat.le_mul_of_pos_right scale hunit
    rw [Nat.add_mul] at hfar
    simp only [IsRounded, Nat.dist] at h hround
    omega
  rw [hr, Nat.min_eq_left hfinite.le]
  exact ⟨hfinite, hround⟩

theorem length_lastDigits {places : Nat} (hplaces : 0 < places) (n : Nat) :
    (lastDigits places n).length = places := by
  have hle : (Nat.toDigits 10 (n % 10 ^ places)).length ≤ places :=
    (Nat.length_toDigits_le_iff (by decide) hplaces).2 (Nat.mod_lt _ (Nat.pow_pos (by decide)))
  simp only [lastDigits, List.length_append, List.length_replicate]
  omega

theorem isDigits_lastDigits (places n : Nat) : IsDigits (lastDigits places n) := by
  refine ⟨by simp [lastDigits], ?_⟩
  intro c hc
  rcases List.mem_append.1 hc with hc | hc
  · rw [List.eq_of_mem_replicate hc]
    rfl
  · exact (isDigits_toDigits _).2 c hc

theorem ofDigitChars_lastDigits {places : Nat} (hplaces : 0 < places) (n m : Nat) :
    Nat.ofDigitChars 10 (lastDigits places n) m = 10 ^ places * m + n % 10 ^ places := by
  rw [Nat.ofDigitChars_eq_ofDigitChars_zero, length_lastDigits hplaces, lastDigits,
    Nat.ofDigitChars_append, Nat.ofDigitChars_replicate_zero, Nat.mul_zero,
    Nat.ofDigitChars_toDigits (by decide) (by decide)]

theorem isNumeral_fixedUnits {places : Nat} (hplaces : 0 < places) (negative : Bool) (n : Nat) :
    IsNumeral negative (fixedUnits places n) (.decimal negative n places) := by
  have h := @IsNumeral.decimal negative _ _ (isDigits_toDigits (n / 10 ^ places)).2
    (isDigits_lastDigits places n)
  rw [length_lastDigits hplaces, Nat.ofDigitChars_append,
    Nat.ofDigitChars_toDigits (by decide) (by decide), ofDigitChars_lastDigits hplaces,
    Nat.div_add_mod] at h
  rwa [fixedUnits, if_neg hplaces.ne']

open Binary64 in
def units (places : Nat) (x : Float) : Nat :=
  roundHalfEven (magnitude (place x) * 10 ^ places) scale

def written (places : Nat) (x : Float) : Float :=
  Binary64.nearest (Binary64.isNegative x) (units places x) (10 ^ places)

variable {places : Nat} {x : Float}

theorem fixed_eq_of_finite (hx : Binary64.place x < Binary64.infinityPlace) :
    fixed places x = withSign (Binary64.isNegative x) (fixedUnits places (units places x)) := by
  simp only [fixed, units, if_neg (Nat.not_lt_of_gt hx), if_neg hx.ne]
  generalize roundHalfEven _ _ = n
  cases Binary64.isNegative x with
  | false => exact List.nil_append _
  | true => exact List.singleton_append

theorem parse_fixed_of_finite (hplaces : 0 < places)
    (hx : Binary64.place x < Binary64.infinityPlace) :
    Formula.parse (fixed places x) = .ok (.number (.float (written places x))) := by
  rw [fixed_eq_of_finite hx]
  exact Formula.parse_of_isNumeral (isNumeral_fixedUnits hplaces _ _)

theorem exists_parse_fixed_eq_error (places : Nat)
    (hx : Binary64.infinityPlace ≤ Binary64.place x) :
    ∃ p, Formula.parse (fixed places x) = .error p := by
  simp only [fixed]
  split
  · exact ⟨_, rfl⟩
  · next hnan =>
    rw [if_pos (Nat.le_antisymm (Nat.le_of_not_lt hnan) hx)]
    cases Binary64.isNegative x
    · exact ⟨_, rfl⟩
    · exact ⟨_, rfl⟩

theorem place_lt_of_parse_fixed {f : Formula} (h : Formula.parse (fixed places x) = .ok f) :
    Binary64.place x < Binary64.infinityPlace := by
  by_contra hinf
  obtain ⟨p, hp⟩ := exists_parse_fixed_eq_error places (Nat.le_of_not_lt hinf)
  rw [hp] at h
  contradiction

theorem exists_parse_fixed_iff (hplaces : 0 < places) :
    (∃ f, Formula.parse (fixed places x) = .ok f) ↔ x.isFinite = true := by
  rw [Binary64.isFinite_iff]
  exact ⟨fun ⟨_, hf⟩ => place_lt_of_parse_fixed hf, fun hx => ⟨_, parse_fixed_of_finite hplaces hx⟩⟩

/-- A number is written with digits, a sign, a point and the letters of what is no finite number. -/
theorem fixed_forall {p : Char → Prop} (hdigit : ∀ c, c.isDigit = true → p c)
    (hother : ∀ c ∈ ['-', '.', 'N', 'a', 'i', 'n', 'f'], p c) : ∀ c ∈ fixed places x, p c := by
  have hunits (n : Nat) : ∀ c ∈ fixedUnits places n, p c := by
    intro c hc
    rcases List.mem_append.1 hc with hc | hc
    · exact hdigit c ((isDigits_toDigits _).2 c hc)
    · split at hc
      · contradiction
      · rcases List.mem_cons.1 hc with rfl | hc
        · exact hother '.' (by decide)
        · exact hdigit c ((isDigits_lastDigits _ _).2 c hc)
  intro c hc
  simp only [fixed] at hc
  split at hc
  · exact hother c ((by decide : ['N', 'a', 'N'] ⊆ ['-', '.', 'N', 'a', 'i', 'n', 'f']) hc)
  · rcases List.mem_append.1 hc with hc | hc
    · split at hc
      · exact hother c ((by decide : ['-'] ⊆ ['-', '.', 'N', 'a', 'i', 'n', 'f']) hc)
      · contradiction
    · split at hc
      · exact hother c ((by decide : ['i', 'n', 'f'] ⊆ ['-', '.', 'N', 'a', 'i', 'n', 'f']) hc)
      · exact hunits _ c hc

/-- Writing the number that was read back writes the same text. -/
theorem fixed_written (hx : Binary64.place x < Binary64.infinityPlace) :
    fixed places (written places x) = fixed places x := by
  have hround : IsRounded _ _ (units places x) := (roundHalfEven_eq_iff Binary64.scale_pos).1 rfl
  obtain ⟨hfinite, hsame⟩ := isRounded_nearestPlace (Nat.pow_pos (by decide)) hx hround
  have hplace : Binary64.place (written places x) =
      Binary64.nearestPlace (units places x) (10 ^ places) :=
    (Binary64.place_ofPlace ..).trans (Nat.min_eq_left hfinite.le)
  have hunits : units places (written places x) = units places x := by
    rw [units, hplace]
    exact (roundHalfEven_eq_iff Binary64.scale_pos).2 hsame
  have hsign : Binary64.isNegative (written places x) = Binary64.isNegative x :=
    Binary64.isNegative_ofPlace ..
  rw [fixed_eq_of_finite (hplace ▸ hfinite), fixed_eq_of_finite hx, hunits, hsign]

end Decimal

end Spreadsheet
