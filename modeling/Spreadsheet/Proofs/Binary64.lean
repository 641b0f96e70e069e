import Mathlib.Data.Nat.Dist
import Spreadsheet.Binary64

/-! The places of binary64 numbers ascend with their magnitudes, and rounding finds a nearest one. -/
namespace Spreadsheet.Binary64

theorem magnitude_succ (p : Nat) : magnitude (p + 1) = magnitude p + 2 ^ (p / 2 ^ 52 - 1) := by
  by_cases hlast : (p + 1) % 2 ^ 52 = 0
  · obtain ⟨k, hk⟩ : ∃ k, p + 1 = (k + 1) * 2 ^ 52 := ⟨p / 2 ^ 52, by omega⟩
    have hp : p / 2 ^ 52 = k := by omega
    have hp' : (p + 1) / 2 ^ 52 = k + 1 := by omega
    simp only [magnitude, hp, hp', Nat.add_sub_cancel]
    cases k with
    | zero => simp [hk]
    | succ k =>
      have hbelow : p - k * 2 ^ 52 = 2 ^ 53 - 1 := by omega
      have hnext : p + 1 - (k + 1) * 2 ^ 52 = 2 ^ 52 := by omega
      rw [Nat.add_sub_cancel, hbelow, hnext, pow_succ]
      omega
  · have hp : (p + 1) / 2 ^ 52 = p / 2 ^ 52 := by omega
    have hle : (p / 2 ^ 52 - 1) * 2 ^ 52 ≤ p := by omega
    simp only [magnitude, hp]
    rw [Nat.sub_add_comm hle, Nat.add_mul, Nat.one_mul]

theorem magnitude_strictMono : StrictMono magnitude :=
  strictMono_nat_of_lt_succ fun p => by
    rw [magnitude_succ]
    exact Nat.lt_add_of_pos_right (Nat.two_pow_pos _)

/-- Infinity's place is more than a whole unit away from all places before it. -/
theorem magnitude_add_scale_lt {p q : Nat} (hp : p < infinityPlace) (hq : infinityPlace ≤ q) :
    magnitude p + scale < magnitude q := by
  have hlast : magnitude p ≤ magnitude (infinityPlace - 1) :=
    magnitude_strictMono.monotone (Nat.le_sub_one_of_lt hp)
  have hgap : scale < 2 ^ ((infinityPlace - 1) / 2 ^ 52 - 1) := scale_lt_two_pow (by decide)
  calc magnitude p + scale
      < magnitude (infinityPlace - 1) + 2 ^ ((infinityPlace - 1) / 2 ^ 52 - 1) :=
        Nat.add_lt_add_of_le_of_lt hlast hgap
    _ = magnitude infinityPlace := (magnitude_succ (infinityPlace - 1)).symm
    _ ≤ magnitude q := magnitude_strictMono.monotone hq

private theorem magnitude_shift (shift : Nat) {m : Nat} (hle : 2 ^ 52 ≤ m) (hlt : m < 2 ^ 53) :
    magnitude (shift * 2 ^ 52 + m) = m * 2 ^ shift ∧
      magnitude (shift * 2 ^ 52 + m + 1) = (m + 1) * 2 ^ shift := by
  have hexp : (shift * 2 ^ 52 + m) / 2 ^ 52 - 1 = shift := by omega
  have hmag : magnitude (shift * 2 ^ 52 + m) = m * 2 ^ shift := by
    simp only [magnitude, hexp, Nat.add_sub_cancel_left]
  rw [magnitude_succ, hmag, hexp]
  exact ⟨rfl, (Nat.succ_mul ..).symm⟩

private theorem magnitude_of_lt {n : Nat} (hn : n < 2 ^ 53) : magnitude n = n := by
  have hexp : n / 2 ^ 52 - 1 = 0 := by omega
  simp only [magnitude, hexp, Nat.zero_mul, Nat.sub_zero, Nat.pow_zero, Nat.mul_one]

/-- The last place whose magnitude is at most `n` is followed by one whose magnitude is more. -/
theorem magnitude_placeBelow (n : Nat) :
    magnitude (placeBelow n) ≤ n ∧ n < magnitude (placeBelow n + 1) := by
  by_cases hn : n < 2 ^ 53
  · have hlog : n.log2 - 52 = 0 := by
      rcases Nat.eq_zero_or_pos n with rfl | hpos
      · decide
      · have := (Nat.log2_lt (by omega)).2 hn
        omega
    have hbelow : placeBelow n = n := by simp [placeBelow, hlog]
    rw [hbelow, magnitude_succ, magnitude_of_lt hn]
    exact ⟨le_rfl, Nat.lt_add_of_pos_right (Nat.two_pow_pos _)⟩
  · have hne : n ≠ 0 := by omega
    have hlog : 53 ≤ n.log2 := (Nat.le_log2 hne).2 (by omega)
    obtain ⟨shift, hshift⟩ : ∃ shift, n.log2 = shift + 52 := ⟨n.log2 - 52, by omega⟩
    have hlow : 2 ^ 52 * 2 ^ shift ≤ n := by
      rw [← Nat.pow_add, Nat.add_comm, ← hshift]
      exact Nat.log2_self_le hne
    have hhigh : n < 2 ^ 53 * 2 ^ shift := by
      rw [← Nat.pow_add, Nat.add_comm, show shift + 53 = n.log2 + 1 by omega]
      exact Nat.lt_log2_self
    have hpos := Nat.two_pow_pos shift
    obtain ⟨hmag, hnext⟩ := magnitude_shift shift ((Nat.le_div_iff_mul_le hpos).2 hlow)
      ((Nat.div_lt_iff_lt_mul hpos).2 hhigh)
    simp only [placeBelow, hshift, Nat.add_sub_cancel]
    rw [hmag, hnext]
    exact ⟨Nat.div_mul_le_self .., Nat.lt_mul_of_div_lt (Nat.lt_succ_self _) hpos⟩

private theorem dist_le_of_neighbours {f : Nat → Nat} (hf : Monotone f) {below n d : Nat}
    (hbelow : f below ≤ n) (hnext : n ≤ f (below + 1)) (hd : d ≤ Nat.dist (f below) n)
    (hd' : d ≤ Nat.dist (f (below + 1)) n) (q : Nat) : d ≤ Nat.dist (f q) n := by
  rcases Nat.lt_or_ge below q with hq | hq
  · have := hf (Nat.succ_le_of_lt hq)
    simp only [Nat.dist, Nat.succ_eq_add_one] at *
    omega
  · have := hf hq
    simp only [Nat.dist] at *
    omega

/-- Comparing with the middle chooses the nearer of two neighbours. -/
private theorem dist_nearer_le {f : Nat → Nat} {below n : Nat} (hbelow : f below ≤ n)
    (hnext : n ≤ f (below + 1)) {r : Nat}
    (hr : (match compare (2 * n) (f below + f (below + 1)) with
      | .lt => below
      | .eq => below + below % 2
      | .gt => below + 1) = r) :
    Nat.dist (f r) n ≤ Nat.dist (f below) n ∧ Nat.dist (f r) n ≤ Nat.dist (f (below + 1)) n := by
  simp only [Nat.dist]
  split at hr
  · next h =>
    have := Nat.compare_eq_lt.1 h
    subst hr
    omega
  · next h =>
    have := Nat.compare_eq_eq.1 h
    rcases Nat.mod_two_eq_zero_or_one below with hmod | hmod
    · rw [hmod, Nat.add_zero] at hr
      subst hr
      omega
    · rw [hmod] at hr
      subst hr
      omega
  · next h =>
    have := Nat.compare_eq_gt.1 h
    subst hr
    omega

/-- No number is nearer to `num / den` than the nearest one, unless infinity's place cuts it off. -/
theorem exists_nearestPlace_eq (num : Nat) {den : Nat} (hden : 0 < den) :
    ∃ r, nearestPlace num den = min r infinityPlace ∧ ∀ q,
      Nat.dist (magnitude r * den) (num * scale) ≤ Nat.dist (magnitude q * den) (num * scale) := by
  obtain ⟨hbelow, hnext⟩ := magnitude_placeBelow (num * scale / den)
  have htwice : 2 * num * scale = 2 * (num * scale) := Nat.mul_assoc ..
  simp only [nearestPlace, htwice, Nat.mul_comm den, Nat.add_mul]
  generalize placeBelow (num * scale / den) = below at hbelow hnext
  have hbelow : magnitude below * den ≤ num * scale := (Nat.le_div_iff_mul_le hden).1 hbelow
  have hnext : num * scale < magnitude (below + 1) * den := (Nat.div_lt_iff_lt_mul hden).1 hnext
  have hmono : Monotone fun q => magnitude q * den := fun q q' h =>
    Nat.mul_le_mul_right den (magnitude_strictMono.monotone h)
  refine ⟨_, rfl, ?_⟩
  obtain ⟨hle, hle'⟩ := dist_nearer_le (f := fun q => magnitude q * den) hbelow hnext.le rfl
  exact dist_le_of_neighbours hmono hbelow hnext.le hle hle'

/-- Integers of 64 bits are far from infinity. -/
theorem nearestPlace_lt_infinityPlace {n : Nat} (hn : n ≤ 2 ^ 64) :
    nearestPlace n 1 < infinityPlace := by
  obtain ⟨r, hr, hmin⟩ := exists_nearestPlace_eq n Nat.one_pos
  rw [hr]
  refine Nat.lt_of_le_of_lt (Nat.min_le_left ..) (Nat.lt_of_not_le fun hinf => ?_)
  have hfar : 2 * 2 ^ 64 * scale < magnitude r :=
    Nat.lt_of_lt_of_le (by decide +kernel) (magnitude_strictMono.monotone hinf)
  have hzero : magnitude 0 = 0 := rfl
  have hnear := hmin 0
  have hbound : n * scale ≤ 2 ^ 64 * scale := Nat.mul_le_mul_right scale hn
  simp only [hzero, Nat.dist, Nat.mul_one] at hnear
  omega

private theorem toNat_unpackExponent (x : Float) :
    (@Float.Model.UnpackedFloat.unpackExponent .binary64 x.toBits.toBitVec).toNat =
      place x / 2 ^ 52 := by
  simp only [Float.Model.UnpackedFloat.unpackExponent, BitVec.toNat_cast, BitVec.extractLsb_toNat,
    Float.Model.Format.binary64, place, Nat.shiftRight_eq_div_pow]
  simp
  omega

open Float.Model.UnpackedFloat in
private theorem isFinite_unpack_iff (b : BitVec 64) :
    (unpack .binary64 b).isFinite = true ↔ @unpackExponent .binary64 b ≠ -1#11 := by
  by_cases hones : @unpackExponent .binary64 b = -1#11
  · have hunpack : (unpack .binary64 b).isFinite = false := by
      change isFinite (if _ then _ else _) = false
      rw [if_pos hones]
      split <;> rfl
    simp [hones, hunpack]
  · have hunpack : (unpack .binary64 b).isFinite = true := by
      change isFinite (if _ then _ else _) = true
      rw [if_neg hones]
      by_cases hsubnormal : @unpackExponent .binary64 b = 0#11
      · rw [if_pos hsubnormal]
        by_cases hzero : @unpackMantissa .binary64 b = 0#52
        · rw [dif_pos hzero]
          rfl
        · rw [dif_neg hzero]
          rfl
      · rw [if_neg hsubnormal]
        rfl
    exact iff_of_true hunpack hones

/-- The numbers before infinity's place are the finite ones of the core library. -/
theorem isFinite_iff (x : Float) : x.isFinite = true ↔ place x < infinityPlace := by
  have hexp := toNat_unpackExponent x
  have hlt : place x < 2 ^ 63 := Nat.mod_lt _ (Nat.two_pow_pos 63)
  refine (isFinite_unpack_iff x.toBits.toBitVec).trans ?_
  rw [ne_eq, BitVec.toNat_inj.symm, hexp]
  show ¬ place x / 2 ^ 52 = 2047 ↔ place x < 2047 * 2 ^ 52
  omega

end Spreadsheet.Binary64
