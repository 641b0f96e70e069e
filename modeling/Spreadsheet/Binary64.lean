/-! Binary64 numbers as signed places in the ascending row of their magnitudes.
The bits of a number below its sign bit are its place, so rounding is choosing between two places. -/
namespace Spreadsheet.Binary64

-- Powers are those of `Nat`, also where monoids are known. Literal exponents need a type for that.
attribute [local instance (high)] instPowNat

/-- The least positive magnitude is one over this. -/
def scale : Nat := 2 ^ (1074 : Nat)

theorem scale_pos : 0 < scale := by
  unfold scale
  generalize 1074 = m
  exact Nat.two_pow_pos m

theorem scale_lt_two_pow {n : Nat} (hn : 1074 < n) : scale < 2 ^ n := by
  unfold scale
  generalize 1074 = m at hn ⊢
  exact Nat.pow_lt_pow_right Nat.one_lt_two hn

/-- The magnitude at a place, counted in least positive magnitudes. -/
def magnitude (place : Nat) : Nat :=
  let shift := place / 2 ^ (52 : Nat) - 1
  (place - shift * 2 ^ (52 : Nat)) * 2 ^ shift

def placeBelow (n : Nat) : Nat :=
  let shift := n.log2 - 52
  shift * 2 ^ (52 : Nat) + n / 2 ^ shift

/-- The place of infinity. NaN stands behind it. -/
def infinityPlace : Nat := 2047 * 2 ^ (52 : Nat)

/-- The place nearest to `num / den`, of two equally near ones the even one.
Infinity takes part with the magnitude that would follow the largest finite one. -/
def nearestPlace (num den : Nat) : Nat :=
  let below := placeBelow (num * scale / den)
  let twiceMiddle := magnitude below + magnitude (below + 1)
  let place := match compare (2 * num * scale) (den * twiceMiddle) with
    | .lt => below
    | .eq => below + below % 2
    | .gt => below + 1
  min place infinityPlace

def isNegative (x : Float) : Bool :=
  2 ^ (63 : Nat) ≤ x.toBits.toNat

def place (x : Float) : Nat :=
  x.toBits.toNat % 2 ^ (63 : Nat)

private theorem valid_bits (b : UInt64) (h : b.toNat % 2 ^ (63 : Nat) ≤ infinityPlace) :
    Float.Model.Format.binary64.Valid b.toBitVec := by
  refine ⟨fun he hm => absurd ?_ hm⟩
  have exponent := congrArg BitVec.toNat he
  apply BitVec.eq_of_toNat_eq
  simp only [Float.Model.UnpackedFloat.unpackExponent, Float.Model.UnpackedFloat.unpackMantissa,
    BitVec.toNat_cast, BitVec.extractLsb_toNat, BitVec.toNat_neg,
    Float.Model.Format.binary64] at exponent ⊢
  simp at exponent ⊢
  rw [Nat.shiftRight_eq_div_pow] at exponent
  have := b.toNat_lt
  simp only [infinityPlace] at h
  omega

private def signedBits (negative : Bool) (place : Nat) : UInt64 :=
  .ofNat ((if negative then 2 ^ (63 : Nat) else 0) + min place infinityPlace)

private theorem toNat_signedBits (negative : Bool) (place : Nat) :
    (signedBits negative place).toNat =
      (if negative then 2 ^ (63 : Nat) else 0) + min place infinityPlace := by
  rw [signedBits, UInt64.toNat_ofNat', Nat.mod_eq_of_lt]
  simp only [infinityPlace]
  split <;> omega

def ofPlace (negative : Bool) (place : Nat) : Float :=
  .ofModel ⟨signedBits negative place, valid_bits _ (by
    rw [toNat_signedBits]
    simp only [infinityPlace]
    split <;> omega)⟩

private theorem toNat_toBits_ofPlace (negative : Bool) (p : Nat) :
    (ofPlace negative p).toBits.toNat =
      (if negative then 2 ^ (63 : Nat) else 0) + min p infinityPlace :=
  toNat_signedBits negative p

private theorem min_infinityPlace_lt (p : Nat) : min p infinityPlace < 2 ^ (63 : Nat) :=
  Nat.lt_of_le_of_lt (Nat.min_le_right ..) (by decide)

theorem isNegative_ofPlace (negative : Bool) (p : Nat) :
    isNegative (ofPlace negative p) = negative := by
  have := min_infinityPlace_lt p
  rw [isNegative, toNat_toBits_ofPlace]
  cases negative
  · exact decide_eq_false (by rw [if_neg Bool.false_ne_true]; omega)
  · exact decide_eq_true (by rw [if_pos rfl]; omega)

theorem place_ofPlace (negative : Bool) (p : Nat) :
    place (ofPlace negative p) = min p infinityPlace := by
  have := min_infinityPlace_lt p
  rw [place, toNat_toBits_ofPlace]
  cases negative
  · rw [if_neg Bool.false_ne_true]; omega
  · rw [if_pos rfl]; omega

def nearest (negative : Bool) (num den : Nat) : Float :=
  ofPlace negative (nearestPlace num den)

def ofInt (n : Int) : Float :=
  nearest (n < 0) n.natAbs 1

end Spreadsheet.Binary64
