import Spreadsheet.Expr.Printer
import Spreadsheet.Proofs.Decimal

/-! Rendered formulas, read back. A rendering has no parentheses, but the tree of a text needs none:
its rendering derives from the grammar in the way the text did, so reading it gives the same tree
over numbers with two decimals. -/
namespace Spreadsheet

def Expr.numbers {ν : Type} : Expr ν → List ν
  | number n => [n]
  | blank | reference _ => []
  | binary _ l r => l.numbers ++ r.numbers

theorem Expr.numbers_map {ν μ : Type} (g : ν → μ) (e : Expr ν) :
    (e.map g).numbers = e.numbers.map g := by
  induction e with
  | number | blank | reference => rfl
  | binary op l r ihl ihr => simp [map, numbers, ihl, ihr]

namespace Number

def toLiteral (n : Number) : Literal :=
  .decimal (Binary64.isNegative n.toFloat) (Decimal.units 2 n.toFloat) 2

/-- The number that is read back where a number was written with two decimals. -/
def reread (n : Number) : Number :=
  n.toLiteral.toNumber

theorem place_toFloat_integer (n : Int64) :
    Binary64.place (integer n).toFloat < Binary64.infinityPlace := by
  have hmin := n.minValue_le_toInt
  have hmax := n.toInt_le
  rw [toFloat, Binary64.ofInt, Binary64.nearest, Binary64.place_ofPlace]
  refine Nat.lt_of_le_of_lt (Nat.min_le_left ..) (Binary64.nearestPlace_lt_infinityPlace ?_)
  rw [Int64.toInt_minValue] at hmin
  rw [Int64.toInt_maxValue] at hmax
  omega

theorem toFloat_reread (n : Number) : n.reread.toFloat = Decimal.written 2 n.toFloat := rfl

end Number

namespace Grammar

def HasFiniteNumbers (e : Expr Literal) : Prop :=
  ∀ n ∈ e.numbers, Binary64.place n.toNumber.toFloat < Binary64.infinityPlace

def spelled (e : Expr Literal) : List Char :=
  (e.map Literal.toNumber).render

def respelled (e : Expr Literal) : Expr Literal :=
  e.map fun n => n.toNumber.toLiteral

variable {op : Operator} {First Next : List Char → Expr Literal → Prop} {s : List Char}
  {e l r : Expr Literal} {n : Literal}

theorem hasFiniteNumbers_binary :
    HasFiniteNumbers (.binary op l r) ↔ HasFiniteNumbers l ∧ HasFiniteNumbers r :=
  List.forall_mem_append

theorem spelled_binary :
    spelled (.binary op l r) = spelled l ++ [' '] ++ op.symbol :: ([' '] ++ spelled r) := by
  rw [spelled, Expr.map, Expr.render_binary, ← spelled, ← spelled]
  simp

theorem spelled_number (hfinite : HasFiniteNumbers (.number n)) :
    spelled (.number n) = withSign (Binary64.isNegative n.toNumber.toFloat)
      (Decimal.fixedUnits 2 (Decimal.units 2 n.toNumber.toFloat)) := by
  have hplace := hfinite n (List.mem_singleton_self n)
  rw [← Decimal.fixed_eq_of_finite hplace, spelled, Expr.map, Expr.render, Expr.renderBefore,
    List.append_nil]

/-- A literal without a sign is no negative number, and zero is none either. -/
theorem isNegative_of_isNumeral (h : IsNumeral false s n) :
    Binary64.isNegative n.toNumber.toFloat = false := by
  cases h with
  | decimal => exact Binary64.isNegative_ofPlace ..
  | integer _ hmin hmax =>
    have hvalue : (Int64.ofInt (signedValue false s)).toInt = signedValue false s :=
      Int64.toInt_ofInt_of_le hmin hmax
    rw [Literal.toNumber, Number.toFloat, Binary64.ofInt, Binary64.nearest,
      Binary64.isNegative_ofPlace, hvalue]
    exact decide_eq_false (by simp [signedValue])

theorem IsAtom.respell (h : IsAtom s e) (hfinite : HasFiniteNumbers e) :
    IsAtom (spelled e) (respelled e) := by
  cases h with
  | @number _ n h =>
    have hsign := isNegative_of_isNumeral h
    have hliteral : n.toNumber.toLiteral =
        .decimal false (Decimal.units 2 n.toNumber.toFloat) 2 := by
      rw [← hsign]
      rfl
    rw [spelled_number hfinite, hsign, respelled, Expr.map, hliteral]
    exact .number (Decimal.isNumeral_fixedUnits (by decide) false _)
  | @reference a digits =>
    have hname : spelled (.reference a) = a.letter :: Nat.toDigits 10 a.row :=
      List.append_nil _
    rw [hname]
    exact .reference (isDigits_toDigits _) (Nat.ofDigitChars_toDigits (by decide) (by decide))

theorem IsSignedAtom.respell (h : IsSignedAtom s e) (hfinite : HasFiniteNumbers e) :
    IsSignedAtom (spelled e) (respelled e) := by
  cases h with
  | atom h => exact .atom (h.respell hfinite)
  | negative =>
    rw [spelled_number hfinite]
    exact .of_isNumeral (Decimal.isNumeral_fixedUnits (by decide) _ _)

/-- A chain is rendered as a chain, with one blank on each side of its operators. -/
theorem Chain.respell (h : Chain op First Next s e) (hfinite : HasFiniteNumbers e)
    (hfirst : ∀ s e, First s e → HasFiniteNumbers e → First (spelled e) (respelled e))
    (hnext : ∀ s e, Next s e → HasFiniteNumbers e → Next (spelled e) (respelled e)) :
    Chain op First Next (spelled e) (respelled e) := by
  induction h with
  | first h => exact .first (hfirst _ _ h hfinite)
  | next _ _ _ ht ih =>
    obtain ⟨hl, hr⟩ := hasFiniteNumbers_binary.1 hfinite
    have hblank : ∀ c ∈ [' '], Text.isBlank c = true := List.forall_mem_singleton.2 rfl
    rw [spelled_binary]
    exact .next (ih hl) hblank hblank (hnext _ _ ht hr)

theorem IsQuotient.respell
    (hF : ∀ s e, First s e → HasFiniteNumbers e → First (spelled e) (respelled e))
    (h : IsQuotient First s e) (hfinite : HasFiniteNumbers e) :
    IsQuotient First (spelled e) (respelled e) :=
  Chain.respell h hfinite hF fun _ _ => IsAtom.respell

theorem IsProduct.respell
    (hF : ∀ s e, First s e → HasFiniteNumbers e → First (spelled e) (respelled e))
    (h : IsProduct First s e) (hfinite : HasFiniteNumbers e) :
    IsProduct First (spelled e) (respelled e) :=
  Chain.respell h hfinite (fun _ _ => IsQuotient.respell hF)
    fun _ _ => IsQuotient.respell fun _ _ => IsAtom.respell

theorem IsDifference.respell (h : IsDifference s e) (hfinite : HasFiniteNumbers e) :
    IsDifference (spelled e) (respelled e) :=
  Chain.respell h hfinite (fun _ _ => IsProduct.respell fun _ _ => IsSignedAtom.respell)
    fun _ _ => IsProduct.respell fun _ _ => IsAtom.respell

theorem IsSum.respell (h : IsSum s e) (hfinite : HasFiniteNumbers e) :
    IsSum (spelled e) (respelled e) :=
  Chain.respell h hfinite (fun _ _ => IsDifference.respell) fun _ _ => IsDifference.respell

end Grammar

/-- Writing the numbers that were read back writes the same. -/
theorem Expr.render_map_reread {f : Formula}
    (hfinite : ∀ n ∈ f.numbers, Binary64.place n.toFloat < Binary64.infinityPlace) :
    (f.map Number.reread).render = f.render := by
  induction f with
  | number n =>
    have hn := hfinite n (List.mem_singleton_self n)
    simp only [map, render, renderBefore, Number.toFloat_reread, Decimal.fixed_written hn]
  | blank | reference => rfl
  | binary op l r ihl ihr =>
    obtain ⟨hl, hr⟩ := List.forall_mem_append.1 hfinite
    rw [map, render_binary, render_binary, ihl hl, ihr hr]

/-- What is rendered of a cell text reads as the same tree, with each constant replaced by what its
two decimals say, and that renders to the same. -/
theorem rendered_reads_back {text : List Char} {f : Formula} (h : Formula.parse text = .ok f)
    (hfinite : ∀ x, .float x ∈ f.numbers → x.isFinite = true) :
    Formula.parse f.render = .ok (f.map Number.reread) ∧
      (f.map Number.reread).render = f.render ∧
      ∀ n ∈ f.numbers, ∃ x, n.reread = .float x ∧
        Formula.parse (Decimal.fixed 2 n.toFloat) = .ok (.number (.float x)) := by
  have hplace : ∀ n ∈ f.numbers, Binary64.place n.toFloat < Binary64.infinityPlace := by
    intro n hn
    cases n with
    | integer n => exact Number.place_toFloat_integer n
    | float x => exact (Binary64.isFinite_iff x).1 (hfinite x hn)
  refine ⟨?_, Expr.render_map_reread hplace, ?_⟩
  · obtain ⟨e, he, rfl⟩ := Formula.parse_eq_ok_iff.1 h
    rw [Expr.map_map]
    rcases Expr.parse_eq_ok_iff.1 he with ⟨-, rfl⟩ | hsum
    · exact Formula.parse_nil
    · rw [Expr.numbers_map, List.forall_mem_map] at hplace
      have hrendered := hsum.respell hplace
      have hparse : Expr.parse (Grammar.spelled e) = .ok (Grammar.respelled e) :=
        Expr.parse_eq_ok_iff.2 (.inr (by rwa [hrendered.shape.trim_eq]))
      exact Formula.parse_eq_ok_iff.2 ⟨_, hparse, Expr.map_map ..⟩
  · intro n hn
    exact ⟨_, rfl, Decimal.parse_fixed_of_finite (by decide) (hplace n hn)⟩

/-- A constant that is rounded to the even neighbour, and a negative one that is rounded to zero
behind an operator. -/
theorem rendered_reads_back_signed_zero :
    let text := " 7 -B02*.125 + -0.004/3".toList
    let b2 : Address := ⟨2, 2, by decide, by decide, by decide, by decide⟩
    let eighth := Binary64.nearest false 125 1000
    let small := Binary64.nearest true 4 1000
    let f : Formula := .binary .add
      (.binary .subtract (.number (.integer 7))
        (.binary .multiply (.reference b2) (.number (.float eighth))))
      (.binary .divide (.number (.float small)) (.number (.integer 3)))
    Formula.parse text = .ok f ∧ (∀ x, .float x ∈ f.numbers → x.isFinite = true) ∧
      f.render = "7.00 - B2 * 0.12 + -0.00 / 3.00".toList ∧
      Formula.parse "7.00 - B2 * 0.12 + -0.00 / 3.00".toList = .ok (f.map Number.reread) := by
  intro text b2 eighth small f
  have hparse : Formula.parse text = .ok f := by decide +kernel
  have hfinite : ∀ x, .float x ∈ f.numbers → x.isFinite = true := by
    intro x hx
    have hmem : x = eighth ∨ x = small := by simpa [f, Expr.numbers] using hx
    rcases hmem with rfl | rfl <;> decide +kernel
  have hrender : f.render = "7.00 - B2 * 0.12 + -0.00 / 3.00".toList := by decide +kernel
  exact ⟨hparse, hfinite, hrender, hrender ▸ (rendered_reads_back hparse hfinite).1⟩

end Spreadsheet
