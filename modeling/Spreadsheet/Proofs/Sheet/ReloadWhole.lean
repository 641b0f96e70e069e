import Spreadsheet.Proofs.Sheet.Reload

/-! Sheets printed without decimals, loaded again. Such text has no point, so it is read as a 64-bit
integer: what is too large for one is refused, and zero loses its sign. -/
namespace Spreadsheet

namespace Decimal

def whole (x : Float) : Int :=
  if Binary64.isNegative x then -(units 0 x : Int) else units 0 x

def FitsInt64 (x : Float) : Prop :=
  -2 ^ 63 ≤ whole x ∧ whole x < 2 ^ 63

def unsignZero (text : List Char) : List Char :=
  if text = "-0".toList then "0".toList else text

variable {x : Float}

theorem fixed_zero_of_finite (hx : Binary64.place x < Binary64.infinityPlace) :
    fixed 0 x = withSign (Binary64.isNegative x) (Nat.toDigits 10 (units 0 x)) := by
  rw [fixed_eq_of_finite hx, fixedUnits, if_pos rfl, List.append_nil, Nat.pow_zero, Nat.div_one]

theorem signedValue_toDigits_units (x : Float) :
    signedValue (Binary64.isNegative x) (Nat.toDigits 10 (units 0 x)) = whole x := by
  rw [signedValue, Nat.ofDigitChars_toDigits (by decide) (by decide), whole]

/-- Printed without decimals, a finite number is read as the integer nearest to it. -/
theorem parse_fixed_zero (hx : Binary64.place x < Binary64.infinityPlace) :
    Formula.parse (fixed 0 x) =
      if 2 ^ 63 ≤ whole x then .error ⟨fixed 0 x, .integerTooLarge⟩
      else if whole x < -2 ^ 63 then .error ⟨fixed 0 x, .integerTooSmall⟩
      else .ok (.number (.integer (.ofInt (whole x)))) := by
  rw [fixed_zero_of_finite hx, Formula.parse_of_isDigits (isDigits_toDigits _),
    signedValue_toDigits_units]

theorem parse_fixed_zero_of_fits (hx : Binary64.place x < Binary64.infinityPlace)
    (hfits : FitsInt64 x) :
    Formula.parse (fixed 0 x) = .ok (.number (.integer (.ofInt (whole x)))) := by
  rw [parse_fixed_zero hx, if_neg (Int.not_le_of_gt hfits.2), if_neg (Int.not_lt_of_ge hfits.1)]

theorem exists_parse_fixed_zero_iff :
    (∃ f, Formula.parse (fixed 0 x) = .ok f) ↔ x.isFinite = true ∧ FitsInt64 x := by
  rw [Binary64.isFinite_iff]
  constructor
  · rintro ⟨f, hf⟩
    have hx := place_lt_of_parse_fixed hf
    refine ⟨hx, ?_⟩
    rw [parse_fixed_zero hx] at hf
    split at hf
    · contradiction
    · next hmax =>
      split at hf
      · contradiction
      · next hmin => exact ⟨Int.le_of_not_gt hmin, Int.lt_of_not_ge hmax⟩
  · rintro ⟨hx, hfits⟩
    exact ⟨_, parse_fixed_zero_of_fits hx hfits⟩

theorem withSign_toDigits_eq_iff {negative : Bool} {n : Nat} :
    withSign negative (Nat.toDigits 10 n) = "-0".toList ↔ negative = true ∧ n = 0 := by
  constructor
  · intro h
    cases negative with
    | false =>
      have hmem : '-' ∈ Nat.toDigits 10 n := by
        rw [show Nat.toDigits 10 n = "-0".toList from h]
        exact List.mem_cons_self ..
      exact absurd ((isDigits_toDigits n).2 '-' hmem) (by decide)
    | true =>
      have hdigits : Nat.toDigits 10 n = ['0'] := (List.cons.inj h).2
      refine ⟨rfl, ?_⟩
      rw [← Nat.ofDigitChars_toDigits (b := 10) (n := n) (by decide) (by decide), hdigits]
      rfl
  · rintro ⟨rfl, rfl⟩
    rfl

/-- Only what rounds to zero from below is printed as a negative zero. -/
theorem fixed_zero_eq_negative_zero_iff (hx : Binary64.place x < Binary64.infinityPlace) :
    fixed 0 x = "-0".toList ↔ Binary64.isNegative x = true ∧ units 0 x = 0 := by
  rw [fixed_zero_of_finite hx, withSign_toDigits_eq_iff]

theorem ofInt_signed {negative : Bool} {n : Nat} (h : negative = true → n ≠ 0) :
    Binary64.ofInt (if negative then -(n : Int) else n) = Binary64.nearest negative n 1 := by
  cases negative with
  | false =>
    have hsign : decide ((n : Int) < 0) = false :=
      decide_eq_false (Int.not_lt_of_ge (Int.natCast_nonneg n))
    rw [if_neg Bool.false_ne_true, Binary64.ofInt, hsign, Int.natAbs_natCast]
  | true =>
    have hpos := h rfl
    have hsign : decide (-(n : Int) < 0) = true := decide_eq_true (by omega)
    rw [if_pos rfl, Binary64.ofInt, hsign, Int.natAbs_neg, Int.natAbs_natCast]

/-- An integer that is read back is printed as before, but a zero without its sign. -/
theorem fixed_ofInt_whole (hx : Binary64.place x < Binary64.infinityPlace) :
    fixed 0 (Binary64.ofInt (whole x)) = unsignZero (fixed 0 x) := by
  by_cases hzero : fixed 0 x = "-0".toList
  · obtain ⟨hneg, hunits⟩ := (fixed_zero_eq_negative_zero_iff hx).1 hzero
    rw [unsignZero, if_pos hzero, whole, hneg, hunits]
    decide +kernel
  · have hsigned : Binary64.isNegative x = true → units 0 x ≠ 0 :=
      fun hneg hunits => hzero ((fixed_zero_eq_negative_zero_iff hx).2 ⟨hneg, hunits⟩)
    have hwritten : fixed 0 (written 0 x) = fixed 0 x := fixed_written hx
    rw [written, Nat.pow_zero, ← ofInt_signed hsigned] at hwritten
    rw [unsignZero, if_neg hzero, whole, hwritten]

end Decimal

namespace Sheet

open Decimal

variable {sheet loaded : Sheet} {policy : Policy} {a b : Address} {text : List Char}

/-- A field printed without decimals can be read as cell text exactly if it is that of a blank or of
a number that is nearest to an integer of 64 bits. -/
theorem exists_parse_iff_of_read_whole (hread : sheet.read policy 0 a = .ok text) :
    (∃ f, Formula.parse text = .ok f) ↔
      ∀ x, sheet.get a = .ok x → x.isFinite = true ∧ FitsInt64 x := by
  simp only [← exists_parse_fixed_zero_iff]
  exact forall_value_iff_of_read (p := fun s => ∃ f, Formula.parse s = .ok f)
    ⟨_, Formula.parse_nil⟩ hread

/-- A cell that holds what was printed of another without decimals prints the same, but a zero
without its sign. -/
theorem read_of_parse_whole {f : Formula} (hread : sheet.read policy 0 a = .ok text)
    (hparse : Formula.parse text = .ok f) (hcovers : loaded.covers b = true)
    (hfind : loaded.find? b = some f) : loaded.read policy 0 b = .ok (unsignZero text) := by
  have hall := (exists_parse_iff_of_read_whole hread).1 ⟨f, hparse⟩
  rcases read_eq_ok_iff.1 hread with ⟨hpolicy, -, -, rfl⟩ | ⟨x, hx, rfl⟩
  · rw [Formula.parse_nil] at hparse
    obtain rfl := Except.ok.inj hparse
    exact read_eq_ok_iff.2 (.inl ⟨hpolicy, hcovers, by rw [hfind]; rfl, rfl⟩)
  · obtain ⟨hfinite, hfits⟩ := hall x hx
    have hplace := (Binary64.isFinite_iff x).1 hfinite
    rw [parse_fixed_zero_of_fits hplace hfits] at hparse
    obtain rfl := Except.ok.inj hparse
    have hint : (Int64.ofInt (whole x)).toInt = whole x :=
      Int64.toInt_ofInt_of_le hfits.1 hfits.2
    have hget : loaded.get b = .ok (Binary64.ofInt (whole x)) :=
      get_eq_ok_iff.2 ⟨hcovers, _, hfind, by rw [value, eval_number, Number.toFloat, hint]⟩
    exact read_eq_ok_iff.2 (.inr ⟨_, hget, fixed_ofInt_whole hplace⟩)

/-- Which fields are printed again as they were. -/
theorem unsignZero_eq_self_iff_of_read (hread : sheet.read policy 0 a = .ok text) :
    unsignZero text = text ↔ ∀ x, sheet.get a = .ok x → fixed 0 x ≠ "-0".toList := by
  have hself : unsignZero text = text ↔ text ≠ "-0".toList := by
    rw [unsignZero]
    split
    · next hzero =>
      rw [hzero]
      decide
    · next hzero => exact iff_of_true rfl hzero
  rw [hself]
  exact forall_value_iff_of_read (p := (· ≠ "-0".toList)) (by decide) hread

/-- A sheet of the same extent that holds what was printed prints that without the signs of zeros.
This is the same text exactly if no zero had a sign. -/
theorem render_of_read_unsigned {text : Address → List Char}
    (hcorner : loaded.corner = sheet.corner)
    (hread : ∀ a, sheet.covers a = true → sheet.read policy 0 a = .ok (text a))
    (hagain : ∀ a, sheet.covers a = true →
      loaded.read policy 0 a = .ok (unsignZero (text a))) :
    loaded.render policy 0 = .ok (Csv.write ((sheet.table text).map (List.map unsignZero))) ∧
      (loaded.render policy 0 = .ok (Csv.write (sheet.table text)) ↔
        ∀ a x, sheet.get a = .ok x → fixed 0 x ≠ "-0".toList) := by
  have hagain' : ∀ a, loaded.covers a = true →
      loaded.read policy 0 a = .ok (unsignZero (text a)) :=
    fun a ha => hagain a (covers_congr hcorner a ▸ ha)
  have hrender : loaded.render policy 0 =
      .ok (Csv.write (loaded.table fun a => unsignZero (text a))) :=
    render_eq_ok_iff.2 ⟨_, hagain', rfl⟩
  have hwrite : Csv.write (loaded.table fun a => unsignZero (text a)) =
      Csv.write (sheet.table text) ↔
        ∀ a, sheet.covers a = true → unsignZero (text a) = text a := by
    rw [← table_inj, ← table_congr hcorner fun a => unsignZero (text a)]
    constructor
    · intro h
      rw [← Csv.rows_write (isBare_of_mem_table hagain'), h,
        Csv.rows_write (isBare_of_mem_table hread)]
    · exact congrArg Csv.write
  rw [map_table, ← table_congr hcorner, hrender]
  refine ⟨rfl, ?_⟩
  rw [Except.ok.injEq, hwrite]
  constructor
  · intro h a x hx
    have ha : sheet.covers a = true := (get_eq_ok_iff.1 hx).1
    exact (unsignZero_eq_self_iff_of_read (hread a ha)).1 (h a ha) x hx
  · intro h a ha
    exact (unsignZero_eq_self_iff_of_read (hread a ha)).2 (h a)

def single (n : Number) : Sheet :=
  (∅ : Sheet).insert ⟨1, 1, by decide, by decide, by decide, by decide⟩ (.number n)

theorem get_single (n : Number) {a : Address} (ha : (single n).covers a = true) :
    (single n).get a = .ok n.toFloat := by
  have hcell : a.row ≤ 1 ∧ a.column ≤ 1 := covers_iff.1 ha
  have hself : Address.at? 1 1 = some a := Address.at?_eq_some_iff.2
    ⟨Nat.le_antisymm hcell.1 a.one_le_row, Nat.le_antisymm hcell.2 a.one_le_column⟩
  have hfind : (single n).find? a = some (.number n) := by
    obtain rfl := Option.some.inj hself
    exact (find?_insert ..).trans (if_pos rfl)
  exact get_eq_ok_iff.2 ⟨ha, _, hfind, by rw [value, eval_number]⟩

theorem render_single (n : Number) (places : Nat) :
    (single n).render .strict places = .ok (Decimal.fixed places n.toFloat ++ ['\n']) := by
  have hblock : (single n).block = [[⟨1, 1, by decide, by decide, by decide, by decide⟩]] := by
    rfl
  refine render_eq_ok_iff.2 ⟨fun _ => Decimal.fixed places n.toFloat, ?_, ?_⟩
  · intro a ha
    exact read_eq_ok_iff.2 (.inr ⟨_, get_single n ha, rfl⟩)
  · simp [table, hblock, Csv.write]

end Sheet

open Decimal in
/-- What is printed of a finite number without decimals is read as the integer nearest to it, if
that fits into 64 bits, and is refused as too large or too small if it does not. So a sheet printed
without decimals can be loaded exactly if all values of its cells are finite and nearest to integers
of 64 bits. Then the loaded sheet has the same extent, and prints to the same text, but each
negative zero as zero. -/
theorem printed_wholes_reload (sheet : Sheet) (policy : Policy) {printed : List Char}
    (hprinted : sheet.render policy 0 = .ok printed) :
    (∀ x : Float, x.isFinite = true →
      (Formula.parse (fixed 0 x) =
        if 2 ^ 63 ≤ whole x then .error ⟨fixed 0 x, .integerTooLarge⟩
        else if whole x < -2 ^ 63 then .error ⟨fixed 0 x, .integerTooSmall⟩
        else .ok (.number (.integer (.ofInt (whole x))))) ∧
      (FitsInt64 x →
        fixed 0 (Number.integer (.ofInt (whole x))).toFloat = unsignZero (fixed 0 x))) ∧
    ((∃ document, (Document.ofBytes (String.ofList printed).toUTF8).result = .ok document) ↔
      ∀ a x, sheet.get a = .ok x → x.isFinite = true ∧ FitsInt64 x) ∧
    ∀ document, (Document.ofBytes (String.ofList printed).toUTF8).result = .ok document →
      document.sheet.rowCount = sheet.rowCount ∧
      document.sheet.columnCount = sheet.columnCount ∧
      document.sheet.render policy 0 =
        .ok (Csv.write ((Csv.rows printed).map (List.map unsignZero))) ∧
      (document.sheet.render policy 0 = .ok printed ↔
        ∀ a x, sheet.get a = .ok x → fixed 0 x ≠ "-0".toList) := by
  constructor
  · intro x hx
    have hplace := (Binary64.isFinite_iff x).1 hx
    refine ⟨parse_fixed_zero hplace, fun hfits => ?_⟩
    rw [Number.toFloat, Int64.toInt_ofInt_of_le hfits.1 hfits.2, fixed_ofInt_whole hplace]
  obtain ⟨text, hread, rfl⟩ := Sheet.render_eq_ok_iff.1 hprinted
  have hrows : Csv.rows (Csv.write (sheet.table text)) = sheet.table text :=
    Csv.rows_write (Sheet.isBare_of_mem_table hread)
  simp only [Document.ofBytes_toUTF8_eq_ok_iff, hrows, Sheet.ofRows_table_eq_ok_iff]
  constructor
  · constructor
    · rintro ⟨-, -, ⟨formula, hformula, -⟩, -⟩ a x hx
      have ha : sheet.covers a = true := (Sheet.get_eq_ok_iff.1 hx).1
      exact (Sheet.exists_parse_iff_of_read_whole (hread a ha)).1 ⟨_, hformula a ha⟩ x hx
    · intro hfits
      have hall : ∀ a, sheet.covers a = true → ∃ f, Formula.parse (text a) = .ok f := by
        intro a ha
        exact (Sheet.exists_parse_iff_of_read_whole (hread a ha)).2 (hfits a)
      choose! formula hformula using hall
      exact ⟨_, _, ⟨formula, hformula, rfl⟩, rfl⟩
  · rintro - ⟨-, ⟨formula, hformula, rfl⟩, rfl⟩
    have hcorner := sheet.corner_insertRows_table formula
    have hagain : ∀ a, sheet.covers a = true →
        ((∅ : Sheet).insertRows 1 (sheet.table formula)).read policy 0 a =
          .ok (unsignZero (text a)) := by
      intro a ha
      exact Sheet.read_of_parse_whole (hread a ha) (hformula a ha)
        ((Sheet.covers_congr hcorner a).trans ha) (Sheet.find?_insertRows_table formula ha)
    exact ⟨Sheet.rowCount_congr hcorner, Sheet.columnCount_congr hcorner,
      Sheet.render_of_read_unsigned hcorner hread hagain⟩

open Decimal in
/-- The least integer of 64 bits is printed as it is and loaded again. What rounds to zero from
below is printed as a negative zero, and as zero when it was loaded. -/
theorem printed_wholes_reload_least :
    (∃ document, (Document.ofBytes "-9223372036854775808\n".toUTF8).result = .ok document ∧
      document.sheet.render .strict 0 = .ok "-9223372036854775808\n".toList) ∧
    ∃ document, (Document.ofBytes "-0\n".toUTF8).result = .ok document ∧
      document.sheet.render .strict 0 = .ok "0\n".toList := by
  have hreload (n : Number) (hfinite : n.toFloat.isFinite = true) (hfits : FitsInt64 n.toFloat) :
      ∃ document, (Document.ofBytes
          (String.ofList (fixed 0 n.toFloat ++ ['\n'])).toUTF8).result = .ok document ∧
        document.sheet.render .strict 0 = .ok (Csv.write
          ((Csv.rows (fixed 0 n.toFloat ++ ['\n'])).map (List.map unsignZero))) := by
    obtain ⟨-, hloads, hagain⟩ :=
      printed_wholes_reload (Sheet.single n) .strict (Sheet.render_single n 0)
    obtain ⟨document, hdocument⟩ := hloads.2 fun a x hx => by
      rw [Sheet.get_single n (Sheet.get_eq_ok_iff.1 hx).1] at hx
      obtain rfl := Except.ok.inj hx
      exact ⟨hfinite, hfits⟩
    exact ⟨document, hdocument, (hagain document hdocument).2.2.1⟩
  have hleast := hreload (.integer Int64.minValue) (by decide +kernel)
    ⟨by decide +kernel, by decide +kernel⟩
  have hsmall := hreload (.float (Binary64.nearest true 4 10)) (by decide +kernel)
    ⟨by decide +kernel, by decide +kernel⟩
  have hleastText : fixed 0 (Number.integer Int64.minValue).toFloat =
      "-9223372036854775808".toList := by decide +kernel
  have hsmallText : fixed 0 (Number.float (Binary64.nearest true 4 10)).toFloat =
      "-0".toList := by decide +kernel
  have hleastAgain : Csv.write ((Csv.rows ("-9223372036854775808".toList ++ ['\n'])).map
      (List.map unsignZero)) = "-9223372036854775808\n".toList := by decide +kernel
  have hsmallAgain : Csv.write ((Csv.rows ("-0".toList ++ ['\n'])).map (List.map unsignZero)) =
      "0\n".toList := by decide +kernel
  rw [hleastText, hleastAgain] at hleast
  rw [hsmallText, hsmallAgain] at hsmall
  exact ⟨hleast, hsmall⟩

/-- The largest integer of 64 bits is rounded up to evaluate it. Printed, it is then out of range.
What rounds to zero from below is printed with a sign, and printed again without. -/
theorem printed_wholes_do_not_reload :
    let large := Number.integer Int64.maxValue
    let small := Number.float (Binary64.nearest true 4 10)
    large.toFloat.isFinite = true ∧ small.toFloat.isFinite = true ∧
      (Sheet.single large).render .strict 0 = .ok "9223372036854775808\n".toList ∧
      (Document.ofBytes "9223372036854775808\n".toUTF8).result =
        .error (.load (.malformed ⟨"9223372036854775808".toList, .integerTooLarge⟩)) ∧
      (Sheet.single small).render .strict 0 = .ok "-0\n".toList ∧
      Formula.parse "-0".toList = .ok (.number (.integer 0)) ∧
      Decimal.fixed 0 (Number.integer 0).toFloat = "0".toList := by
  intro large small
  have hlarge : Decimal.fixed 0 large.toFloat = "9223372036854775808".toList := by decide +kernel
  have hsmall : Decimal.fixed 0 small.toFloat = "-0".toList := by decide +kernel
  have hload : (Document.ofBytes "9223372036854775808\n".toUTF8).result.map (fun _ => ()) =
      .error (.load (.malformed ⟨"9223372036854775808".toList, .integerTooLarge⟩)) := by
    decide +kernel
  refine ⟨by decide +kernel, by decide +kernel, ?_, map_eq_error_iff.1 hload, ?_,
    by decide +kernel, by decide +kernel⟩
  · rw [Sheet.render_single, hlarge]
    rfl
  · rw [Sheet.render_single, hsmall]
    rfl

end Spreadsheet
