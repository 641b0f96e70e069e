import Mathlib.Order.WellFounded
import Spreadsheet.Proofs.Except
import Spreadsheet.Proofs.Expr.Shape
import Spreadsheet.Sheet

/-! Cell text is read exactly by its grammar: it is accepted if it is blank or derives from a sum,
and the tree is that of the derivation. -/
namespace Spreadsheet

open Grammar

namespace Grammar

variable {s : List Char} {e : Expr Literal}

theorem isCellChar_of_isNumeral {negative : Bool} {n : Literal} (h : IsNumeral negative s n) :
    ∀ c ∈ s, Expr.isCellChar c = true := by
  have hdigit : ∀ c : Char, c.isDigit = true → Expr.isCellChar c = true :=
    fun c hc => by simp [Expr.isCellChar, hc]
  cases h with
  | integer hd =>
    intro c hc
    exact hdigit c (hd.2 c hc)
  | decimal hw hf =>
    refine List.forall_mem_append.2 ⟨fun c hc => hdigit c (hw c hc), ?_⟩
    exact List.forall_mem_cons.2 ⟨by decide, fun c hc => hdigit c (hf.2 c hc)⟩

theorem IsSum.isCellChar (h : IsSum s e) : ∀ c ∈ s, Expr.isCellChar c = true := by
  refine h.forall_mem ?_ ?_ ?_
  · rintro s e (⟨h | @⟨a, digits, hd, -⟩⟩ | h)
    · exact isCellChar_of_isNumeral h
    · refine List.forall_mem_cons.2 ⟨by simp [Expr.isCellChar, Address.columnOfLetter?_letter], ?_⟩
      exact fun c hc => by simp [Expr.isCellChar, hd.2 c hc]
    · exact List.forall_mem_cons.2 ⟨by decide, isCellChar_of_isNumeral h⟩
  · intro c hc
    simp [Expr.isCellChar, hc]
  · intro op
    cases op <;> decide

end Grammar

namespace Expr

variable {text s : List Char} {e : Expr Literal}

theorem parseTerminal_of_isNumeral {negative : Bool} {n : Literal} (h : IsNumeral negative s n)
    (htrim : Text.trim text = withSign negative s) : parseTerminal text = .ok (.number n) := by
  cases h with
  | integer hd hmin hmax =>
    have hlow : ¬ signedValue negative s < Int64.minValue.toInt := by
      rw [Int64.toInt_minValue]
      omega
    have hhigh : ¬ signedValue negative s > Int64.maxValue.toInt := by
      rw [Int64.toInt_maxValue]
      omega
    simp only [parseTerminal, htrim, Literal.readInteger?_withSign hd, if_neg hlow, if_neg hhigh]
  | @decimal whole fraction hw hf =>
    have hpoint : '.' ∈ withSign negative (whole ++ '.' :: fraction) := by
      cases negative <;> simp [withSign]
    have hnone := Literal.readInteger?_eq_none_of_mem hpoint (by decide) (by decide)
    simp only [parseTerminal, htrim, hnone, Literal.readDecimal?_withSign hw hf]

theorem parseTerminal_of_ofName? {a : Address} (h : Address.ofName? s = some a)
    (htrim : Text.trim text = s) : parseTerminal text = .ok (.reference a) := by
  have hshaped := Address.isNameShaped_of_ofName? h
  obtain ⟨digits, rfl, hd, -⟩ := Address.ofName?_eq_some_iff.1 h
  have hinteger : Literal.readInteger? (a.letter :: digits) = none :=
    Literal.readInteger?_eq_none_of_mem (List.mem_cons_self ..)
      (forall_letter (· ≠ '-') a (by decide)) (forall_letter (·.isDigit = false) a (by decide))
  have hdecimal : Literal.readDecimal? (a.letter :: digits) = none := by
    apply Literal.readDecimal?_eq_none_of_not_mem
    intro hmem
    rcases List.mem_cons.1 hmem with h | h
    · exact forall_letter ('.' ≠ ·) a (by decide) h
    · exact absurd (hd.2 '.' h) (by decide)
  simp only [parseTerminal, htrim, hinteger, hdecimal, hshaped, h, if_true, Option.elim]

theorem parseTerminal_eq_ok_iff :
    parseTerminal text = .ok e ↔
      IsSignedAtom (Text.trim text) e ∨ Text.trim text = [] ∧ e = .blank := by
  constructor
  · intro h
    simp only [parseTerminal] at h
    split at h
    · next n hn =>
      obtain ⟨negative, digits, heq, hd, rfl⟩ := Literal.exists_of_readInteger?_eq_some hn
      split at h
      · contradiction
      · next hmax =>
        split at h
        · contradiction
        · next hmin =>
          rw [Int64.toInt_maxValue] at hmax
          rw [Int64.toInt_minValue] at hmin
          rw [heq, ← Except.ok.inj h]
          exact .inl (.of_isNumeral (.integer hd (by omega) (by omega)))
    · split at h
      · next n hn =>
        obtain ⟨negative, whole, fraction, heq, hw, hf, rfl⟩ :=
          Literal.exists_of_readDecimal?_eq_some hn
        rw [heq, ← Except.ok.inj h]
        exact .inl (.of_isNumeral (.decimal hw hf))
      · split at h
        · cases ha : Address.ofName? (Text.trim text) with
          | none => simp [ha] at h
          | some a =>
            obtain ⟨digits, heq, hd, hrow⟩ := Address.ofName?_eq_some_iff.1 ha
            simp only [ha, Option.elim, Except.ok.injEq] at h
            rw [heq, ← h]
            exact .inl (.atom (.reference hd hrow))
        · split at h
          · next hnil => exact .inr ⟨List.isEmpty_iff.1 hnil, (Except.ok.inj h).symm⟩
          · contradiction
  · rintro (h | ⟨hnil, rfl⟩)
    · generalize htrim : Text.trim text = s at h
      cases h with
      | atom h =>
        cases h with
        | number h => exact parseTerminal_of_isNumeral h htrim
        | reference hd hrow =>
          exact parseTerminal_of_ofName? (Address.ofName?_eq_some_iff.2 ⟨_, rfl, hd, hrow⟩) htrim
      | negative h => exact parseTerminal_of_isNumeral h htrim
    · simp only [parseTerminal, hnil]
      rfl

theorem splitOperands_eq_ok_iff {op : Operator} {left right : List Char} :
    splitOperands op text = .ok (left, right) ↔
      Text.trim text = left ++ op.symbol :: right ∧ op.symbol ∉ right ∧
        Text.trim left ≠ [] ∧ Text.trim right ≠ [] := by
  have hblank (l : List Char) : l.all Text.isBlank = true ↔ Text.trim l = [] :=
    Text.trim_eq_nil_iff.symm
  constructor
  · intro h
    simp only [splitOperands] at h
    split at h
    · contradiction
    · split at h
      · contradiction
      · next l r hs =>
        split at h
        · contradiction
        · next hne =>
          obtain ⟨rfl, rfl⟩ := Prod.mk.inj (Except.ok.inj h)
          rw [Bool.or_eq_true, hblank, hblank, not_or] at hne
          obtain ⟨heq, hmem⟩ := Text.splitLast?_eq_some_iff.1 hs
          exact ⟨heq, hmem, hne⟩
  · rintro ⟨heq, hmem, hl, hr⟩
    have hs := Text.splitLast?_eq_some_iff.2 ⟨heq, hmem⟩
    have hne : (Text.trim text).isEmpty = false := by simp [heq]
    have hsides : ¬ (left.all Text.isBlank || right.all Text.isBlank) = true := by
      rw [Bool.or_eq_true, hblank, hblank, not_or]
      exact ⟨hl, hr⟩
    simp only [splitOperands, hne, hs, if_neg hsides]
    rfl

theorem parseText_trim (text : List Char) : parseText (Text.trim text) = parseText text := by
  have hterminal : parseTerminal (Text.trim text) = parseTerminal text := by
    simp only [parseTerminal, Text.trim_trim]
  have hbinary (op : Operator) : parseBinary op (Text.trim text) = parseBinary op text := by
    simp only [parseBinary, splitOperands, Text.trim_trim]
  rw [parseText_eq, parseText_eq text, Text.trim_trim, hterminal]
  simp only [hbinary]

theorem parseText_append_blank {b : List Char} (hb : ∀ c ∈ b, Text.isBlank c = true) :
    parseText (s ++ b) = parseText s := by
  rw [← parseText_trim, Text.trim_append_blank hb, parseText_trim]

theorem parseText_blank_append {b : List Char} (hb : ∀ c ∈ b, Text.isBlank c = true) :
    parseText (b ++ s) = parseText s := by
  rw [← parseText_trim, Text.trim_blank_append hb, parseText_trim]

theorem parseText_of_shape (h : Shape Operator.all s) : parseText s = parseTerminal s := by
  have hnone : Operator.all.find? (Text.hasInner ·.symbol s) = none := by
    apply List.find?_eq_none.2
    intro op hop
    simp [h.hasInner_eq_false hop]
  rw [parseText_eq, h.trim_eq, hnone]

theorem parseText_of_isSignedAtom (h : IsSignedAtom s e) : parseText s = .ok e := by
  rw [parseText_of_shape h.shape]
  exact parseTerminal_eq_ok_iff.2 (.inl (h.shape.trim_eq.symm ▸ h))

theorem find?_hasInner {op : Operator} {earlier later : List Operator}
    (hall : Operator.all = earlier ++ op :: later)
    (hearlier : ∀ o ∈ earlier, Text.hasInner o.symbol s = false)
    (hinner : Text.hasInner op.symbol s = true) :
    Operator.all.find? (Text.hasInner ·.symbol s) = some op := by
  have hnone : earlier.find? (Text.hasInner ·.symbol s) = none := by
    apply List.find?_eq_none.2
    intro o ho
    simp [hearlier o ho]
  rw [hall, List.find?_append, hnone, Option.none_or]
  exact List.find?_cons_of_pos hinner

/-- A chain is split where its last operator stands, if the operators that are looked for before
its own are not inside it. -/
theorem parseText_of_chain {op : Operator} {earlier later : List Operator}
    {First Next : List Char → Expr Literal → Prop} (hall : Operator.all = earlier ++ op :: later)
    (hshape : ∀ s e, Chain op First Next s e → Shape earlier s)
    (hfirst : ∀ s e, First s e → parseText s = .ok e)
    (hnext : ∀ s e, Next s e → Shape [] s ∧ op.symbol ∉ s ∧ parseText s = .ok e)
    (h : Chain op First Next s e) : parseText s = .ok e := by
  induction h with
  | first h => exact hfirst _ _ h
  | @next s t before after e f h hb ha ht ih =>
    obtain ⟨hlast, hfree, hparse⟩ := hnext _ _ ht
    have htext := hshape _ _ (.next h hb ha ht)
    have hs := hshape _ _ h
    have hinner : Text.hasInner op.symbol (s ++ before ++ op.symbol :: (after ++ t)) = true := by
      rw [show s ++ before ++ op.symbol :: (after ++ t) =
        s ++ ((before ++ op.symbol :: after) ++ t) by simp]
      exact (Text.hasInner_append_iff hs.ne_nil hlast.ne_nil).2 (.inr (.inl (by simp)))
    have hfind := find?_hasInner hall (fun o ho => htext.hasInner_eq_false ho) hinner
    have hsplit : splitOperands op (s ++ before ++ op.symbol :: (after ++ t)) =
        .ok (s ++ before, after ++ t) := by
      refine splitOperands_eq_ok_iff.2 ⟨htext.trim_eq, ?_, ?_, ?_⟩
      · intro hmem
        rcases List.mem_append.1 hmem with hmem | hmem
        · exact symbol_ne_of_isBlank (ha _ hmem) op rfl
        · exact hfree hmem
      · rw [Text.trim_append_blank hb, hs.trim_eq]
        exact hs.ne_nil
      · rw [Text.trim_blank_append ha, hlast.trim_eq]
        exact hlast.ne_nil
    rw [parseText_eq, htext.trim_eq, hfind]
    simp only [parseBinary, hsplit, bind, Except.bind, parseText_append_blank hb, ih,
      parseText_blank_append ha, hparse]
    rfl

section Levels

variable {First : List Char → Expr Literal → Prop}

theorem parseText_of_isQuotient
    (hF : ∀ s e, First s e → Shape Operator.all s ∧ parseText s = .ok e)
    (h : IsQuotient First s e) : parseText s = .ok e :=
  parseText_of_chain (show Operator.all = [.add, .subtract, .multiply] ++ .divide :: [] from rfl)
    (fun _ _ => IsQuotient.shape fun s e h => (hF s e h).1) (fun s e h => (hF s e h).2)
    (fun _ _ h => ⟨h.shape.mono (by simp), h.not_mem _, parseText_of_isSignedAtom (.atom h)⟩) h

theorem parseText_of_isProduct
    (hF : ∀ s e, First s e → Shape Operator.all s ∧ parseText s = .ok e)
    (h : IsProduct First s e) : parseText s = .ok e := by
  have hatom : ∀ s e, IsAtom s e → Shape Operator.all s ∧ parseText s = .ok e :=
    fun s e h => ⟨h.shape, parseText_of_isSignedAtom (.atom h)⟩
  refine parseText_of_chain (show Operator.all = [.add, .subtract] ++ .multiply :: [.divide] from rfl)
    (fun _ _ => IsProduct.shape fun s e h => (hF s e h).1) (fun s e => parseText_of_isQuotient hF)
    (fun s e h => ?_) h
  exact ⟨(IsQuotient.shape (fun _ _ => IsAtom.shape) h).mono (by simp), h.not_mem (by simp),
    parseText_of_isQuotient hatom h⟩

theorem parseText_of_isDifference (h : IsDifference s e) : parseText s = .ok e := by
  refine parseText_of_chain (show Operator.all = [.add] ++ .subtract :: [.multiply, .divide] from rfl)
    (fun _ _ => IsDifference.shape) (fun s e => parseText_of_isProduct fun s e h => ?_)
    (fun s e h => ⟨?_, h.not_mem (by simp) (by simp), parseText_of_isProduct (fun s e h => ?_) h⟩) h
  · exact ⟨h.shape, parseText_of_isSignedAtom h⟩
  · exact (IsProduct.shape (fun _ _ => IsAtom.shape) h).mono (by simp)
  · exact ⟨h.shape, parseText_of_isSignedAtom (.atom h)⟩

theorem parseText_of_isSum (h : IsSum s e) : parseText s = .ok e :=
  parseText_of_chain (show Operator.all = [] ++ .add :: [.subtract, .multiply, .divide] from rfl)
    (fun _ _ => IsSum.shape) (fun _ _ => parseText_of_isDifference)
    (fun _ _ h => ⟨h.shape.mono (by simp), h.not_mem, parseText_of_isDifference h⟩) h

end Levels

theorem exists_of_parseBinary_eq_ok {op : Operator} {text : List Char} {e : Expr Literal}
    (h : parseBinary op text = .ok e) :
    ∃ left right l r, splitOperands op text = .ok (left, right) ∧ parseText left = .ok l ∧
      parseText right = .ok r ∧ e = .binary op l r := by
  obtain ⟨⟨left, right⟩, hs, h⟩ := bind_eq_ok_iff.1 h
  obtain ⟨l, hl, h⟩ := bind_eq_ok_iff.1 h
  obtain ⟨r, hr, h⟩ := bind_eq_ok_iff.1 h
  exact ⟨left, right, l, r, hs, hl, hr, (Except.ok.inj h).symm⟩

/-- Text that is read as an expression and is not blank derives from a sum. -/
theorem isSum_of_parseText {text : List Char} {e : Expr Literal} (h : parseText text = .ok e)
    (hne : Text.trim text ≠ []) : IsSum (Text.trim text) e := by
  induction hn : text.length using Nat.strong_induction_on generalizing text e with
  | h n ih =>
    rw [parseText_eq] at h
    split at h
    · rcases parseTerminal_eq_ok_iff.1 h with h | h
      · exact .first (.first (.first (.first h)))
      · exact absurd h.1 hne
    · next op hfind =>
      obtain ⟨-, earlier, later, hall, hearlier⟩ := List.find?_eq_some_iff_append.1 hfind
      obtain ⟨left, right, l, r, hsplit, hl, hr, rfl⟩ := exists_of_parseBinary_eq_ok h
      obtain ⟨hleft, hright⟩ := length_lt_of_splitOperands hsplit
      obtain ⟨heq, hop, hlne, hrne⟩ := splitOperands_eq_ok_iff.1 hsplit
      have ihl := ih _ (hn ▸ hleft) hl hlne rfl
      have ihr := ih _ (hn ▸ hright) hr hrne rfl
      obtain ⟨before, hleft, hbefore⟩ := Text.exists_eq_trim_append (s := left) fun c hc => by
        apply Text.isBlank_head_trim (s := text)
        rw [heq, List.head?_append, hc]
        rfl
      obtain ⟨after, hright, hafter⟩ := Text.exists_eq_append_trim_of_last (s := right) fun c hc => by
        apply Text.isBlank_getLast_trim (s := text)
        rw [heq, List.getLast?_append, List.getLast?_cons, hc]
        rfl
      rw [hleft, hright] at heq
      rw [heq]
      refine isSum_append hall hbefore hafter ihl ihr (fun h => hop ?_) fun o ho => ?_
      · rw [hright]
        exact List.mem_append_right _ h
      · rw [← heq]
        simpa using hearlier o ho

theorem parseText_of_trim_eq_nil {text : List Char} (h : Text.trim text = []) :
    parseText text = .ok .blank := by
  have hnone : Operator.all.find? (Text.hasInner ·.symbol []) = none := by decide
  rw [parseText_eq, h, hnone]
  exact parseTerminal_eq_ok_iff.2 (.inr ⟨h, rfl⟩)

/-- The characters around a trimmed text are blanks, which may stand in cell text. -/
theorem isCellChar_of_trim {text : List Char} (h : ∀ c ∈ Text.trim text, isCellChar c = true) :
    text.find? (!isCellChar ·) = none := by
  obtain ⟨before, after, heq, hb, ha⟩ := Text.exists_eq_append_trim text
  have hblank : ∀ c, Text.isBlank c = true → isCellChar c = true :=
    fun c hc => by simp [isCellChar, hc]
  apply List.find?_eq_none.2
  intro c hc
  rw [heq] at hc
  rcases List.mem_append.1 hc with hc | hc
  · rcases List.mem_append.1 hc with hc | hc
    · simp [hblank c (hb c hc)]
    · simp [h c hc]
  · simp [hblank c (ha c hc)]

theorem parse_eq_ok_iff {text : List Char} {e : Expr Literal} :
    parse text = .ok e ↔ Text.trim text = [] ∧ e = .blank ∨ IsSum (Text.trim text) e := by
  constructor
  · intro h
    simp only [parse] at h
    split at h
    · contradiction
    · by_cases hnil : Text.trim text = []
      · rw [parseText_of_trim_eq_nil hnil] at h
        exact .inl ⟨hnil, (Except.ok.inj h).symm⟩
      · exact .inr (isSum_of_parseText h hnil)
  · rintro (⟨hnil, rfl⟩ | h)
    · rw [parse, isCellChar_of_trim (by simp [hnil])]
      exact parseText_of_trim_eq_nil hnil
    · rw [parse, isCellChar_of_trim h.isCellChar]
      exact (parseText_trim text).symm.trans (parseText_of_isSum h)

end Expr

theorem Formula.parse_eq_ok_iff {text : List Char} {f : Formula} :
    Formula.parse text = .ok f ↔ ∃ e, Expr.parse text = .ok e ∧ e.map Literal.toNumber = f :=
  map_eq_ok_iff

/-- A cell is blank as a whole, or nowhere. -/
theorem Formula.eq_blank_or_not_hasBlank {text : List Char} {f : Formula}
    (h : Formula.parse text = .ok f) : f = .blank ∨ ¬ f.HasBlank := by
  obtain ⟨e, he, rfl⟩ := Formula.parse_eq_ok_iff.1 h
  rcases Expr.parse_eq_ok_iff.1 he with ⟨-, rfl⟩ | hsum
  · exact .inl rfl
  · exact .inr (mt (Expr.hasBlank_map _ e).1 hsum.not_hasBlank)

theorem Formula.parse_nil : Formula.parse [] = .ok .blank :=
  Formula.parse_eq_ok_iff.2 ⟨.blank, Expr.parse_eq_ok_iff.2 (.inl ⟨rfl, rfl⟩), rfl⟩

theorem Formula.parse_of_isNumeral {negative : Bool} {s : List Char} {n : Literal}
    (h : IsNumeral negative s n) :
    Formula.parse (withSign negative s) = .ok (.number n.toNumber) := by
  have hsum : IsSum (withSign negative s) (.number n) :=
    .first (.first (.first (.first (.of_isNumeral h))))
  refine Formula.parse_eq_ok_iff.2 ⟨.number n, Expr.parse_eq_ok_iff.2 (.inr ?_), rfl⟩
  rwa [hsum.shape.trim_eq]

theorem Formula.parse_of_isDigits {digits : List Char} (hd : IsDigits digits) (negative : Bool) :
    Formula.parse (withSign negative digits) =
      if 2 ^ 63 ≤ signedValue negative digits then
        .error ⟨withSign negative digits, .integerTooLarge⟩
      else if signedValue negative digits < -2 ^ 63 then
        .error ⟨withSign negative digits, .integerTooSmall⟩
      else .ok (.number (.integer (.ofInt (signedValue negative digits)))) := by
  have hsolid : ∀ c ∈ digits, IsSolid c := fun c hc => isSolid_of_isDigit (hd.2 c hc)
  have hshape : Shape Operator.all (withSign negative digits) := by
    cases negative with
    | true => exact .of_isSolid_neg hd.1 hsolid
    | false => exact .of_isSolid hd.1 hsolid
  have hcell : ∀ c ∈ withSign negative digits, Expr.isCellChar c = true := by
    have hdigits : ∀ c ∈ digits, Expr.isCellChar c = true :=
      fun c hc => by simp [Expr.isCellChar, hd.2 c hc]
    cases negative with
    | true => exact List.forall_mem_cons.2 ⟨by decide, hdigits⟩
    | false => exact hdigits
  have hparse : Expr.parse (withSign negative digits) =
      Expr.parseTerminal (withSign negative digits) := by
    rw [Expr.parse, Expr.isCellChar_of_trim (hshape.trim_eq.symm ▸ hcell)]
    exact Expr.parseText_of_shape hshape
  have hmax : Int64.maxValue.toInt < signedValue negative digits ↔
      2 ^ 63 ≤ signedValue negative digits := by
    rw [Int64.toInt_maxValue]
    omega
  have hmin : signedValue negative digits < Int64.minValue.toInt ↔
      signedValue negative digits < -2 ^ 63 := by
    rw [Int64.toInt_minValue]
  simp only [Formula.parse, hparse, Expr.parseTerminal, hshape.trim_eq,
    Literal.readInteger?_withSign hd, gt_iff_lt, hmax, hmin]
  split
  · rfl
  · split <;> rfl

/-- Cell text is accepted exactly if it is blank or, apart from the blanks around it, derives from a
sum, and the tree is the one that the derivation builds, with no blank in it. What a cell then holds
is that tree with its literals as numbers. Any other text is malformed, and a sheet that it is
written into says so and nothing else. -/
theorem parse_iff_derives (text : List Char) :
    (∀ e, Expr.parse text = .ok e ↔
      Text.trim text = [] ∧ e = .blank ∨ IsSum (Text.trim text) e) ∧
    (∀ f, Formula.parse text = .ok f ↔ Text.trim text = [] ∧ f = .blank ∨
      ∃ e, IsSum (Text.trim text) e ∧ e.map Literal.toNumber = f) ∧
    (∀ s e, IsSum s e → ¬ e.HasBlank) ∧
    (Text.trim text ≠ [] → (¬ ∃ e, IsSum (Text.trim text) e) →
      ∃ p : ParseError, Formula.parse text = .error p ∧
      ∀ (sheet : Sheet) (name : List Char) (a : Address), Address.parse name = .ok a →
        sheet.putNamed name text = .error (.malformed p)) := by
  refine ⟨fun e => Expr.parse_eq_ok_iff, ?_, fun s e h => h.not_hasBlank, ?_⟩
  · intro f
    rw [Formula.parse_eq_ok_iff]
    constructor
    · rintro ⟨e, he, rfl⟩
      rcases Expr.parse_eq_ok_iff.1 he with ⟨hnil, rfl⟩ | hsum
      · exact .inl ⟨hnil, rfl⟩
      · exact .inr ⟨e, hsum, rfl⟩
    · rintro (⟨hnil, rfl⟩ | ⟨e, hsum, rfl⟩)
      · exact ⟨.blank, Expr.parse_eq_ok_iff.2 (.inl ⟨hnil, rfl⟩), rfl⟩
      · exact ⟨e, Expr.parse_eq_ok_iff.2 (.inr hsum), rfl⟩
  · intro hne hnone
    cases hp : Formula.parse text with
    | ok f =>
      obtain ⟨e, he, -⟩ := Formula.parse_eq_ok_iff.1 hp
      rcases Expr.parse_eq_ok_iff.1 he with ⟨hnil, -⟩ | hsum
      · exact absurd hnil hne
      · exact absurd ⟨e, hsum⟩ hnone
    | error p =>
      refine ⟨p, rfl, ?_⟩
      intro sheet name a ha
      simp [Sheet.putNamed, Sheet.put, ha, hp, Except.mapError, Except.map, bind, Except.bind]

end Spreadsheet
