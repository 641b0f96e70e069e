import Mathlib.Algebra.Field.Rat
import Mathlib.Tactic.NormNum
import Spreadsheet.Proofs.Expr.Parsing
import Spreadsheet.Proofs.Expr.Tokens

/-! Arithmetic of cell text over the rational numbers. The tree that a text is parsed to may group
operators of one level in another way than from left to right, but it has the same value. -/
namespace Spreadsheet

def Literal.value : Literal → ℚ
  | integer n => n.toInt
  | decimal negative digits places => (if negative then -1 else 1) * (digits / 10 ^ places)

namespace Operator

def isTight : Operator → Bool
  | add | subtract => false
  | multiply | divide => true

def applyExactly? : Operator → ℚ → ℚ → Option ℚ
  | add, x, y => some (x + y)
  | subtract, x, y => some (x - y)
  | multiply, x, y => some (x * y)
  | divide, x, y => if y = 0 then none else some (x / y)

end Operator

namespace Expr

variable {ν : Type}

def exactValue? (ρ : Address → ℚ) : Expr ℚ → Option ℚ
  | number q => some q
  | blank => none
  | reference a => some (ρ a)
  | binary op l r => do op.applyExactly? (← l.exactValue? ρ) (← r.exactValue? ρ)

def applyAll (e : Expr ν) (steps : List (Operator × Expr ν)) : Expr ν :=
  steps.foldl (fun l step => .binary step.1 l step.2) e

/-- What follows a term, read from left to right: a tight operator goes on with the term, and
another one ends it. `before` adds the term to what stands before it. -/
def readFrom (before : Expr ν → Expr ν) (term : Expr ν) : List (Operator × Expr ν) → Expr ν
  | [] => before term
  | (op, e) :: steps =>
    if op.isTight then readFrom before (.binary op term e) steps
    else readFrom (.binary op (before term)) e steps

/-- The conventional tree of operands with operators between them: tight operators come first, and
operators of one level are applied from left to right. -/
def conventional (first : Expr ν) (steps : List (Operator × Expr ν)) : Expr ν :=
  readFrom id first steps

example (a b c d : Expr ν) :
    conventional a [(.add, b), (.multiply, c), (.subtract, d)] =
      .binary .subtract (.binary .add a (.binary .multiply b c)) d := rfl

end Expr

def unsignedValue? (s : List Char) : Option ℚ :=
  let whole := s.takeWhile Char.isDigit
  match s.dropWhile Char.isDigit with
  | [] => if whole.isEmpty then none else some (Nat.ofDigitChars 10 whole 0)
  | '.' :: fraction =>
    if !fraction.isEmpty && fraction.all Char.isDigit then
      some (Nat.ofDigitChars 10 whole 0 + Nat.ofDigitChars 10 fraction 0 / 10 ^ fraction.length)
    else none
  | _ => none

/-- What an operand means: a number, which may have a minus sign, or a cell. -/
def operand? (s : List Char) : Option (Expr ℚ) :=
  let (negative, unsigned) := Literal.takeSign s
  match unsignedValue? unsigned with
  | some q => some (.number (if negative then -q else q))
  | none => (Address.ofName? s).map .reference

def steps? : List Token → Option (List (Operator × Expr ℚ))
  | [] => some []
  | .operator op :: .operand s :: rest => do return (op, ← operand? s) :: (← steps? rest)
  | _ => none

def conventional? (text : List Char) : Option (Expr ℚ) :=
  match tokens true text with
  | .operand s :: rest => do return .conventional (← operand? s) (← steps? rest)
  | _ => none

section Operands

variable {s : List Char} {e : Expr Literal}

theorem unsignedValue?_digits (hs : IsDigits s) :
    unsignedValue? s = some (Nat.ofDigitChars 10 s 0 : ℚ) := by
  have htake : s.takeWhile Char.isDigit = s := List.takeWhile_eq_self_iff.2 hs.2
  have hdrop : s.dropWhile Char.isDigit = [] := List.dropWhile_eq_nil_iff.2 hs.2
  have hne : s.isEmpty = false := by simpa using hs.1
  simp [unsignedValue?, htake, hdrop, hne]

theorem unsignedValue?_point {whole fraction : List Char} (hw : ∀ c ∈ whole, c.isDigit = true)
    (hf : IsDigits fraction) :
    unsignedValue? (whole ++ '.' :: fraction) =
      some ((Nat.ofDigitChars 10 (whole ++ fraction) 0 : ℚ) / 10 ^ fraction.length) := by
  have htake : (whole ++ '.' :: fraction).takeWhile Char.isDigit = whole := by
    rw [List.takeWhile_append_of_pos hw, List.takeWhile_cons_of_neg (by decide), List.append_nil]
  have hdrop : (whole ++ '.' :: fraction).dropWhile Char.isDigit = '.' :: fraction := by
    rw [List.dropWhile_append_of_pos hw, List.dropWhile_cons_of_neg (by decide)]
  have hvalue : (Nat.ofDigitChars 10 (whole ++ fraction) 0 : ℚ) =
      10 ^ fraction.length * Nat.ofDigitChars 10 whole 0 + Nat.ofDigitChars 10 fraction 0 := by
    rw [Nat.ofDigitChars_append, Nat.ofDigitChars_eq_ofDigitChars_zero]
    push_cast
    rfl
  have hne : (10 : ℚ) ^ fraction.length ≠ 0 := pow_ne_zero _ (by norm_num)
  simp only [unsignedValue?, htake, hdrop, isDigits_iff.1 hf, if_true, hvalue, add_div,
    mul_div_cancel_left₀ _ hne]

theorem value_of_isNumeral {negative : Bool} {n : Literal} (h : IsNumeral negative s n) :
    ∃ q, unsignedValue? s = some q ∧ n.value = if negative then -q else q := by
  cases h with
  | integer hd hmin hmax =>
    refine ⟨_, unsignedValue?_digits hd, ?_⟩
    rw [Literal.value, Int64.toInt_ofInt_of_le (by omega) (by omega)]
    cases negative <;> simp [signedValue]
  | decimal hw hf =>
    refine ⟨_, unsignedValue?_point hw hf, ?_⟩
    cases negative <;> simp [Literal.value]

theorem operand?_of_isNumeral {negative : Bool} {n : Literal} (h : IsNumeral negative s n) :
    operand? (withSign negative s) = some (.number n.value) := by
  have hhead : s.head? ≠ some '-' := by
    intro hs
    have := (Grammar.isSolid_of_isNumeral h).2 '-' (List.mem_of_mem_head? hs)
    exact absurd this (by decide)
  obtain ⟨q, hq, hvalue⟩ := value_of_isNumeral h
  simp only [operand?, Literal.takeSign_withSign hhead, hq, hvalue]

theorem operand?_of_ofName? {a : Address} (h : Address.ofName? s = some a) :
    operand? s = some (.reference a) := by
  obtain ⟨digits, rfl, -⟩ := Address.ofName?_eq_some_iff.1 h
  have hsign : Literal.takeSign (a.letter :: digits) = (false, a.letter :: digits) :=
    Literal.takeSign_withSign (s := a.letter :: digits)
      (fun h => forall_letter (· ≠ '-') a (by decide) (Option.some.inj h)) false
  have hdigit : a.letter.isDigit = false := forall_letter (·.isDigit = false) a (by decide)
  have hpoint : a.letter ≠ '.' := forall_letter (· ≠ '.') a (by decide)
  have hnone : unsignedValue? (a.letter :: digits) = none := by
    have hdrop := List.dropWhile_cons_of_neg (l := digits) (by simpa using hdigit)
    simp only [unsignedValue?, hdrop]
    split
    · contradiction
    · next heq => exact absurd (List.head_eq_of_cons_eq heq) hpoint
    · rfl
  simp [operand?, hsign, hnone, h]

theorem operand?_of_isSignedAtom (h : Grammar.IsSignedAtom s e) :
    operand? s = some (e.map Literal.value) := by
  cases h with
  | atom h =>
    cases h with
    | number h => exact operand?_of_isNumeral h
    | reference hd hrow =>
      exact operand?_of_ofName? (Address.ofName?_eq_some_iff.2 ⟨_, rfl, hd, hrow⟩)
  | negative h => exact operand?_of_isNumeral h

end Operands

namespace Expr

def SameValue (e f : Expr ℚ) : Prop :=
  ∀ ρ, e.exactValue? ρ = f.exactValue? ρ

namespace SameValue

variable {op : Operator} {e e' f f' g : Expr ℚ}

theorem refl (e : Expr ℚ) : SameValue e e :=
  fun _ => rfl

theorem trans (h : SameValue e f) (h' : SameValue f g) : SameValue e g :=
  fun ρ => (h ρ).trans (h' ρ)

theorem binary (op : Operator) (he : SameValue e e') (hf : SameValue f f') :
    SameValue (.binary op e f) (.binary op e' f') := by
  intro ρ
  rw [exactValue?, exactValue?, he ρ, hf ρ]

/-- A term is subtracted from a sum as it is from the last term of the sum. -/
theorem add_subtract (e f g : Expr ℚ) :
    SameValue (.binary .subtract (.binary .add e f) g)
      (.binary .add e (.binary .subtract f g)) := by
  intro ρ
  simp only [exactValue?]
  cases e.exactValue? ρ <;> cases f.exactValue? ρ <;> cases g.exactValue? ρ <;>
    simp [Operator.applyExactly?, add_sub_assoc]

/-- A product is divided as its last factor is, by the same divisor. -/
theorem multiply_divide (e f g : Expr ℚ) :
    SameValue (.binary .divide (.binary .multiply e f) g)
      (.binary .multiply e (.binary .divide f g)) := by
  intro ρ
  simp only [exactValue?]
  cases e.exactValue? ρ <;> cases f.exactValue? ρ <;> cases hg : g.exactValue? ρ with
  | none => rfl
  | some z => by_cases hz : z = 0 <;> simp [Operator.applyExactly?, hz, mul_div_assoc]

end SameValue

variable {ν : Type} {before : Expr ν → Expr ν} {first e : Expr ν} {op : Operator}
  {steps more : List (Operator × Expr ν)}

/-- Tight operators only build up one term. -/
theorem readFrom_of_isTight (h : ∀ step ∈ steps, step.1.isTight) :
    readFrom before first steps = before (first.applyAll steps) := by
  induction steps generalizing first with
  | nil => rfl
  | cons step steps ih =>
    obtain ⟨hop, hsteps⟩ := List.forall_mem_cons.1 h
    rw [readFrom, if_pos hop, ih hsteps]
    rfl

/-- Where an operator is not tight, all that stands before it is its left operand. -/
theorem readFrom_append (hop : op.isTight = false) :
    readFrom before first (steps ++ (op, e) :: more) =
      readFrom (.binary op (readFrom before first steps)) e more := by
  induction steps generalizing before first with
  | nil => simp [readFrom, hop]
  | cons step steps ih =>
    obtain ⟨o, f⟩ := step
    rw [List.cons_append, readFrom, readFrom]
    split
    · exact ih
    · exact ih

theorem applyAll_append :
    first.applyAll (steps ++ (op, e) :: more) =
      (binary op (first.applyAll steps) e).applyAll more := by
  rw [applyAll, List.foldl_append]
  rfl

end Expr

theorem steps?_append {ts us : List Token} {steps : List (Operator × Expr ℚ)}
    (h : steps? ts = some steps) : steps? (ts ++ us) = (steps? us).map (steps ++ ·) := by
  fun_induction steps? ts generalizing steps with
  | case1 =>
    obtain rfl := Option.some.inj h
    simp
  | case2 op s rest ih =>
    simp only [Option.bind_eq_bind, Option.bind_eq_some_iff, Option.pure_def] at h
    obtain ⟨f, hf, more, hmore, h⟩ := h
    obtain rfl := Option.some.inj h
    rw [List.cons_append, List.cons_append, steps?, hf, ih hmore]
    cases steps? us <;> rfl
  | case3 => contradiction

/-- The tokens of a text are these operands, the first one and then each with its operator, and
what comes behind the text does not change them unless it goes on with the last operand. -/
def Spells (s : List Char) (first : Expr ℚ) (steps : List (Operator × Expr ℚ)) : Prop :=
  ∃ t ts, operand? t = some first ∧ steps? ts = some steps ∧
    ∀ rest, (∀ c ∈ rest.head?, ¬ IsSolid c) →
      tokens true (s ++ rest) = .operand t :: (ts ++ tokens false rest)

namespace Spells

variable {s t before after : List Char} {first f : Expr ℚ} {op : Operator}
  {steps more : List (Operator × Expr ℚ)} {e : Expr Literal}

theorem of_isSignedAtom (h : Grammar.IsSignedAtom s e) : Spells s (e.map Literal.value) [] := by
  have hshape : ∃ c t, s = c :: t ∧ Text.isBlank c = false ∧ ∀ d ∈ t, IsSolid d := by
    cases h with
    | atom h =>
      obtain ⟨hne, hs⟩ := h.isSolid
      obtain ⟨c, t, rfl⟩ := List.exists_cons_of_ne_nil hne
      obtain ⟨hc, ht⟩ := List.forall_mem_cons.1 hs
      exact ⟨c, t, rfl, hc.1, ht⟩
    | negative h => exact ⟨'-', _, rfl, rfl, (Grammar.isSolid_of_isNumeral h).2⟩
  obtain ⟨c, t, rfl, hc, ht⟩ := hshape
  refine ⟨c :: t, [], operand?_of_isSignedAtom h, rfl, ?_⟩
  intro rest hrest
  exact tokens_operand hc ht hrest

theorem next (hs : Spells s first steps) (ht : Spells t f more)
    (hbefore : ∀ c ∈ before, Text.isBlank c = true) (hafter : ∀ c ∈ after, Text.isBlank c = true) :
    Spells (s ++ before ++ op.symbol :: (after ++ t)) first (steps ++ (op, f) :: more) := by
  obtain ⟨u, us, hu, hus, hleft⟩ := hs
  obtain ⟨w, ws, hw, hws, hright⟩ := ht
  refine ⟨u, us ++ .operator op :: .operand w :: ws, hu, ?_, ?_⟩
  · rw [steps?_append hus, steps?, hw, hws]
    rfl
  · intro rest hrest
    have hends : ∀ c ∈ (before ++ op.symbol :: (after ++ t ++ rest)).head?, ¬ IsSolid c := by
      intro c hc hsolid
      cases before with
      | nil => exact hsolid.ne_symbol op (Option.some.inj hc)
      | cons b before =>
        obtain rfl := Option.some.inj hc
        have := hsolid.1
        rw [hbefore b (List.mem_cons_self ..)] at this
        contradiction
    have hsplit : s ++ before ++ op.symbol :: (after ++ t) ++ rest =
        s ++ (before ++ op.symbol :: (after ++ t ++ rest)) := by simp
    rw [hsplit, hleft _ hends, tokens_blank_append hbefore, tokens_symbol, List.append_assoc,
      tokens_blank_append hafter, hright rest hrest]
    simp

end Spells

namespace Grammar

variable {First : List Char → Expr Literal → Prop} {s : List Char} {e : Expr Literal}

/-- A quotient has the value of its operands read from left to right, alone and behind a factor. -/
theorem IsQuotient.exists_spells (hF : ∀ s e, First s e → Spells s (e.map Literal.value) [])
    (h : IsQuotient First s e) :
    ∃ first steps, Spells s first steps ∧ (∀ step ∈ steps, step.1.isTight) ∧
      Expr.SameValue (first.applyAll steps) (e.map Literal.value) ∧
      ∀ x, Expr.SameValue ((Expr.binary .multiply x first).applyAll steps)
        (.binary .multiply x (e.map Literal.value)) := by
  induction h with
  | first h => exact ⟨_, [], hF _ _ h, by simp, .refl _, fun x => .refl _⟩
  | @next s t before after e f _ hb ha ht ih =>
    obtain ⟨first, steps, hs, htight, hvalue, hfactor⟩ := ih
    have hright := Spells.of_isSignedAtom (.atom ht)
    refine ⟨first, _, hs.next hright hb ha, ?_, ?_, ?_⟩
    · exact List.forall_mem_append.2 ⟨htight, by simp [Operator.isTight]⟩
    · rw [Expr.applyAll_append]
      exact hvalue.binary .divide (.refl _)
    · intro x
      rw [Expr.applyAll_append]
      exact ((hfactor x).binary .divide (.refl _)).trans (.multiply_divide x _ _)

theorem IsProduct.exists_spells (hF : ∀ s e, First s e → Spells s (e.map Literal.value) [])
    (h : IsProduct First s e) :
    ∃ first steps, Spells s first steps ∧ (∀ step ∈ steps, step.1.isTight) ∧
      Expr.SameValue (first.applyAll steps) (e.map Literal.value) := by
  induction h with
  | first h =>
    obtain ⟨first, steps, hs, htight, hvalue, -⟩ := IsQuotient.exists_spells hF h
    exact ⟨first, steps, hs, htight, hvalue⟩
  | @next s t before after e f _ hb ha ht ih =>
    obtain ⟨first, steps, hs, htight, hvalue⟩ := ih
    obtain ⟨second, more, ht, hmore, -, hfactor⟩ :=
      IsQuotient.exists_spells (fun _ _ h => .of_isSignedAtom (.atom h)) ht
    refine ⟨first, _, hs.next ht hb ha, ?_, ?_⟩
    · exact List.forall_mem_append.2 ⟨htight, List.forall_mem_cons.2 ⟨rfl, hmore⟩⟩
    · rw [Expr.applyAll_append]
      exact (hfactor _).trans (hvalue.binary .multiply (.refl _))

/-- A difference has the value of its operands read from left to right, alone and behind a sum. -/
theorem IsDifference.exists_spells (h : IsDifference s e) :
    ∃ first steps, Spells s first steps ∧
      Expr.SameValue (Expr.readFrom id first steps) (e.map Literal.value) ∧
      ∀ x, Expr.SameValue (Expr.readFrom (.binary .add x) first steps)
        (.binary .add x (e.map Literal.value)) := by
  induction h with
  | first h =>
    obtain ⟨first, steps, hs, htight, hvalue⟩ :=
      IsProduct.exists_spells (fun _ _ => .of_isSignedAtom) h
    refine ⟨first, steps, hs, ?_, fun x => ?_⟩
    · rw [Expr.readFrom_of_isTight htight]
      exact hvalue
    · rw [Expr.readFrom_of_isTight htight]
      exact Expr.SameValue.binary .add (.refl x) hvalue
  | @next s t before after e f _ hb ha ht ih =>
    obtain ⟨first, steps, hs, hvalue, hterm⟩ := ih
    obtain ⟨second, more, ht, hmore, hright⟩ :=
      IsProduct.exists_spells (fun _ _ h => .of_isSignedAtom (.atom h)) ht
    refine ⟨first, _, hs.next ht hb ha, ?_, fun x => ?_⟩
    · rw [Expr.readFrom_append rfl, Expr.readFrom_of_isTight hmore]
      exact hvalue.binary .subtract hright
    · rw [Expr.readFrom_append rfl, Expr.readFrom_of_isTight hmore]
      exact ((hterm x).binary .subtract hright).trans (.add_subtract x _ _)

theorem IsSum.exists_spells (h : IsSum s e) :
    ∃ first steps, Spells s first steps ∧
      Expr.SameValue (Expr.readFrom id first steps) (e.map Literal.value) := by
  induction h with
  | first h =>
    obtain ⟨first, steps, hs, hvalue, -⟩ := IsDifference.exists_spells h
    exact ⟨first, steps, hs, hvalue⟩
  | @next s t before after e f _ hb ha ht ih =>
    obtain ⟨first, steps, hs, hvalue⟩ := ih
    obtain ⟨second, more, ht, -, hterm⟩ := IsDifference.exists_spells ht
    refine ⟨first, _, hs.next ht hb ha, ?_⟩
    rw [Expr.readFrom_append rfl]
    exact (hterm _).trans (hvalue.binary .add (.refl _))

end Grammar

/-- Text that is not blank and can be parsed has a conventional reading, and the parsed tree has the
value of that reading over the rational numbers, or like it has none, whatever the cells that it
refers to are worth. The cell holds that tree with its literals as numbers. -/
theorem parse_sameValue_conventional {text : List Char} {e : Expr Literal}
    (h : Expr.parse text = .ok e) (hne : Text.trim text ≠ []) :
    Formula.parse text = .ok (e.map Literal.toNumber) ∧
      ∃ reading, conventional? text = some reading ∧
        ∀ ρ, (e.map Literal.value).exactValue? ρ = reading.exactValue? ρ := by
  have hsum : Grammar.IsSum (Text.trim text) e :=
    (Expr.parse_eq_ok_iff.1 h).resolve_left fun hnil => hne hnil.1
  obtain ⟨first, steps, ⟨t, ts, ht, hts, htokens⟩, hvalue⟩ := hsum.exists_spells
  obtain ⟨before, after, heq, hb, ha⟩ := Text.exists_eq_append_trim text
  have hends : ∀ c ∈ after.head?, ¬ IsSolid c := by
    intro c hc hsolid
    have := hsolid.1
    rw [ha c (List.mem_of_mem_head? hc)] at this
    contradiction
  have hafter : tokens false after = [] := by
    rw [← List.append_nil after, tokens_blank_append ha, tokens_nil]
  have hall : tokens true text = .operand t :: ts := by
    rw [heq, List.append_assoc, tokens_blank_append hb, htokens after hends, hafter,
      List.append_nil]
  refine ⟨Formula.parse_eq_ok_iff.2 ⟨e, h, rfl⟩, .conventional first steps, ?_, ?_⟩
  · simp only [conventional?, hall, ht, hts]
    rfl
  · intro ρ
    exact (hvalue ρ).symm

/-- A text whose tree groups both the products and the sums in another way than its reading. -/
theorem parse_sameValue_conventional_regrouped :
    let text := " -8*6/A1*2/.4 + 1-2+3".toList
    let cell : Address := ⟨1, 1, by decide, by decide, by decide, by decide⟩
    let tree : Expr Literal := .binary .add (.binary .add
      (.binary .multiply (.binary .multiply (.number (.integer (-8)))
        (.binary .divide (.number (.integer 6)) (.reference cell)))
        (.binary .divide (.number (.integer 2)) (.number (.decimal false 4 1))))
      (.binary .subtract (.number (.integer 1)) (.number (.integer 2)))) (.number (.integer 3))
    let reading : Expr ℚ := .binary .add (.binary .subtract (.binary .add
      (.binary .divide (.binary .multiply (.binary .divide (.binary .multiply (.number (-8))
        (.number 6)) (.reference cell)) (.number 2)) (.number (2 / 5)))
      (.number 1)) (.number 2)) (.number 3)
    Expr.parse text = .ok tree ∧ conventional? text = some reading ∧
      ∀ ρ, (tree.map Literal.value).exactValue? ρ = reading.exactValue? ρ := by
  intro text cell tree reading
  have hparse : Expr.parse text = .ok tree := by decide +kernel
  have hreading : conventional? text = some reading := by decide +kernel
  obtain ⟨-, found, hfound, hvalue⟩ := parse_sameValue_conventional hparse (by decide)
  obtain rfl := Option.some.inj (hreading.symm.trans hfound)
  exact ⟨hparse, hreading, hvalue⟩

end Spreadsheet
