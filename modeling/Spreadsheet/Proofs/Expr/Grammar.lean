import Spreadsheet.Expr.Parser
import Spreadsheet.Proofs.Address
import Spreadsheet.Proofs.Expr.Literal
import Spreadsheet.Proofs.Text.Trim

/-! The grammar of cell text, with the tree that each derivation builds. Blanks may stand around an
operator between two operands and nowhere else. -/
namespace Spreadsheet

namespace Expr

variable {ν : Type}

def HasBlank : Expr ν → Prop
  | number _ | reference _ => False
  | blank => True
  | binary _ l r => l.HasBlank ∨ r.HasBlank

theorem hasBlank_map {μ : Type} (f : ν → μ) (e : Expr ν) : (e.map f).HasBlank ↔ e.HasBlank := by
  induction e with
  | number | blank | reference => rfl
  | binary op l r ihl ihr => exact or_congr ihl ihr

end Expr

namespace Grammar

inductive IsAtom : List Char → Expr Literal → Prop
  | number {s : List Char} {n : Literal} : IsNumeral false s n → IsAtom s (.number n)
  | reference {a : Address} {digits : List Char} :
      IsDigits digits → Nat.ofDigitChars 10 digits 0 = a.row →
      IsAtom (a.letter :: digits) (.reference a)

inductive IsSignedAtom : List Char → Expr Literal → Prop
  | atom {s : List Char} {e : Expr Literal} : IsAtom s e → IsSignedAtom s e
  | negative {s : List Char} {n : Literal} : IsNumeral true s n → IsSignedAtom ('-' :: s) (.number n)

/-- Operands with an operator between each two, grouped to the left. The first operand may be of
another kind than those after it. -/
inductive Chain (op : Operator) (First Next : List Char → Expr Literal → Prop) :
    List Char → Expr Literal → Prop
  | first {s : List Char} {e : Expr Literal} : First s e → Chain op First Next s e
  | next {s t before after : List Char} {e f : Expr Literal} :
      Chain op First Next s e →
      (∀ c ∈ before, Text.isBlank c = true) → (∀ c ∈ after, Text.isBlank c = true) → Next t f →
      Chain op First Next (s ++ before ++ op.symbol :: (after ++ t)) (.binary op e f)

def IsQuotient (First : List Char → Expr Literal → Prop) : List Char → Expr Literal → Prop :=
  Chain .divide First IsAtom

def IsProduct (First : List Char → Expr Literal → Prop) : List Char → Expr Literal → Prop :=
  Chain .multiply (IsQuotient First) (IsQuotient IsAtom)

/-- Only the very first atom of a difference may have a sign. -/
def IsDifference : List Char → Expr Literal → Prop :=
  Chain .subtract (IsProduct IsSignedAtom) (IsProduct IsAtom)

def IsSum : List Char → Expr Literal → Prop :=
  Chain .add IsDifference IsDifference

namespace Chain

variable {op : Operator} {First Next : List Char → Expr Literal → Prop} {s : List Char}
  {e : Expr Literal}

/-- What holds of all characters of the operands, of blanks and of the operator holds of all
characters of a chain. -/
theorem forall_mem {p : Char → Prop} (h : Chain op First Next s e)
    (hfirst : ∀ s e, First s e → ∀ c ∈ s, p c) (hnext : ∀ s e, Next s e → ∀ c ∈ s, p c)
    (hblank : ∀ c, Text.isBlank c = true → p c) (hop : p op.symbol) : ∀ c ∈ s, p c := by
  induction h with
  | first h => exact hfirst _ _ h
  | next _ hb ha ht ih =>
    simp only [List.forall_mem_append, List.forall_mem_cons]
    exact ⟨⟨ih, fun c hc => hblank c (hb c hc)⟩, hop, fun c hc => hblank c (ha c hc), hnext _ _ ht⟩

/-- What holds of the operands, and of an operation if it holds of both its operands, holds of
the tree of a chain. -/
theorem forall_tree {p : Expr Literal → Prop} (h : Chain op First Next s e)
    (hfirst : ∀ s e, First s e → p e) (hnext : ∀ s e, Next s e → p e)
    (hbinary : ∀ l r, p l → p r → p (.binary op l r)) : p e := by
  induction h with
  | first h => exact hfirst _ _ h
  | next _ _ _ ht ih => exact hbinary _ _ ih (hnext _ _ ht)

/-- A chain in which the operator stands at the start at most has one operand. -/
theorem first_of_not_mem_tail (h : Chain op First Next s e) (hne : ∀ s e, First s e → s ≠ [])
    (hop : op.symbol ∉ s.tail) : First s e := by
  have nonempty {s e} (h : Chain op First Next s e) : s ≠ [] := by
    cases h with
    | first h => exact hne _ _ h
    | next => simp
  cases h with
  | first h => exact h
  | @next s t before after e f h _ _ _ =>
    rw [List.append_assoc, List.tail_append_of_ne_nil (nonempty h)] at hop
    simp at hop

/-- Chains over fewer kinds of first operands, for texts without a given character. -/
theorem imp_of_not_mem {First' Next' : List Char → Expr Literal → Prop} {c : Char}
    (h : Chain op First Next s e) (hc : c ∉ s) (hfirst : ∀ s e, First s e → c ∉ s → First' s e)
    (hnext : ∀ s e, Next s e → Next' s e) : Chain op First' Next' s e := by
  induction h with
  | first h => exact .first (hfirst _ _ h hc)
  | next _ hb ha ht ih =>
    refine .next (ih fun h => hc ?_) hb ha (hnext _ _ ht)
    rw [List.append_assoc]
    exact List.mem_append_left _ h

end Chain

variable {s : List Char} {e : Expr Literal}

theorem IsSignedAtom.of_isNumeral {negative : Bool} {n : Literal} (h : IsNumeral negative s n) :
    IsSignedAtom (withSign negative s) (.number n) := by
  cases negative with
  | false => exact .atom (.number h)
  | true => exact .negative h

theorem IsSum.forall_mem {p : Char → Prop} (h : IsSum s e)
    (hatom : ∀ s e, IsSignedAtom s e → ∀ c ∈ s, p c)
    (hblank : ∀ c, Text.isBlank c = true → p c) (hop : ∀ op : Operator, p op.symbol) :
    ∀ c ∈ s, p c := by
  have hunsigned : ∀ s e, IsAtom s e → ∀ c ∈ s, p c := fun s e h => hatom s e (.atom h)
  have quotient {First : List Char → Expr Literal → Prop}
      (hF : ∀ s e, First s e → ∀ c ∈ s, p c) (s e) (h : IsQuotient First s e) : ∀ c ∈ s, p c :=
    Chain.forall_mem h hF hunsigned hblank (hop _)
  have product {First : List Char → Expr Literal → Prop}
      (hF : ∀ s e, First s e → ∀ c ∈ s, p c) (s e) (h : IsProduct First s e) : ∀ c ∈ s, p c :=
    Chain.forall_mem h (quotient hF) (quotient hunsigned) hblank (hop _)
  have difference (s e) (h : IsDifference s e) : ∀ c ∈ s, p c :=
    Chain.forall_mem h (product hatom) (product hunsigned) hblank (hop _)
  exact Chain.forall_mem h difference difference hblank (hop _)

theorem IsSum.forall_tree {p : Expr Literal → Prop} (h : IsSum s e)
    (hatom : ∀ s e, IsSignedAtom s e → p e)
    (hbinary : ∀ op l r, p l → p r → p (.binary op l r)) : p e := by
  have hunsigned : ∀ s e, IsAtom s e → p e := fun s e h => hatom s e (.atom h)
  have quotient {First : List Char → Expr Literal → Prop}
      (hF : ∀ s e, First s e → p e) (s e) (h : IsQuotient First s e) : p e :=
    Chain.forall_tree h hF hunsigned (hbinary _)
  have product {First : List Char → Expr Literal → Prop}
      (hF : ∀ s e, First s e → p e) (s e) (h : IsProduct First s e) : p e :=
    Chain.forall_tree h (quotient hF) (quotient hunsigned) (hbinary _)
  have difference (s e) (h : IsDifference s e) : p e :=
    Chain.forall_tree h (product hatom) (product hunsigned) (hbinary _)
  exact Chain.forall_tree h difference difference (hbinary _)

theorem IsSum.not_hasBlank (h : IsSum s e) : ¬ e.HasBlank := by
  refine h.forall_tree (p := fun e => ¬ e.HasBlank) ?_ fun op l r hl hr hb => hb.elim hl hr
  rintro s e (⟨⟨_⟩ | ⟨_, _⟩⟩ | ⟨_⟩) <;> exact id

end Grammar

end Spreadsheet
