import Spreadsheet.Proofs.Expr.Shape

namespace Spreadsheet

inductive Token
  | operand (text : List Char)
  | operator (op : Operator)
deriving DecidableEq, Repr

/-- The pieces of a text, without the blanks around them. Where an operand is due, whatever is not
blank begins one, so a minus sign there belongs to it. An operand ends where a blank or an operator
follows. -/
def tokens (due : Bool) : List Char → List Token
  | [] => []
  | c :: rest =>
    if Text.isBlank c then tokens due rest
    else match if due then none else Operator.ofSymbol? c with
      | some op => .operator op :: tokens true rest
      | none =>
        .operand (c :: rest.takeWhile (IsSolid ·)) :: tokens false (rest.dropWhile (IsSolid ·))
termination_by text => text.length
decreasing_by
  · simp
  · simp
  · have := (rest.dropWhile_sublist (IsSolid ·)).length_le
    rw [List.length_cons]
    omega

section Tokens

variable {due : Bool} {s rest blanks : List Char} {c : Char}

theorem tokens_nil : tokens due [] = [] := by
  rw [tokens]

theorem tokens_blank_append (hb : ∀ c ∈ blanks, Text.isBlank c = true) :
    tokens due (blanks ++ rest) = tokens due rest := by
  induction blanks with
  | nil => rfl
  | cons c blanks ih =>
    obtain ⟨hc, hb⟩ := List.forall_mem_cons.1 hb
    rw [List.cons_append, tokens, if_pos hc, ih hb]

theorem tokens_symbol (op : Operator) :
    tokens false (op.symbol :: rest) = .operator op :: tokens true rest := by
  have hblank : Text.isBlank op.symbol = false := by cases op <;> rfl
  simp only [tokens, hblank, Operator.ofSymbol?_eq_some_iff.2 rfl, Bool.false_eq_true, if_false]

theorem tokens_operand (hc : Text.isBlank c = false) (hs : ∀ d ∈ s, IsSolid d)
    (hrest : ∀ d ∈ rest.head?, ¬ IsSolid d) :
    tokens true (c :: s ++ rest) = .operand (c :: s) :: tokens false rest := by
  have hkeep : ∀ d ∈ s, decide (IsSolid d) = true := fun d hd => decide_eq_true (hs d hd)
  have htake : rest.takeWhile (IsSolid ·) = [] := by
    cases rest with
    | nil => rfl
    | cons d rest => exact List.takeWhile_cons_of_neg (by simpa using hrest d rfl)
  have hdrop : rest.dropWhile (IsSolid ·) = rest := by
    cases rest with
    | nil => rfl
    | cons d rest => exact List.dropWhile_cons_of_neg (by simpa using hrest d rfl)
  simp only [List.cons_append, tokens, hc, Bool.false_eq_true, if_false, if_true,
    List.takeWhile_append_of_pos hkeep, htake, List.dropWhile_append_of_pos hkeep, hdrop,
    List.append_nil]

theorem tokens_append_blank (hb : ∀ c ∈ blanks, Text.isBlank c = true) :
    tokens due (s ++ blanks) = tokens due s := by
  have hstop : ∀ c ∈ blanks, ¬ decide (IsSolid c) = true := by
    intro c hc hsolid
    have := (of_decide_eq_true hsolid).1
    rw [hb c hc] at this
    contradiction
  have htake : blanks.takeWhile (IsSolid ·) = [] :=
    List.takeWhile_eq_nil_iff.2 fun h => hstop _ (List.getElem_mem h)
  have hdrop : blanks.dropWhile (IsSolid ·) = blanks :=
    List.dropWhile_eq_self_iff.2 fun h => hstop _ (List.getElem_mem h)
  fun_induction tokens due s with
  | case1 => rw [List.nil_append, ← List.append_nil blanks, tokens_blank_append hb, tokens_nil]
  | case2 due c rest hc ih => rw [List.cons_append, tokens, if_pos hc, ih]
  | case3 due c rest hc op hop ih =>
    simp only [dite_eq_ite] at hop
    simp only [List.cons_append, tokens, if_neg hc, hop, ih]
  | case4 due c rest hc hop ih =>
    simp only [dite_eq_ite] at hop
    have hkeep : (rest ++ blanks).takeWhile (IsSolid ·) = rest.takeWhile (IsSolid ·) := by
      rw [List.takeWhile_append, htake]
      split
      · next h => rw [List.append_nil, (List.takeWhile_prefix _).eq_of_length h]
      · rfl
    have hleave :
        (rest ++ blanks).dropWhile (IsSolid ·) = rest.dropWhile (IsSolid ·) ++ blanks := by
      rw [List.dropWhile_append, hdrop]
      split
      · next h => rw [List.isEmpty_iff.1 h, List.nil_append]
      · rfl
    simp only [List.cons_append, tokens, if_neg hc, hop, hkeep, hleave, ih]

/-- Blanks around a text say nothing. -/
theorem tokens_trim (text : List Char) : tokens due (Text.trim text) = tokens due text := by
  obtain ⟨before, after, heq, hb, ha⟩ := Text.exists_eq_append_trim text
  conv => rhs; rw [heq, List.append_assoc, tokens_blank_append hb, tokens_append_blank ha]

end Tokens

end Spreadsheet
