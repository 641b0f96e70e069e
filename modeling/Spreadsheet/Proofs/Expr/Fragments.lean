import Spreadsheet.Proofs.Expr.Parsing

namespace Spreadsheet

namespace Expr

/-- What stands on one side of the operator at which a text is split, if neither side is blank. -/
def IsOperand (text piece : List Char) : Prop :=
  ∃ op left right, Operator.all.find? (Text.hasInner ·.symbol (Text.trim text)) = some op ∧
    (Text.trim text = left ++ op.symbol :: right ∧ op.symbol ∉ right ∧
      Text.trim left ≠ [] ∧ Text.trim right ≠ []) ∧
    (piece = left ∨ piece = right)

variable {text piece : List Char} {e : ParseError}

theorem isOperand_trim : IsOperand (Text.trim text) piece ↔ IsOperand text piece := by
  simp only [IsOperand, Text.trim_trim]

private theorem trim_isInfix (text : List Char) : Text.trim text <:+: text := by
  obtain ⟨before, after, heq, -⟩ := Text.exists_eq_append_trim text
  exact ⟨before, after, heq.symm⟩

theorem IsOperand.isInfix (h : IsOperand text piece) : piece <:+: text := by
  obtain ⟨op, left, right, -, ⟨heq, -⟩, rfl | rfl⟩ := h
  · exact List.IsInfix.trans ⟨[], op.symbol :: right, heq.symm⟩ (trim_isInfix text)
  · exact List.IsInfix.trans ⟨left ++ [op.symbol], [], by simp [heq]⟩ (trim_isInfix text)

theorem IsOperand.length_lt (h : IsOperand text piece) : piece.length < text.length := by
  obtain ⟨op, left, right, -, hsides, hpiece⟩ := h
  have hshort := length_lt_of_splitOperands (splitOperands_eq_ok_iff.2 hsides)
  rcases hpiece with rfl | rfl
  · exact hshort.1
  · exact hshort.2

theorem fragment_of_parseTerminal (h : parseTerminal text = .error e) :
    e.fragment = Text.trim text := by
  simp only [parseTerminal] at h
  split at h
  · split at h
    · rw [← Except.error.inj h]
    · split at h
      · rw [← Except.error.inj h]
      · contradiction
  · split at h
    · contradiction
    · split at h
      · cases ha : Address.ofName? (Text.trim text) with
        | none =>
          rw [ha] at h
          rw [← Except.error.inj h]
        | some a =>
          rw [ha] at h
          contradiction
      · split at h
        · contradiction
        · rw [← Except.error.inj h]

theorem fragment_of_splitOperands {op : Operator} (h : splitOperands op text = .error e) :
    e.fragment = Text.trim text := by
  simp only [splitOperands] at h
  split at h
  · rw [← Except.error.inj h]
  · split at h
    · rw [← Except.error.inj h]
    · split at h
      · rw [← Except.error.inj h]
      · contradiction

/-- Text that cannot be read is wrong as a whole, or has an operand that cannot be read. -/
theorem parseText_eq_error (h : parseText text = .error e) :
    (e.fragment = Text.trim text ∧ ∀ piece, ¬ IsOperand text piece) ∨
      ∃ piece, IsOperand text piece ∧ parseText piece = .error e := by
  rw [parseText_eq] at h
  cases hop : Operator.all.find? (Text.hasInner ·.symbol (Text.trim text)) with
  | none =>
    rw [hop] at h
    refine .inl ⟨fragment_of_parseTerminal h, ?_⟩
    rintro piece ⟨op, left, right, hop', -⟩
    rw [hop] at hop'
    contradiction
  | some op =>
    rw [hop] at h
    rcases bind_eq_error_iff.1 h with hsplit | ⟨⟨left, right⟩, hsplit, h⟩
    · refine .inl ⟨fragment_of_splitOperands hsplit, ?_⟩
      rintro piece ⟨op', left, right, hop', hsides, -⟩
      obtain rfl := Option.some.inj (hop.symm.trans hop')
      rw [splitOperands_eq_ok_iff.2 hsides] at hsplit
      contradiction
    · have hsides := splitOperands_eq_ok_iff.1 hsplit
      rcases bind_eq_error_iff.1 h with hleft | ⟨l, -, h⟩
      · exact .inr ⟨left, ⟨op, left, right, hop, hsides, .inl rfl⟩, hleft⟩
      · rcases bind_eq_error_iff.1 h with hright | ⟨r, -, h⟩
        · exact .inr ⟨right, ⟨op, left, right, hop, hsides, .inr rfl⟩, hright⟩
        · contradiction

/-- An error comes up from operand to operand, unchanged, from the piece that it names. -/
theorem fragment_of_parseText (h : parseText text = .error e) :
    e.fragment <:+: text ∧ parseText e.fragment = .error e ∧
      ∀ piece, ¬ IsOperand e.fragment piece := by
  induction hn : text.length using Nat.strong_induction_on generalizing text with
  | h n ih =>
    rcases parseText_eq_error h with ⟨heq, hnone⟩ | ⟨piece, hpiece, herror⟩
    · rw [heq, parseText_trim]
      exact ⟨trim_isInfix text, h, fun piece hpiece => hnone piece (isOperand_trim.1 hpiece)⟩
    · obtain ⟨hpart, hself⟩ := ih piece.length (hn ▸ hpiece.length_lt) herror rfl
      exact ⟨hpart.trans hpiece.isInfix, hself⟩

end Expr

/-- An error of reading cell text names a piece of the text. Read by itself this piece gives the
same error, and its operands are not to blame: a character of it is unsupported, or it has none. -/
theorem malformed_fragment {text : List Char} {e : ParseError} (h : Formula.parse text = .error e) :
    e.fragment <:+: text ∧ Formula.parse e.fragment = .error e ∧
      ((∃ c ∈ e.fragment, Expr.isCellChar c = false) ∨
        ∀ piece, ¬ Expr.IsOperand e.fragment piece) := by
  have hparse := map_eq_error_iff.1 h
  rw [Formula.parse, map_eq_error_iff]
  cases hfind : text.find? (!Expr.isCellChar ·) with
  | some c =>
    have hfragment : e.fragment = text := by
      rw [Expr.parse, hfind] at hparse
      rw [← Except.error.inj hparse]
    rw [hfragment]
    have hc : Expr.isCellChar c = false := by simpa using List.find?_some hfind
    exact ⟨List.infix_rfl, hparse, .inl ⟨c, List.mem_of_find?_eq_some hfind, hc⟩⟩
  | none =>
    rw [Expr.parse, hfind] at hparse
    obtain ⟨hpart, hself, hnone⟩ := Expr.fragment_of_parseText hparse
    -- a piece has no character that its text does not have
    have hsupported : e.fragment.find? (!Expr.isCellChar ·) = none := by
      rw [List.find?_eq_none] at hfind ⊢
      exact fun c hc => hfind c (hpart.subset hc)
    rw [Expr.parse, hsupported]
    exact ⟨hpart, hself, .inr hnone⟩

/-- The hyphen before `-99` is inside the text, so that it is no sign. -/
theorem malformed_fragment_trailing_operator :
    Formula.parse "7+ 3- -99".toList = .error ⟨"3-".toList, .unsupportedTerminal⟩ ∧
      "3-".toList <:+: "7+ 3- -99".toList ∧
      Formula.parse "3-".toList = .error ⟨"3-".toList, .unsupportedTerminal⟩ := by
  have h : Formula.parse "7+ 3- -99".toList = .error ⟨"3-".toList, .unsupportedTerminal⟩ := by decide +kernel
  exact ⟨h, (malformed_fragment h).1, (malformed_fragment h).2.1⟩

end Spreadsheet
