import Spreadsheet.Proofs.Expr.Grammar

/-! Operands of the grammar from outside: how they start and end, and which operators stand in
them. From a text with a tree, this tells which operand it is. -/
namespace Spreadsheet.Grammar

/-- How an operand looks from outside: it starts with no blank and with no operator but a minus
sign, ends with neither, and has none of these operators behind its first character. -/
structure Shape (ops : List Operator) (s : List Char) : Prop where
  first : ∃ c t, s = c :: t ∧ Text.isBlank c = false ∧
    ∀ op : Operator, op.symbol = c → op = .subtract
  last : ∃ t c, s = t ++ [c] ∧ IsSolid c
  inner : ∀ op ∈ ops, op.symbol ∉ s.tail

variable {ops : List Operator} {s : List Char} {e : Expr Literal}

namespace Shape

theorem ne_nil (h : Shape ops s) : s ≠ [] := by
  obtain ⟨c, t, rfl, -⟩ := h.first
  exact List.cons_ne_nil c t

theorem trim_eq (h : Shape ops s) : Text.trim s = s := by
  apply Text.trim_eq_self
  · intro x hx
    obtain ⟨c, t, rfl, hblank, -⟩ := h.first
    rwa [← Option.some.inj hx]
  · intro x hx
    obtain ⟨t, c, rfl, hc⟩ := h.last
    rw [List.getLast?_concat] at hx
    rw [← Option.some.inj hx]
    exact hc.1

theorem mono {ops' : List Operator} (h : Shape ops s) (hsub : ops' ⊆ ops) : Shape ops' s :=
  ⟨h.first, h.last, fun op hop => h.inner op (hsub hop)⟩

/-- Only a minus sign may stand at the start. -/
theorem not_mem (h : Shape ops s) {op : Operator} (hop : op ∈ ops) (hne : op ≠ .subtract) :
    op.symbol ∉ s := by
  obtain ⟨c, t, rfl, -, hsign⟩ := h.first
  intro hmem
  rcases List.mem_cons.1 hmem with hc | ht
  · exact hne (hsign op hc)
  · exact h.inner op hop ht

theorem hasInner_eq_false (h : Shape ops s) {op : Operator} (hop : op ∈ ops) :
    Text.hasInner op.symbol s = false := by
  rw [Text.hasInner_eq]
  simpa using fun hmem => h.inner op hop ((List.dropLast_sublist _).subset hmem)

private theorem exists_last (hne : s ≠ []) (hs : ∀ c ∈ s, IsSolid c) :
    ∃ t c, s = t ++ [c] ∧ IsSolid c :=
  ⟨s.dropLast, s.getLast hne, (List.dropLast_concat_getLast hne).symm, hs _ (List.getLast_mem hne)⟩

theorem of_isSolid (hne : s ≠ []) (hs : ∀ c ∈ s, IsSolid c) : Shape ops s where
  first := by
    obtain ⟨c, t, rfl⟩ := List.exists_cons_of_ne_nil hne
    have hc := hs c (List.mem_cons_self ..)
    exact ⟨c, t, rfl, hc.1, fun op hop => absurd hop (hc.ne_symbol op)⟩
  last := exists_last hne hs
  inner op _ hmem := (hs _ (List.mem_of_mem_tail hmem)).ne_symbol op rfl

theorem of_isSolid_neg (hne : s ≠ []) (hs : ∀ c ∈ s, IsSolid c) : Shape ops ('-' :: s) where
  first := by
    refine ⟨'-', s, rfl, by decide, fun op hop => ?_⟩
    cases op <;> first | rfl | contradiction
  last := by
    obtain ⟨t, c, rfl, hc⟩ := exists_last hne hs
    exact ⟨'-' :: t, c, rfl, hc⟩
  inner op _ hmem := (hs _ hmem).ne_symbol op rfl

end Shape

theorem isSolid_of_isNumeral {negative : Bool} {n : Literal} (h : IsNumeral negative s n) :
    s ≠ [] ∧ ∀ c ∈ s, IsSolid c := by
  cases h with
  | integer hd => exact ⟨hd.1, fun c hc => isSolid_of_isDigit (hd.2 c hc)⟩
  | decimal hw hf =>
    refine ⟨by simp, List.forall_mem_append.2 ⟨fun c hc => isSolid_of_isDigit (hw c hc), ?_⟩⟩
    exact List.forall_mem_cons.2 ⟨by decide, fun c hc => isSolid_of_isDigit (hf.2 c hc)⟩

theorem IsAtom.isSolid (h : IsAtom s e) : s ≠ [] ∧ ∀ c ∈ s, IsSolid c := by
  cases h with
  | number h => exact isSolid_of_isNumeral h
  | reference hd =>
    exact ⟨by simp, List.forall_mem_cons.2
      ⟨isSolid_letter _, fun c hc => isSolid_of_isDigit (hd.2 c hc)⟩⟩

theorem IsAtom.not_mem (h : IsAtom s e) (op : Operator) : op.symbol ∉ s :=
  fun hmem => (h.isSolid.2 _ hmem).ne_symbol op rfl

theorem IsAtom.shape (h : IsAtom s e) : Shape Operator.all s :=
  .of_isSolid h.isSolid.1 h.isSolid.2

theorem IsSignedAtom.shape (h : IsSignedAtom s e) : Shape Operator.all s := by
  cases h with
  | atom h => exact h.shape
  | negative h => exact .of_isSolid_neg (isSolid_of_isNumeral h).1 (isSolid_of_isNumeral h).2

theorem symbol_ne_of_isBlank {c : Char} (hc : Text.isBlank c = true) (op : Operator) :
    op.symbol ≠ c := by
  rintro rfl
  cases op <;> contradiction

/-- A chain looks like one operand to the operators that are looked for before its own. -/
theorem Chain.shape {op : Operator} {First Next : List Char → Expr Literal → Prop}
    (h : Chain op First Next s e) (hop : op ∉ ops) (hfirst : ∀ s e, First s e → Shape ops s)
    (hnext : ∀ s e, Next s e → Shape [] s ∧ ∀ o ∈ ops, o.symbol ∉ s) : Shape ops s := by
  induction h with
  | first h => exact hfirst _ _ h
  | @next s t before after e f _ hb ha ht ih =>
    obtain ⟨hshape, hfree⟩ := hnext _ _ ht
    refine ⟨?_, ?_, fun o ho hmem => ?_⟩
    · obtain ⟨c, u, rfl, hc⟩ := ih.first
      exact ⟨c, u ++ before ++ op.symbol :: (after ++ t), by simp, hc⟩
    · obtain ⟨u, c, rfl, hc⟩ := hshape.last
      exact ⟨s ++ before ++ op.symbol :: (after ++ u), c, by simp, hc⟩
    · rw [List.append_assoc, List.tail_append_of_ne_nil ih.ne_nil] at hmem
      simp only [List.mem_append, List.mem_cons] at hmem
      rcases hmem with hmem | hmem | hmem | hmem | hmem
      · exact ih.inner o ho hmem
      · exact symbol_ne_of_isBlank (hb _ hmem) o rfl
      · exact hop (Operator.symbol_injective hmem ▸ ho)
      · exact symbol_ne_of_isBlank (ha _ hmem) o rfl
      · exact hfree o ho hmem

/-- A chain without a sign has no operators but its own and those of its operands. -/
theorem Chain.not_mem {op o : Operator} {First Next : List Char → Expr Literal → Prop}
    (h : Chain op First Next s e) (hfirst : ∀ s e, First s e → o.symbol ∉ s)
    (hnext : ∀ s e, Next s e → o.symbol ∉ s) (hne : o ≠ op) : o.symbol ∉ s := by
  intro hmem
  refine h.forall_mem (p := (o.symbol ≠ ·)) ?_ ?_ ?_ ?_ _ hmem rfl
  · exact fun s e h c hc => (ne_of_mem_of_not_mem hc (hfirst s e h)).symm
  · exact fun s e h c hc => (ne_of_mem_of_not_mem hc (hnext s e h)).symm
  · exact fun c hc => symbol_ne_of_isBlank hc o
  · exact fun heq => hne (Operator.symbol_injective heq)

section Levels

variable {First : List Char → Expr Literal → Prop}

theorem IsQuotient.shape (hF : ∀ s e, First s e → Shape Operator.all s)
    (h : IsQuotient First s e) : Shape [.add, .subtract, .multiply] s :=
  Chain.shape h (by decide) (fun s e h => (hF s e h).mono (by decide))
    fun s e h => ⟨h.shape.mono (by simp), fun o _ => h.not_mem o⟩

theorem IsQuotient.not_mem {o : Operator} (h : IsQuotient IsAtom s e) (ho : o ≠ .divide) :
    o.symbol ∉ s :=
  Chain.not_mem h (fun _ _ h => h.not_mem o) (fun _ _ h => h.not_mem o) ho

theorem IsProduct.shape (hF : ∀ s e, First s e → Shape Operator.all s)
    (h : IsProduct First s e) : Shape [.add, .subtract] s :=
  Chain.shape h (by decide) (fun s e h => (IsQuotient.shape hF h).mono (by decide))
    fun s e h => ⟨(IsQuotient.shape (fun _ _ => IsAtom.shape) h).mono (by simp),
      fun o ho => h.not_mem (by rintro rfl; simp at ho)⟩

theorem IsProduct.not_mem {o : Operator} (h : IsProduct IsAtom s e) (hd : o ≠ .divide)
    (hm : o ≠ .multiply) : o.symbol ∉ s :=
  Chain.not_mem h (fun _ _ h => h.not_mem hd) (fun _ _ h => h.not_mem hd) hm

theorem IsDifference.shape (h : IsDifference s e) : Shape [.add] s :=
  Chain.shape h (by decide) (fun s e h => (IsProduct.shape (fun _ _ => IsSignedAtom.shape) h).mono (by simp))
    fun s e h => ⟨(IsProduct.shape (fun _ _ => IsAtom.shape) h).mono (by simp),
      fun o ho => h.not_mem (by rintro rfl; simp at ho) (by rintro rfl; simp at ho)⟩

theorem IsDifference.not_mem (h : IsDifference s e) : Operator.add.symbol ∉ s :=
  h.shape.not_mem (by simp) (by simp)

theorem IsSum.shape (h : IsSum s e) : Shape [] s :=
  Chain.shape h (by simp) (fun s e h => h.shape.mono (by simp))
    fun s e h => ⟨h.shape.mono (by simp), by simp⟩

theorem IsSum.isDifference (h : IsSum s e) (hadd : '+' ∉ s.tail) : IsDifference s e :=
  Chain.first_of_not_mem_tail h (fun _ _ h => h.shape.ne_nil) hadd

theorem IsDifference.isProduct (h : IsDifference s e) (hsub : '-' ∉ s.tail) :
    IsProduct IsSignedAtom s e :=
  Chain.first_of_not_mem_tail h
    (fun _ _ h => (IsProduct.shape (fun _ _ => IsSignedAtom.shape) h).ne_nil) hsub

theorem IsProduct.isQuotient (hF : ∀ s e, First s e → Shape Operator.all s)
    (h : IsProduct First s e) (hmul : '*' ∉ s.tail) : IsQuotient First s e :=
  Chain.first_of_not_mem_tail h (fun _ _ h => (IsQuotient.shape hF h).ne_nil) hmul

theorem IsQuotient.isFirst (hF : ∀ s e, First s e → Shape Operator.all s)
    (h : IsQuotient First s e) (hdiv : '/' ∉ s.tail) : First s e :=
  Chain.first_of_not_mem_tail h (fun s e h => (hF s e h).ne_nil) hdiv

theorem IsSignedAtom.isAtom (h : IsSignedAtom s e) (hsub : '-' ∉ s) : IsAtom s e := by
  cases h with
  | atom h => exact h
  | negative _ => exact absurd (List.mem_cons_self ..) hsub

theorem IsProduct.unsigned (h : IsProduct IsSignedAtom s e) (hsub : '-' ∉ s) :
    IsProduct IsAtom s e :=
  Chain.imp_of_not_mem h hsub
    (fun _ _ h hsub => Chain.imp_of_not_mem h hsub (fun _ _ => IsSignedAtom.isAtom) fun _ _ => id)
    fun _ _ => id

end Levels

/-- Two sums around an operator are one sum, if the operators that bind less are not inside the
whole and the operator itself is not in the right one. -/
theorem isSum_append {op : Operator} {earlier later : List Operator} {l r before after : List Char}
    {f : Expr Literal} (hall : Operator.all = earlier ++ op :: later)
    (hbefore : ∀ c ∈ before, Text.isBlank c = true) (hafter : ∀ c ∈ after, Text.isBlank c = true)
    (hl : IsSum l e) (hr : IsSum r f) (hop : op.symbol ∉ r)
    (hearlier : ∀ o ∈ earlier,
      Text.hasInner o.symbol (l ++ before ++ op.symbol :: (after ++ r)) = false) :
    IsSum (l ++ before ++ op.symbol :: (after ++ r)) (.binary op e f) := by
  have hwhole : l ++ before ++ op.symbol :: (after ++ r) =
      l ++ ((before ++ op.symbol :: after) ++ r) := by simp
  have hinner : ∀ o ∈ earlier, o.symbol ∉ l.tail ∧ o.symbol ∉ r := by
    intro o ho
    have hnone := hearlier o ho
    rw [hwhole, Bool.eq_false_iff, ne_eq, Text.hasInner_append_iff hl.shape.ne_nil hr.shape.ne_nil]
      at hnone
    obtain ⟨w, c, rfl, hc⟩ := hr.shape.last
    refine ⟨fun h => hnone (.inl h), fun h => ?_⟩
    rcases List.mem_append.1 h with h | h
    · exact hnone (.inr (.inr (by rwa [List.dropLast_concat])))
    · exact hc.ne_symbol o (List.mem_singleton.1 h)
  have hsigned : ∀ s e, IsSignedAtom s e → Shape Operator.all s := fun _ _ => IsSignedAtom.shape
  have hatom : ∀ s e, IsAtom s e → Shape Operator.all s := fun _ _ => IsAtom.shape
  have htail {c : Char} (h : c ∉ r) : c ∉ r.tail := fun h' => h (List.mem_of_mem_tail h')
  -- the operator is the first, second, third or fourth that is looked for
  rcases earlier with _ | ⟨a, _ | ⟨b, _ | ⟨c, _ | ⟨d, earlier⟩⟩⟩⟩ <;>
    simp only [Operator.all, List.nil_append, List.cons_append, List.cons.injEq] at hall
  · obtain ⟨rfl, -⟩ := hall
    exact .next hl hbefore hafter (hr.isDifference (htail hop))
  · obtain ⟨rfl, rfl, -⟩ := hall
    have hadd := hinner .add (by simp)
    have hr' := (hr.isDifference (htail hadd.2)).isProduct (htail hop)
    exact .first (.next (hl.isDifference hadd.1) hbefore hafter (hr'.unsigned hop))
  · obtain ⟨rfl, rfl, rfl, -⟩ := hall
    have hadd := hinner .add (by simp)
    have hsub := hinner .subtract (by simp)
    have hl' := (hl.isDifference hadd.1).isProduct hsub.1
    have hr' := ((hr.isDifference (htail hadd.2)).isProduct (htail hsub.2)).unsigned hsub.2
    exact .first (.first (.next hl' hbefore hafter (hr'.isQuotient hatom (htail hop))))
  · obtain ⟨rfl, rfl, rfl, rfl, -⟩ := hall
    have hadd := hinner .add (by simp)
    have hsub := hinner .subtract (by simp)
    have hmul := hinner .multiply (by simp)
    have hl' := ((hl.isDifference hadd.1).isProduct hsub.1).isQuotient hsigned hmul.1
    have hr' := (((hr.isDifference (htail hadd.2)).isProduct (htail hsub.2)).unsigned
      hsub.2).isQuotient hatom (htail hmul.2)
    exact .first (.first (.first (.next hl' hbefore hafter (hr'.isFirst hatom (htail hop)))))
  · simp at hall

end Spreadsheet.Grammar
