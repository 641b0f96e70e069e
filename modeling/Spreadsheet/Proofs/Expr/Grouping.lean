import Spreadsheet.Proofs.Expr.Arithmetic
import Spreadsheet.Sheet.Read

/-! Which texts are grouped from left to right. Additions are looked for before subtractions, and
multiplications before divisions, so an addition takes the subtractions behind it as a part of its
right operand, and a multiplication the divisions. -/
namespace Spreadsheet

def Token.operator? : Token → Option Operator
  | .operand _ => none
  | .operator op => some op

def operators (text : List Char) : List Operator :=
  (tokens true text).filterMap Token.operator?

namespace Operator

/-- In some term, a multiplication stands before a division. -/
def RegroupsTerm (ops : List Operator) : Prop :=
  ∃ term ∈ ops.splitOnP (!·.isTight), [multiply, divide].Sublist term

def Regroups (ops : List Operator) : Prop :=
  [add, subtract].Sublist ops ∨ RegroupsTerm ops

instance (ops : List Operator) : Decidable (RegroupsTerm ops) :=
  inferInstanceAs (Decidable (∃ term ∈ _, _))

instance (ops : List Operator) : Decidable (Regroups ops) :=
  inferInstanceAs (Decidable (_ ∨ _))

variable {a b : Operator} {ops more : List Operator}

theorem eq_subtract (hloose : a.isTight = false) (hne : a ≠ add) : a = subtract := by
  cases a with
  | add => contradiction
  | subtract => rfl
  | multiply | divide => contradiction

theorem pair_sublist_append (hab : a ≠ b) :
    [a, b].Sublist (ops ++ a :: more) ↔ [a, b].Sublist ops ∨ b ∈ more := by
  induction ops with
  | nil => simp [List.cons_sublist_cons]
  | cons op ops ih =>
    simp only [List.cons_append, List.cons_sublist_cons', ih, List.singleton_sublist,
      List.mem_append, List.mem_cons, hab.symm, false_or]
    tauto

theorem not_pair_sublist (h : ∀ op ∈ ops, op ≠ a) : ¬ [a, b].Sublist ops :=
  fun hsub => h a (hsub.subset (List.mem_cons_self ..)) rfl

theorem regroupsTerm_of_isTight (h : ∀ op ∈ ops, op.isTight) :
    RegroupsTerm ops ↔ [multiply, divide].Sublist ops := by
  have hsplit : ops.splitOnP (!·.isTight) = [ops] :=
    List.splitOnP_eq_singleton (by simpa using h)
  simp [RegroupsTerm, hsplit]

theorem regroupsTerm_append (h : a.isTight = false) :
    RegroupsTerm (ops ++ a :: more) ↔ RegroupsTerm ops ∨ RegroupsTerm more := by
  have hcut : (!a.isTight) = true := by rw [h]; rfl
  have hsplit := List.splitOnP_append_cons (p := (!·.isTight)) ops more hcut
  simp only [RegroupsTerm, hsplit, List.mem_append, or_and_right, exists_or]

end Operator

namespace Expr

variable {ν : Type} {before : Expr ν → Expr ν} {first second e f l r : Expr ν} {op : Operator}
  {steps more : List (Operator × Expr ν)}

/-- The last operator is that of the whole tree. -/
theorem applyAll_ne_binary (hne : steps ≠ []) (h : ∀ step ∈ steps, step.1 ≠ op) :
    first.applyAll steps ≠ .binary op l r := by
  obtain rfl | ⟨init, ⟨last, g⟩, rfl⟩ := List.eq_nil_or_concat' steps
  · contradiction
  · rw [applyAll_append]
    have := h (last, g) (by simp)
    intro heq
    injection heq with hop
    contradiction

/-- The last operator that is not tight is that of the whole tree. -/
theorem readFrom_ne_binary (hloose : ∃ step ∈ steps, step.1.isTight = false)
    (h : ∀ step ∈ steps, step.1 ≠ op) : readFrom before first steps ≠ .binary op l r := by
  induction steps generalizing before first with
  | nil => simp at hloose
  | cons step steps ih =>
    obtain ⟨o, g⟩ := step
    obtain ⟨ho, hrest⟩ := List.forall_mem_cons.1 h
    -- The operator that decides is here, or it is further behind.
    by_cases hlater : ∃ step ∈ steps, step.1.isTight = false
    · rw [readFrom]
      split <;> exact ih hlater hrest
    · have htight : ∀ step ∈ steps, step.1.isTight := by simpa using hlater
      have hfirst : o.isTight = false := by simpa [hlater] using hloose
      rw [readFrom, if_neg (by simp [hfirst]), readFrom_of_isTight htight]
      intro heq
      injection heq with hop
      contradiction

structure ReadsQuotient (first : Expr ν) (steps : List (Operator × Expr ν)) (e : Expr ν) :
    Prop where
  divide : ∀ step ∈ steps, step.1 = .divide
  tree : first.applyAll steps = e

structure ReadsProduct (first : Expr ν) (steps : List (Operator × Expr ν)) (e : Expr ν) :
    Prop where
  isTight : ∀ step ∈ steps, step.1.isTight
  leftToRight : first.applyAll steps = e ↔ ¬ [.multiply, .divide].Sublist (steps.map Prod.fst)

structure ReadsDifference (first : Expr ν) (steps : List (Operator × Expr ν)) (e : Expr ν) :
    Prop where
  ne_add : ∀ step ∈ steps, step.1 ≠ .add
  leftToRight : conventional first steps = e ↔ ¬ Operator.RegroupsTerm (steps.map Prod.fst)

def ReadsSum (first : Expr ν) (steps : List (Operator × Expr ν)) (e : Expr ν) : Prop :=
  conventional first steps = e ↔ ¬ Operator.Regroups (steps.map Prod.fst)

theorem ReadsQuotient.nil (e : Expr ν) : ReadsQuotient e [] e :=
  ⟨by simp, rfl⟩

theorem ReadsQuotient.next (h : ReadsQuotient first steps e) (h' : more = [] ∧ second = f) :
    ReadsQuotient first (steps ++ (.divide, second) :: more) (.binary .divide e f) := by
  obtain ⟨rfl, rfl⟩ := h'
  refine ⟨List.forall_mem_append.2 ⟨h.divide, by simp⟩, ?_⟩
  rw [applyAll_append, h.tree]
  rfl

theorem ReadsQuotient.product (h : ReadsQuotient first steps e) : ReadsProduct first steps e where
  isTight step hstep := by rw [h.divide step hstep]; rfl
  leftToRight := by
    refine iff_of_true h.tree (Operator.not_pair_sublist (List.forall_mem_map.2 ?_))
    intro step hstep
    rw [h.divide step hstep]
    decide

theorem ReadsProduct.next (h : ReadsProduct first steps e) (h' : ReadsQuotient second more f) :
    ReadsProduct first (steps ++ (.multiply, second) :: more) (.binary .multiply e f) where
  isTight := List.forall_mem_append.2 ⟨h.isTight, List.forall_mem_cons.2 ⟨rfl, h'.product.isTight⟩⟩
  leftToRight := by
    rw [applyAll_append, List.map_append, List.map_cons, Operator.pair_sublist_append (by decide)]
    cases more with
    | nil =>
      obtain rfl : second = f := h'.tree
      simpa [applyAll] using h.leftToRight
    | cons step later =>
      have hstep : step.1 = .divide := h'.divide step (by simp)
      refine iff_of_false (applyAll_ne_binary (by simp) ?_) ?_
      · intro step hstep
        rw [h'.divide step hstep]
        decide
      · simp [hstep]

theorem ReadsProduct.difference (h : ReadsProduct first steps e) :
    ReadsDifference first steps e where
  ne_add step hstep := by
    intro heq
    have := h.isTight step hstep
    rw [heq] at this
    contradiction
  leftToRight := by
    rw [Operator.regroupsTerm_of_isTight (by simpa using h.isTight), ← h.leftToRight, conventional,
      readFrom_of_isTight h.isTight]
    rfl

theorem ReadsDifference.next (h : ReadsDifference first steps e) (h' : ReadsProduct second more f) :
    ReadsDifference first (steps ++ (.subtract, second) :: more) (.binary .subtract e f) where
  ne_add := List.forall_mem_append.2 ⟨h.ne_add,
    List.forall_mem_cons.2 ⟨by simp, h'.difference.ne_add⟩⟩
  leftToRight := by
    have hleft := h.leftToRight
    have hright := h'.difference.leftToRight
    rw [conventional, readFrom_of_isTight h'.isTight] at hright
    rw [List.map_append, List.map_cons, Operator.regroupsTerm_append rfl, not_or, ← hleft, ← hright,
      conventional, readFrom_append rfl, readFrom_of_isTight h'.isTight]
    simp [conventional]

theorem ReadsDifference.sum (h : ReadsDifference first steps e) : ReadsSum first steps e := by
  have hadd : ∀ op ∈ steps.map Prod.fst, op ≠ .add := List.forall_mem_map.2 h.ne_add
  rw [ReadsSum, h.leftToRight, Operator.Regroups, or_iff_right (Operator.not_pair_sublist hadd)]

theorem ReadsSum.next (h : ReadsSum first steps e) (h' : ReadsDifference second more f) :
    ReadsSum first (steps ++ (.add, second) :: more) (.binary .add e f) := by
  rw [ReadsSum, List.map_append, List.map_cons, Operator.Regroups,
    Operator.pair_sublist_append (by decide), Operator.regroupsTerm_append rfl, conventional,
    readFrom_append rfl]
  -- Read from left to right, a subtraction behind the addition would be the last operator.
  by_cases hloose : ∃ step ∈ more, step.1.isTight = false
  · refine iff_of_false (readFrom_ne_binary hloose h'.ne_add) ?_
    obtain ⟨step, hstep, hop⟩ := hloose
    have hsubtract : Operator.subtract ∈ more.map Prod.fst :=
      List.mem_map.2 ⟨step, hstep, Operator.eq_subtract hop (h'.ne_add step hstep)⟩
    exact not_not_intro (.inl (.inr hsubtract))
  · have htight : ∀ step ∈ more, step.1.isTight := by simpa using hloose
    have hright := h'.leftToRight
    rw [conventional, readFrom_of_isTight htight] at hright
    have hsubtract : Operator.subtract ∉ more.map Prod.fst := by
      rw [List.mem_map]
      rintro ⟨step, hstep, hop⟩
      have := htight step hstep
      rw [hop] at this
      contradiction
    have hleft : conventional first steps = e ↔ _ := h
    rw [Operator.Regroups] at hleft
    rw [readFrom_of_isTight htight, or_iff_left hsubtract, ← or_assoc, not_or, ← hleft, ← hright]
    simp [conventional]

end Expr

theorem filterMap_operator?_of_steps? {ts : List Token} {steps : List (Operator × Expr ℚ)}
    (h : steps? ts = some steps) : ts.filterMap Token.operator? = steps.map Prod.fst := by
  fun_induction steps? ts generalizing steps with
  | case1 =>
    obtain rfl := Option.some.inj h
    rfl
  | case2 op s rest ih =>
    simp only [Option.bind_eq_bind, Option.bind_eq_some_iff, Option.pure_def] at h
    obtain ⟨f, -, more, hmore, h⟩ := h
    obtain rfl := Option.some.inj h
    simp [List.filterMap_cons, Token.operator?, ih hmore]
  | case3 => contradiction

namespace Spells

variable {text : List Char} {first : Expr ℚ} {steps : List (Operator × Expr ℚ)}

theorem tokens_eq (h : Spells (Text.trim text) first steps) :
    ∃ t ts, tokens true text = .operand t :: ts ∧ operand? t = some first ∧
      steps? ts = some steps := by
  obtain ⟨t, ts, ht, hts, htokens⟩ := h
  refine ⟨t, ts, ?_, ht, hts⟩
  simpa [tokens_trim, tokens_nil] using htokens []

theorem conventional?_eq (h : Spells (Text.trim text) first steps) :
    conventional? text = some (.conventional first steps) := by
  obtain ⟨t, ts, htokens, ht, hts⟩ := h.tokens_eq
  simp only [conventional?, htokens, ht, hts]
  rfl

theorem operators_eq (h : Spells (Text.trim text) first steps) :
    operators text = steps.map Prod.fst := by
  obtain ⟨t, ts, htokens, -, hts⟩ := h.tokens_eq
  simp [operators, htokens, List.filterMap_cons, Token.operator?,
    filterMap_operator?_of_steps? hts]

end Spells

def ReadsAs (P : Expr ℚ → List (Operator × Expr ℚ) → Expr ℚ → Prop) (s : List Char)
    (e : Expr Literal) : Prop :=
  ∃ first steps, Spells s first steps ∧ P first steps (e.map Literal.value)

namespace Grammar

variable {s : List Char} {e : Expr Literal} {op : Operator}
  {First Next : List Char → Expr Literal → Prop}
  {P Q : Expr ℚ → List (Operator × Expr ℚ) → Expr ℚ → Prop}

theorem Chain.readsAs (h : Chain op First Next s e) (hfirst : ∀ s e, First s e → ReadsAs P s e)
    (hnext : ∀ s e, Next s e → ReadsAs Q s e)
    (hjoin : ∀ {first steps e second more f}, P first steps e → Q second more f →
      P first (steps ++ (op, second) :: more) (.binary op e f)) : ReadsAs P s e := by
  induction h with
  | first h => exact hfirst _ _ h
  | next _ hb ha ht ih =>
    obtain ⟨first, steps, hs, hleft⟩ := ih
    obtain ⟨second, more, ht, hright⟩ := hnext _ _ ht
    exact ⟨first, _, hs.next ht hb ha, hjoin hleft hright⟩

theorem IsQuotient.readsAs (hF : ∀ s e, First s e → IsSignedAtom s e) (h : IsQuotient First s e) :
    ReadsAs Expr.ReadsQuotient s e :=
  Chain.readsAs h (fun s e h => ⟨_, [], .of_isSignedAtom (hF s e h), .nil _⟩)
    (fun _ _ h => ⟨_, [], .of_isSignedAtom (.atom h), rfl, rfl⟩) .next

theorem IsProduct.readsAs (hF : ∀ s e, First s e → IsSignedAtom s e) (h : IsProduct First s e) :
    ReadsAs Expr.ReadsProduct s e := by
  refine Chain.readsAs h (fun s e h => ?_) (fun s e => IsQuotient.readsAs fun _ _ => .atom) .next
  obtain ⟨first, steps, hs, hreads⟩ := IsQuotient.readsAs hF h
  exact ⟨first, steps, hs, hreads.product⟩

theorem IsDifference.readsAs (h : IsDifference s e) : ReadsAs Expr.ReadsDifference s e := by
  refine Chain.readsAs h (fun s e h => ?_) (fun s e => IsProduct.readsAs fun _ _ => .atom) .next
  obtain ⟨first, steps, hs, hreads⟩ := IsProduct.readsAs (fun _ _ h => h) h
  exact ⟨first, steps, hs, hreads.difference⟩

theorem IsSum.readsAs (h : IsSum s e) : ReadsAs Expr.ReadsSum s e := by
  refine Chain.readsAs h (fun s e h => ?_) (fun s e => IsDifference.readsAs) .next
  obtain ⟨first, steps, hs, hreads⟩ := IsDifference.readsAs h
  exact ⟨first, steps, hs, hreads.sum⟩

end Grammar

/-- The tree of a text that is not blank is its conventional reading exactly if no addition stands
before a subtraction, and within no term a multiplication before a division. -/
theorem grouped_leftToRight_iff {text : List Char} {e : Expr Literal}
    (h : Expr.parse text = .ok e) (hne : Text.trim text ≠ []) :
    ∃ reading, conventional? text = some reading ∧
      (e.map Literal.value = reading ↔ ¬ Operator.Regroups (operators text)) := by
  have hsum : Grammar.IsSum (Text.trim text) e :=
    (Expr.parse_eq_ok_iff.1 h).resolve_left fun hnil => hne hnil.1
  obtain ⟨first, steps, hs, hreads⟩ := hsum.readsAs
  refine ⟨_, hs.conventional?_eq, ?_⟩
  rw [hs.operators_eq, eq_comm]
  exact hreads

/-- A text that is not grouped from left to right in its last term only. -/
theorem grouped_leftToRight_iff_product :
    let text := "10-2+8*6/4".toList
    let number (n : Int64) : Expr Literal := .number (.integer n)
    let tree : Expr Literal := .binary .add (.binary .subtract (number 10) (number 2))
      (.binary .multiply (number 8) (.binary .divide (number 6) (number 4)))
    Expr.parse text = .ok tree ∧ Text.trim text ≠ [] ∧
      ∃ reading, conventional? text = some reading ∧ tree.map Literal.value ≠ reading := by
  intro text number tree
  have hparse : Expr.parse text = .ok tree := by decide +kernel
  have hne : Text.trim text ≠ [] := by decide
  obtain ⟨reading, hreading, hgrouped⟩ := grouped_leftToRight_iff hparse hne
  exact ⟨hparse, hne, reading, hreading, fun heq => hgrouped.1 heq (by decide +kernel)⟩

/-- A subtraction behind an addition is carried out first. From left to right, the addition would
round, and the value would be another one. -/
theorem value_of_regrouped_sum :
    let large : Formula := .number (.integer 9007199254740992)
    let one : Formula := .number (.integer 1)
    let tree : Formula := .binary .add large (.binary .subtract one one)
    let leftToRight : Formula := .binary .subtract (.binary .add large one) one
    Formula.parse "9007199254740992+1-1".toList = .ok tree ∧
      (∅ : Sheet).value tree = .ok 9007199254740992 ∧
      (∅ : Sheet).value leftToRight = .ok 9007199254740991 := by
  intro large one tree leftToRight
  refine ⟨by decide +kernel, ?_, ?_⟩
  · simp only [Sheet.value, tree, large, one, Sheet.eval_binary, Sheet.eval_number, Except.map]
    exact congrArg Except.ok (by decide +kernel)
  · simp only [Sheet.value, leftToRight, large, one, Sheet.eval_binary, Sheet.eval_number,
      Except.map]
    exact congrArg Except.ok (by decide +kernel)

end Spreadsheet
