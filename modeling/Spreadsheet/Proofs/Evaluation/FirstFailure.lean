import Mathlib.Logic.Relation
import Spreadsheet.Proofs.Evaluation.Unfolding

/-! Failing evaluations, told leaf by leaf. The leaves of a formula are walked from left to right,
and what a cell holds is walked before what stands to the right of the reference to it. Evaluating
fails exactly with what is wrong with the first leaf that fails, and enters nothing beyond it. -/
namespace Spreadsheet.Sheet

variable (sheet : Sheet)

structure IsChain (entered chain : List Address) : Prop where
  sorted : chain.Pairwise Address.Before
  mem_iff : ∀ a, a ∈ chain ↔ a ∈ entered

/-- What is wrong with a leaf where these cells have been entered, and which cells it enters before
it fails. A cell that was never written is entered, and one that refers to itself is not. -/
inductive Fails (entered : List Address) : Formula → ReadError → List Address → Prop
  | blank : Fails entered .blank .blank []
  | outside {a : Address} :
      ¬ sheet.covers a → Fails entered (.reference a) (.outOfRange a) []
  | itself {a : Address} :
      sheet.covers a → sheet.find? a = some (.reference a) →
      Fails entered (.reference a) (.selfReference a) []
  | again {a : Address} {chain : List Address} :
      sheet.covers a → sheet.find? a ≠ some (.reference a) → a ∈ entered →
      IsChain entered chain → Fails entered (.reference a) (.circular a chain) []
  | unwritten {a : Address} :
      sheet.covers a → a ∉ entered → sheet.find? a = none →
      Fails entered (.reference a) .blank [a]

def Passes (entered : List Address) (leaf : Formula) : Prop :=
  ∀ cause added, ¬ sheet.Fails entered leaf cause added

def below : Formula → List Formula
  | .reference a => (sheet.find? a).toList
  | _ => []

/-- How far a walk has come: the cells entered, the latest first, and what is still to be walked. -/
structure Position where
  entered : List Address
  pending : List Formula

inductive WalkStep : Position → Position → Prop
  | leaf {entered : List Address} {leaf : Formula} {pending : List Formula} :
      leaf.isLeaf → sheet.Passes entered leaf →
      WalkStep ⟨entered, leaf :: pending⟩
        ⟨leaf.references ++ entered, sheet.below leaf ++ pending⟩
  | operands {entered : List Address} {op : Operator} {l r : Formula} {pending : List Formula} :
      WalkStep ⟨entered, .binary op l r :: pending⟩ ⟨entered, l :: r :: pending⟩

def Walks : Position → Position → Prop :=
  Relation.ReflTransGen sheet.WalkStep

/-- The walk over a formula comes to a leaf that fails with this error, and then these cells have
been entered. -/
def FirstFailure (v : Visits) (f : Formula) (cause : ReadError) (entered : List Address) : Prop :=
  ∃ before leaf pending added, sheet.Walks ⟨v.order, [f]⟩ ⟨before, leaf :: pending⟩ ∧
    sheet.Fails before leaf cause added ∧ entered = added ++ before

variable {sheet} {v w : Visits} {f : Formula} {a : Address} {cause : ReadError}
  {entered added : List Address} {pending : List Formula}

theorem isChain_chain (v : Visits) : IsChain v.order v.chain where
  sorted := Std.TreeSet.ordered_toList.imp Address.compare_eq_lt_iff.1
  mem_iff _ := v.mem_chain

theorem IsChain.unique {chain other : List Address} (h : IsChain entered chain)
    (h' : IsChain entered other) : chain = other :=
  Address.eq_of_pairwise_before h.sorted h'.sorted fun a =>
    (h.mem_iff a).trans (h'.mem_iff a).symm

theorem Fails.unique {leaf : Formula} {cause' : ReadError} {added' : List Address}
    (h : sheet.Fails entered leaf cause added) (h' : sheet.Fails entered leaf cause' added') :
    cause = cause' ∧ added = added' := by
  cases h with
  | blank =>
    cases h'
    exact ⟨rfl, rfl⟩
  | outside hc => cases h' <;> first | exact ⟨rfl, rfl⟩ | contradiction
  | itself _ hs =>
    cases h' with
    | itself => exact ⟨rfl, rfl⟩
    | outside | again => contradiction
    | unwritten _ _ hn => simp [hn] at hs
  | again _ _ ha hchain =>
    cases h' with
    | again _ _ _ hchain' => exact ⟨by rw [hchain.unique hchain'], rfl⟩
    | outside | itself | unwritten => contradiction
  | unwritten _ _ hn =>
    cases h' with
    | unwritten => exact ⟨rfl, rfl⟩
    | outside | again => contradiction
    | itself _ hs => simp [hn] at hs

theorem Fails.not_walkStep {leaf : Formula} {next : Position}
    (h : sheet.Fails entered leaf cause added) :
    ¬ sheet.WalkStep ⟨entered, leaf :: pending⟩ next := by
  intro hstep
  cases hstep with
  | leaf _ hpass => exact hpass _ _ h
  | operands => cases h

theorem not_walkStep_nil {next : Position} : ¬ sheet.WalkStep ⟨entered, []⟩ next := nofun

theorem walkStep_unique : Relator.RightUnique sheet.WalkStep := by
  intro p q q' h h'
  cases h with
  | leaf hleaf =>
    cases h' with
    | leaf => rfl
    | operands => contradiction
  | operands =>
    cases h' with
    | leaf hleaf => contradiction
    | operands => rfl

/-- A walk that cannot go on has come as far as any other walk from the same position. -/
theorem Walks.walks_of_stuck {p q q' : Position} (h : sheet.Walks p q) (h' : sheet.Walks p q')
    (hq : ∀ next, ¬ sheet.WalkStep q next) : sheet.Walks q' q := by
  rcases Relation.ReflTransGen.total_of_right_unique walkStep_unique h h' with hqq | hqq
  · rcases Relation.ReflTransGen.cases_head hqq with rfl | ⟨next, hnext, -⟩
    · exact .refl
    · exact absurd hnext (hq next)
  · exact hqq

theorem Walks.eq_of_stuck {p q q' : Position} (h : sheet.Walks p q) (h' : sheet.Walks p q')
    (hq : ∀ next, ¬ sheet.WalkStep q next) (hq' : ∀ next, ¬ sheet.WalkStep q' next) : q' = q := by
  rcases Relation.ReflTransGen.cases_head (h.walks_of_stuck h' hq) with heq | ⟨next, hnext, -⟩
  · exact heq
  · exact absurd hnext (hq' next)

/-- What is pending behind does not change a walk. -/
theorem Walks.append {p q : Position} (h : sheet.Walks p q) (behind : List Formula) :
    sheet.Walks ⟨p.entered, p.pending ++ behind⟩ ⟨q.entered, q.pending ++ behind⟩ := by
  induction h with
  | refl => exact .refl
  | tail _ hstep ih =>
    refine ih.tail ?_
    cases hstep with
    | leaf hleaf hpass =>
      rw [List.append_assoc]
      exact .leaf hleaf hpass
    | operands => exact .operands

/-- A walk never leaves the cells that were entered. -/
theorem Walks.mem {p q : Position} (h : sheet.Walks p q) (ha : a ∈ p.entered) : a ∈ q.entered := by
  induction h with
  | refl => exact ha
  | tail _ hstep ih =>
    cases hstep with
    | leaf => exact List.mem_append_right _ ih
    | operands => exact ih

theorem passes_number (n : Number) : sheet.Passes entered (.number n) := nofun

theorem passes_reference (hc : sheet.covers a) (hf : sheet.find? a = some f)
    (hne : f ≠ .reference a) (ha : a ∉ entered) : sheet.Passes entered (.reference a) := by
  intro cause added h
  cases h with
  | outside | again => contradiction
  | itself _ hs => exact hne (Option.some.inj (hf.symm.trans hs))
  | unwritten _ _ hn => simp [hn] at hf

theorem WalkStep.reference (h : sheet.Passes entered (.reference a)) (pending : List Formula) :
    sheet.WalkStep ⟨entered, .reference a :: pending⟩
      ⟨a :: entered, (sheet.find? a).toList ++ pending⟩ :=
  .leaf rfl h

/-- A reference is walked by entering its cell and walking what that cell holds. -/
theorem walks_reference (hc : sheet.covers a) (hf : sheet.find? a = some f)
    (hne : f ≠ .reference a) (hv : v.visit a = (.ok (), w)) (pending : List Formula) :
    sheet.Walks ⟨v.order, .reference a :: pending⟩ ⟨w.order, f :: pending⟩ := by
  obtain ⟨ha, horder⟩ := Visits.order_of_visit hv
  have hstep := WalkStep.reference (passes_reference hc hf hne ha) pending
  rw [hf] at hstep
  rw [horder]
  exact .single hstep

/-- Evaluating walks. Where it comes to a number, the walk passes all leaves of the formula, and
else it comes to a leaf that fails as the evaluation does. -/
theorem Evaluates.walks {n : Nat} {as : List Address} {e : Evaluation}
    (h : sheet.Evaluates v f n as e) (pending : List Formula) :
    (∀ x, e.result = .ok x → sheet.Walks ⟨v.order, f :: pending⟩ ⟨e.visits.order, pending⟩) ∧
    ∀ cause, e.result = .error cause → ∃ before leaf rest added,
      sheet.Walks ⟨v.order, f :: pending⟩ ⟨before, leaf :: rest⟩ ∧
        sheet.Fails before leaf cause added ∧ e.visits.order = added ++ before := by
  -- a leaf that fails ends the walk where it begins
  have fails {v : Visits} {leaf : Formula} {c : ReadError} {added : List Address} {w : Visits}
      {pending : List Formula} (h : sheet.Fails v.order leaf c added)
      (hw : w.order = added ++ v.order) :
      (∀ x, (.error c : Except ReadError Float) = .ok x →
        sheet.Walks ⟨v.order, leaf :: pending⟩ ⟨w.order, pending⟩) ∧
      ∀ cause, (.error c : Except ReadError Float) = .error cause → ∃ before last rest added,
        sheet.Walks ⟨v.order, leaf :: pending⟩ ⟨before, last :: rest⟩ ∧
          sheet.Fails before last cause added ∧ w.order = added ++ before := by
    refine ⟨nofun, ?_⟩
    rintro cause ⟨⟩
    exact ⟨_, _, _, _, .refl, h, hw⟩
  induction h generalizing pending with
  | number v n =>
    exact ⟨fun _ _ => .single (.leaf rfl (passes_number n)), nofun⟩
  | blank v => exact fails .blank rfl
  | outside hc => exact fails (.outside hc) rfl
  | itself hc hs => exact fails (.itself hc hs) rfl
  | @again v w a e hc hs hv =>
    obtain ⟨ha, rfl, horder⟩ := Visits.order_of_refusal hv
    exact fails (.again hc hs ha (isChain_chain v)) horder
  | unwritten hc hn hv =>
    obtain ⟨ha, horder⟩ := Visits.order_of_visit hv
    exact fails (.unwritten hc ha hn) horder
  | enter hc hf hne hv _ ih =>
    have hstep := walks_reference hc hf hne hv pending
    obtain ⟨hok, herror⟩ := ih pending
    refine ⟨fun x hx => hstep.trans (hok x hx), ?_⟩
    intro cause he
    obtain ⟨before, leaf, rest, added, hw, hfail⟩ := herror cause he
    exact ⟨before, leaf, rest, added, hstep.trans hw, hfail⟩
  | @left v op l r _ _ e cause _ he ih =>
    obtain ⟨-, herror⟩ := ih (r :: pending)
    refine ⟨fun x hx => by simp [he] at hx, ?_⟩
    intro cause he
    obtain ⟨before, leaf, rest, added, hw, hfail⟩ := herror cause he
    exact ⟨before, leaf, rest, added, .head .operands hw, hfail⟩
  | @both v op l r _ _ _ _ el er x _ hx _ ihl ihr =>
    have hleft : sheet.Walks ⟨v.order, .binary op l r :: pending⟩ ⟨el.visits.order, r :: pending⟩ :=
      .head .operands ((ihl (r :: pending)).1 x hx)
    obtain ⟨hok, herror⟩ := ihr pending
    constructor
    · intro y hy
      obtain ⟨z, hz, -⟩ := map_eq_ok_iff.1 hy
      exact hleft.trans (hok z hz)
    · intro cause he
      have he : er.result = .error cause := by
        cases hr : er.result <;> simp_all [Except.map]
      obtain ⟨before, leaf, rest, added, hw, hfail⟩ := herror cause he
      exact ⟨before, leaf, rest, added, hleft.trans hw, hfail⟩

theorem walks_of_eval_eq_ok {x : Float} (h : (sheet.eval v f).result = .ok x)
    (pending : List Formula) :
    sheet.Walks ⟨v.order, f :: pending⟩ ⟨(sheet.eval v f).visits.order, pending⟩ := by
  obtain ⟨n, as, hrun⟩ := sheet.exists_evaluates v f
  exact (hrun.walks pending).1 x h

theorem firstFailure_of_eval_eq_error (h : (sheet.eval v f).result = .error cause) :
    sheet.FirstFailure v f cause (sheet.eval v f).visits.order := by
  obtain ⟨n, as, hrun⟩ := sheet.exists_evaluates v f
  exact (hrun.walks []).2 cause h

theorem FirstFailure.eval_eq (h : sheet.FirstFailure v f cause entered) :
    (sheet.eval v f).result = .error cause ∧ (sheet.eval v f).visits.order = entered := by
  obtain ⟨before, leaf, rest, added, hw, hfail, rfl⟩ := h
  cases he : (sheet.eval v f).result with
  | ok x =>
    have heq := Walks.eq_of_stuck hw (walks_of_eval_eq_ok he []) (fun _ => hfail.not_walkStep)
      fun _ => not_walkStep_nil
    simp at heq
  | error cause' =>
    obtain ⟨before', leaf', rest', added', hw', hfail', horder⟩ := firstFailure_of_eval_eq_error he
    have heq := Walks.eq_of_stuck hw hw' (fun _ => hfail.not_walkStep) fun _ => hfail'.not_walkStep
    obtain ⟨rfl, hpending⟩ := Position.mk.inj heq
    obtain ⟨rfl, -⟩ := List.cons.inj hpending
    obtain ⟨rfl, rfl⟩ := hfail.unique hfail'
    exact ⟨rfl, horder⟩

theorem Walks.find?_ne {p q : Position} (h : sheet.Walks p q) (ha : a ∈ q.entered) :
    a ∈ p.entered ∨ sheet.find? a ≠ some (.reference a) := by
  induction h with
  | refl => exact .inl ha
  | tail _ hstep ih =>
    cases hstep with
    | operands => exact ih ha
    | @leaf entered leaf pending _ hpass =>
      rcases List.mem_append.1 ha with ha | ha
      · refine .inr fun hs => ?_
        obtain rfl : leaf = .reference a := by
          cases leaf <;> simp_all [Expr.references, Expr.isLeaf, Expr.operator?]
        by_cases hc : sheet.covers a
        · exact hpass _ _ (.itself hc hs)
        · exact hpass _ _ (.outside hc)
      · exact ih ha

theorem find?_ne_of_mem_eval (ha : a ∈ (sheet.eval v f).visits) :
    a ∈ v ∨ sheet.find? a ≠ some (.reference a) := by
  cases he : (sheet.eval v f).result with
  | ok x => exact (walks_of_eval_eq_ok he []).find?_ne ha
  | error cause =>
    obtain ⟨before, leaf, rest, added, hw, hfail, horder⟩ := firstFailure_of_eval_eq_error he
    have ha : a ∈ added ++ before := horder ▸ ha
    rcases List.mem_append.1 ha with ha | ha
    · cases hfail with
      | unwritten _ _ hn =>
        obtain rfl := List.mem_singleton.1 ha
        exact .inr (by simp [hn])
      | _ => contradiction
    · exact hw.find?_ne ha

/-- The empty sheet covers no cell, so every reference is outside of it. -/
theorem fails_empty_iff :
    (∅ : Sheet).Fails entered (.reference a) cause added ↔ cause = .outOfRange a ∧ added = [] := by
  have outside : ¬ (∅ : Sheet).covers a := fun h =>
    absurd (covers_iff.1 h).1 (Nat.not_le_of_lt a.one_le_row)
  constructor
  · intro h
    exact h.unique (.outside outside)
  · rintro ⟨rfl, rfl⟩
    exact .outside outside

/-- Evaluating fails exactly with what is wrong with the first leaf that fails on the walk over the
formula, whatever was entered before. Then exactly the cells before that failure have been entered.
A cell that holds only a reference to itself never is. In the empty sheet, which stands for none,
every reference that the walk comes to is out of range. -/
theorem eval_fails_at_first_failure (sheet : Sheet) (v : Visits) (f : Formula) :
    (∀ cause entered,
      (sheet.eval v f).result = .error cause ∧ (sheet.eval v f).visits.order = entered ↔
        sheet.FirstFailure v f cause entered) ∧
    (∀ a ∈ (sheet.eval v f).visits, a ∈ v ∨ sheet.find? a ≠ some (.reference a)) ∧
    ∀ entered a cause added, (∅ : Sheet).Fails entered (.reference a) cause added ↔
      cause = .outOfRange a ∧ added = [] := by
  refine ⟨fun cause entered => ⟨?_, FirstFailure.eval_eq⟩, fun a => find?_ne_of_mem_eval,
    fun entered a cause added => fails_empty_iff⟩
  rintro ⟨hcause, rfl⟩
  exact firstFailure_of_eval_eq_error hcause

end Spreadsheet.Sheet
