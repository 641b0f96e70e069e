import Mathlib.Algebra.GroupWithZero.Nat
import Mathlib.Data.List.Nodup
import Mathlib.Data.List.Perm.Subperm
import Mathlib.Data.Nat.Init
import Spreadsheet.Proofs.Except
import Spreadsheet.Proofs.Sheet.Block
import Spreadsheet.Sheet.Eval

/-! Runs of the evaluator, told step by step. Every evaluation has exactly one run, so it ends, and
that run enters no stored tree twice. -/
namespace Spreadsheet

def Expr.nodes {ν : Type} : Expr ν → Nat
  | number _ | blank | reference _ => 1
  | binary _ l r => l.nodes + r.nodes + 1

namespace Sheet

variable (sheet : Sheet)

/-- A finite run of the evaluator on a formula, after some cells were entered. It makes so many
calls, enters the trees of these cells in this order, and comes to the evaluation. A run is only
followed where it leads: nothing here says that it leads to an end. -/
inductive Evaluates : Visits → Formula → Nat → List Address → Evaluation → Prop
  | number (v : Visits) (n : Number) : Evaluates v (.number n) 1 [] ⟨.ok n.toFloat, v⟩
  | blank (v : Visits) : Evaluates v .blank 1 [] ⟨.error .blank, v⟩
  | outside {v : Visits} {a : Address} :
      ¬ sheet.covers a → Evaluates v (.reference a) 1 [] ⟨.error (.outOfRange a), v⟩
  | itself {v : Visits} {a : Address} :
      sheet.covers a → sheet.find? a = some (.reference a) →
      Evaluates v (.reference a) 1 [] ⟨.error (.selfReference a), v⟩
  | again {v w : Visits} {a : Address} {e : ReadError} :
      sheet.covers a → sheet.find? a ≠ some (.reference a) → v.visit a = (.error e, w) →
      Evaluates v (.reference a) 1 [] ⟨.error e, w⟩
  | unwritten {v w : Visits} {a : Address} :
      sheet.covers a → sheet.find? a = none → v.visit a = (.ok (), w) →
      Evaluates v (.reference a) 1 [] ⟨.error .blank, w⟩
  | enter {v w : Visits} {a : Address} {f : Formula} {n : Nat} {as : List Address}
      {e : Evaluation} :
      sheet.covers a → sheet.find? a = some f → f ≠ .reference a → v.visit a = (.ok (), w) →
      Evaluates w f n as e → Evaluates v (.reference a) (n + 1) (a :: as) e
  | left {v : Visits} {op : Operator} {l r : Formula} {n : Nat} {as : List Address}
      {e : Evaluation} {cause : ReadError} :
      Evaluates v l n as e → e.result = .error cause → Evaluates v (.binary op l r) (n + 1) as e
  | both {v : Visits} {op : Operator} {l r : Formula} {n m : Nat} {as bs : List Address}
      {el er : Evaluation} {x : Float} :
      Evaluates v l n as el → el.result = .ok x → Evaluates el.visits r m bs er →
      Evaluates v (.binary op l r) (n + m + 1) (as ++ bs)
        ⟨er.result.map (op.apply x), er.visits⟩

variable {sheet} {v : Visits} {f : Formula} {n : Nat} {as : List Address} {e : Evaluation}

theorem Evaluates.eq_eval (h : sheet.Evaluates v f n as e) : e = sheet.eval v f := by
  induction h with
  | number v n => rw [eval_number]
  | blank v => rw [eval_blank]
  | outside hc => rw [eval_reference, if_neg hc]
  | itself hc hs => rw [eval_reference, if_pos hc, if_pos hs]
  | again hc hs hv => simp only [eval_reference, if_pos hc, if_neg hs, hv]
  | unwritten hc hs hv => simp [eval_reference, hc, hs, hv]
  | enter hc hs hne hv _ ih => simp [eval_reference, hc, hs, hne, hv, ih]
  | left _ he ih =>
    subst ih
    rw [eval_binary]
    simp only [he]
  | both _ hx _ ihl ihr =>
    subst ihl
    rw [eval_binary]
    simp only [hx, ihr]

/-- The evaluator ends on every formula, whatever was entered before: a reference that is followed
makes the cells that have not been entered fewer. -/
theorem exists_evaluates (sheet : Sheet) (v : Visits) (f : Formula) :
    ∃ n as, sheet.Evaluates v f n as (sheet.eval v f) := by
  induction v, f using sheet.eval_induction with
  | number v n => exact ⟨1, [], by rw [eval_number]; exact .number v n⟩
  | blank v => exact ⟨1, [], by rw [eval_blank]; exact .blank v⟩
  | reference v a ih =>
    rw [eval_reference]
    split
    · next hc =>
      split
      · next hs => exact ⟨1, [], .itself hc hs⟩
      · next hs =>
        rcases hv : v.visit a with ⟨e | ⟨⟩, w⟩
        · exact ⟨1, [], .again hc hs hv⟩
        · cases hf : sheet.find? a with
          | none => exact ⟨1, [], .unwritten hc hf hv⟩
          | some f =>
            obtain ⟨n, as, h⟩ := ih w f hv hf
            refine ⟨n + 1, a :: as, .enter hc hf ?_ hv h⟩
            rintro rfl
            exact hs hf
    · next hc => exact ⟨1, [], .outside hc⟩
  | binary v op l r ihl ihr =>
    obtain ⟨n, as, hl⟩ := ihl
    obtain ⟨m, bs, hr⟩ := ihr
    rw [eval_binary]
    cases hx : (sheet.eval v l).result with
    | error cause =>
      refine ⟨n + 1, as, ?_⟩
      simp only [hx]
      exact .left hl hx
    | ok x =>
      refine ⟨n + m + 1, as ++ bs, ?_⟩
      simp only [hx]
      exact .both hl hx hr

/-- What a run adds to the cells entered before: those whose trees it entered, and at the end at
most one that was never written, where it fails. -/
structure Trail (sheet : Sheet) (v : Visits) (as : List Address) (last : Option Address)
    (e : Evaluation) : Prop where
  order_eq : e.visits.order = (as ++ last.toList).reverse ++ v.order
  nodup : (as ++ last.toList).Nodup
  fresh : ∀ a ∈ as ++ last.toList, a ∉ v
  stored : ∀ a ∈ as, sheet.find? a ≠ none
  last_eq_none : ∀ x, e.result = .ok x → last = none

private theorem Trail.nil {w : Visits} {r : Except ReadError Float} (h : w.order = v.order) :
    Trail sheet v [] none ⟨r, w⟩ where
  order_eq := h
  nodup := .nil
  fresh := by simp
  stored := by simp
  last_eq_none _ _ := rfl

/-- A run that fails at a cell which was never written. -/
private theorem Trail.unwritten {w : Visits} {a : Address} {c : ReadError}
    (hv : v.visit a = (.ok (), w)) : Trail sheet v [] (some a) ⟨.error c, w⟩ where
  order_eq := (Visits.order_of_visit hv).2
  nodup := List.nodup_singleton a
  fresh b hb := by
    obtain rfl : b = a := by simpa using hb
    exact (Visits.order_of_visit hv).1
  stored := by simp
  last_eq_none _ hx := by contradiction

private theorem Trail.enter {w : Visits} {a : Address} {last : Option Address}
    (hs : sheet.find? a ≠ none) (hv : v.visit a = (.ok (), w)) (h : Trail sheet w as last e) :
    Trail sheet v (a :: as) last e where
  order_eq := by
    rw [h.order_eq, (Visits.order_of_visit hv).2]
    simp
  nodup := List.nodup_cons.2
    ⟨fun ha => h.fresh a ha ((Visits.mem_of_visit hv).2 (.inl rfl)), h.nodup⟩
  fresh := List.forall_mem_cons.2 ⟨(Visits.order_of_visit hv).1,
    fun b hb hbv => h.fresh b hb ((Visits.mem_of_visit hv).2 (.inr hbv))⟩
  stored := List.forall_mem_cons.2 ⟨hs, h.stored⟩
  last_eq_none := h.last_eq_none

/-- The right operand goes on from where the left one has come to a number. -/
private theorem Trail.both {bs : List Address} {last : Option Address} {el er : Evaluation}
    {g : Float → Float} (hl : Trail sheet v as none el) (hr : Trail sheet el.visits bs last er) :
    Trail sheet v (as ++ bs) last ⟨er.result.map g, er.visits⟩ := by
  have hmem (a : Address) : a ∈ el.visits ↔ a ∈ as ∨ a ∈ v := by
    show a ∈ el.visits.order ↔ a ∈ as ∨ a ∈ v.order
    simp [hl.order_eq]
  refine ⟨?_, ?_, ?_, ?_, ?_⟩
  · show er.visits.order = _
    rw [hr.order_eq, hl.order_eq]
    simp
  · rw [List.append_assoc]
    refine List.Nodup.append (by simpa using hl.nodup) hr.nodup ?_
    intro a ha hb
    exact hr.fresh a hb ((hmem a).2 (.inl ha))
  · intro a ha
    rw [List.append_assoc, List.mem_append] at ha
    rcases ha with ha | ha
    · exact hl.fresh a (by simpa using ha)
    · exact fun hv => hr.fresh a ha ((hmem a).2 (.inr hv))
  · intro a ha
    exact (List.mem_append.1 ha).elim (hl.stored a) (hr.stored a)
  · intro x hx
    obtain ⟨y, hy, -⟩ := map_eq_ok_iff.1 hx
    exact hr.last_eq_none y hy

theorem Evaluates.exists_trail (h : sheet.Evaluates v f n as e) :
    ∃ last, Trail sheet v as last e := by
  induction h with
  | number | blank | outside | itself => exact ⟨none, .nil rfl⟩
  | again _ _ hv => exact ⟨none, .nil (Visits.order_of_refusal hv).2.2⟩
  | unwritten _ _ hv => exact ⟨_, .unwritten hv⟩
  | enter _ hf _ hv _ ih =>
    obtain ⟨last, h⟩ := ih
    exact ⟨last, h.enter (by simp [hf]) hv⟩
  | left _ _ ih => exact ih
  | both _ hx _ ihl ihr =>
    obtain ⟨last, hl⟩ := ihl
    obtain ⟨last', hr⟩ := ihr
    obtain rfl := hl.last_eq_none _ hx
    exact ⟨last', hl.both hr⟩

/-- A run makes no more calls than there are nodes in the formula and in the trees it enters. -/
theorem Evaluates.calls_le (h : sheet.Evaluates v f n as e) :
    n ≤ f.nodes + (as.map fun a => (sheet.find? a).elim 0 Expr.nodes).sum := by
  induction h with
  | number | blank | outside | itself | again | unwritten => simp [Expr.nodes]
  | enter _ hf _ _ _ ih =>
    simp only [List.map_cons, List.sum_cons, hf, Option.elim_some, Expr.nodes]
    omega
  | left _ _ ih =>
    rw [Expr.nodes]
    omega
  | both _ _ _ ihl ihr =>
    rw [Expr.nodes, List.map_append, List.sum_append]
    omega

/-- No more cells can be entered than were written. -/
theorem length_le_size {as : List Address} (hn : as.Nodup)
    (hs : ∀ a ∈ as, sheet.find? a ≠ none) : as.length ≤ sheet.size := by
  have hsub : as ⊆ sheet.cells.keys := fun a ha => mem_keys_iff.2 (hs a ha)
  rw [size, ← Std.TreeMap.length_keys]
  exact (List.subperm_of_subset hn hsub).length_le

/-- Evaluating ends, from every formula and every record of cells entered before, and however the
cells of the sheet refer to each other. Its run enters a stored tree at most once, and none of a
cell entered before. It records at most one cell more than were written, and none more if it comes
to a number. -/
theorem eval_ends_entering_once (sheet : Sheet) (v : Visits) (f : Formula) :
    (∃ n as, sheet.Evaluates v f n as (sheet.eval v f)) ∧
    ∀ n as e, sheet.Evaluates v f n as e →
      e = sheet.eval v f ∧
      n ≤ f.nodes + (as.map fun a => (sheet.find? a).elim 0 Expr.nodes).sum ∧
      as.Nodup ∧ (∀ a ∈ as, a ∉ v ∧ sheet.find? a ≠ none) ∧
      ∃ added, e.visits.order = added ++ v.order ∧ added.Nodup ∧ (∀ a ∈ added, a ∉ v) ∧
        added.length ≤ sheet.size + 1 ∧ ((∃ x, e.result = .ok x) → added.length ≤ sheet.size) := by
  refine ⟨sheet.exists_evaluates v f, ?_⟩
  intro n as e h
  obtain ⟨last, ht⟩ := h.exists_trail
  have hn : as.Nodup := ht.nodup.of_append_left
  have hsize := length_le_size hn ht.stored
  refine ⟨h.eq_eval, h.calls_le, hn,
    fun a ha => ⟨ht.fresh a (List.mem_append_left _ ha), ht.stored a ha⟩,
    (as ++ last.toList).reverse, ht.order_eq, List.nodup_reverse.2 ht.nodup,
    fun a ha => ht.fresh a (List.mem_reverse.1 ha), ?_, ?_⟩
  · have : last.toList.length ≤ 1 := by cases last <;> simp
    rw [List.length_reverse, List.length_append]
    omega
  · rintro ⟨x, hx⟩
    simpa [ht.last_eq_none x hx] using hsize

end Sheet

end Spreadsheet
