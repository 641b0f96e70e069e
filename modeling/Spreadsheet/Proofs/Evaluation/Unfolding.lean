import Mathlib.Logic.Relation
import Spreadsheet.Proofs.Evaluation.Run
import Spreadsheet.Sheet.Read

/-! Evaluation without a record of what was entered: references are unfolded into the trees they
lead to. Evaluating gives a number exactly where the unfolding is finite and repeats no cell. -/
namespace Spreadsheet

inductive Unfolding
  | number (n : Number)
  | blank
  | missing (a : Address)
  | cell (a : Address) (tree : Unfolding)
  | binary (op : Operator) (left right : Unfolding)

namespace Unfolding

def dereferenced : Unfolding → List Address
  | number _ | blank => []
  | missing a => [a]
  | cell a t => a :: t.dereferenced
  | binary _ l r => l.dereferenced ++ r.dereferenced

def HasBlank : Unfolding → Prop
  | number _ | missing _ => False
  | blank => True
  | cell _ t => t.HasBlank
  | binary _ l r => l.HasBlank ∨ r.HasBlank

def value? : Unfolding → Option Float
  | number n => some n.toFloat
  | blank | missing _ => none
  | cell _ t => t.value?
  | binary op l r => do return op.apply (← l.value?) (← r.value?)

end Unfolding

def Expr.references {ν : Type} : Expr ν → List Address
  | number _ | blank => []
  | reference a => [a]
  | binary _ l r => l.references ++ r.references

namespace Sheet

variable (sheet : Sheet)

/-- The finite unfolding of a formula, found by following every reference. Nothing keeps track of
the cells on the way, so a formula from which a cycle can be reached has none. -/
inductive Unfolds : Formula → Unfolding → Prop
  | number (n : Number) : Unfolds (.number n) (.number n)
  | blank : Unfolds .blank .blank
  | missing {a : Address} : sheet.find? a = none → Unfolds (.reference a) (.missing a)
  | cell {a : Address} {f : Formula} {t : Unfolding} :
      sheet.find? a = some f → Unfolds f t → Unfolds (.reference a) (.cell a t)
  | binary (op : Operator) {l r : Formula} {tl tr : Unfolding} :
      Unfolds l tl → Unfolds r tr → Unfolds (.binary op l r) (.binary op tl tr)

/-- The unfolding is finite, every cell on the way lies in the block and holds a tree, no leaf is
blank, and no cell is met twice, be it on one path or on two. -/
structure Resolves (f : Formula) (t : Unfolding) : Prop where
  unfolds : sheet.Unfolds f t
  stored : ∀ a ∈ t.dereferenced, sheet.covers a ∧ sheet.find? a ≠ none
  noBlank : ¬ t.HasBlank
  once : t.dereferenced.Nodup

def RefersTo (a b : Address) : Prop :=
  ∃ f, sheet.find? a = some f ∧ b ∈ f.references

def ReachesCycle (a : Address) : Prop :=
  ∃ c, Relation.ReflTransGen sheet.RefersTo a c ∧ Relation.TransGen sheet.RefersTo c c

variable {sheet}

theorem Unfolds.unique {f : Formula} {t u : Unfolding} (ht : sheet.Unfolds f t)
    (hu : sheet.Unfolds f u) : t = u := by
  induction ht generalizing u with
  | number n => cases hu; rfl
  | blank => cases hu; rfl
  | missing hn =>
    cases hu with
    | missing _ => rfl
    | cell hs _ => rw [hn] at hs; contradiction
  | cell hs _ ih =>
    cases hu with
    | missing hn => rw [hn] at hs; contradiction
    | cell hs' hu =>
      obtain rfl := Option.some.inj (hs.symm.trans hs')
      rw [ih hu]
  | binary op _ _ ihl ihr =>
    cases hu with
    | binary _ hl hr => rw [ihl hl, ihr hr]

/-- A run that comes to a number has followed the unfolding, and entered its cells in order. -/
theorem Evaluates.exists_unfolding {v : Visits} {f : Formula} {n : Nat} {as : List Address}
    {e : Evaluation} {x : Float} (h : sheet.Evaluates v f n as e) (hx : e.result = .ok x) :
    ∃ t, sheet.Unfolds f t ∧ (∀ a ∈ t.dereferenced, sheet.covers a ∧ sheet.find? a ≠ none) ∧
      ¬ t.HasBlank ∧ t.dereferenced = as ∧ t.value? = some x := by
  induction h generalizing x with
  | number v n =>
    obtain rfl := Except.ok.inj hx
    exact ⟨.number n, .number n, by simp [Unfolding.dereferenced], id, rfl, rfl⟩
  | blank | outside | itself | unwritten => contradiction
  | again _ _ hv => simp at hx
  | enter hc hf _ _ _ ih =>
    obtain ⟨t, ht, hs, hb, rfl, hv⟩ := ih hx
    exact ⟨.cell _ t, .cell hf ht, List.forall_mem_cons.2 ⟨⟨hc, by simp [hf]⟩, hs⟩, hb, rfl, hv⟩
  | left _ he _ =>
    rw [he] at hx
    contradiction
  | @both v op l r n m as bs el er y _ hy _ ihl ihr =>
    obtain ⟨z, hz, rfl⟩ := map_eq_ok_iff.1 hx
    obtain ⟨tl, hl, hsl, hbl, rfl, hvl⟩ := ihl hy
    obtain ⟨tr, hr, hsr, hbr, rfl, hvr⟩ := ihr hz
    refine ⟨.binary op tl tr, .binary op hl hr, ?_, ?_, rfl, ?_⟩
    · intro a ha
      exact (List.mem_append.1 ha).elim (hsl a) (hsr a)
    · intro hb
      exact hb.elim hbl hbr
    · simp [Unfolding.value?, hvl, hvr]

/-- The evaluator follows an unfolding to its end as long as it meets no cell twice, neither one
of the unfolding nor one entered before. -/
theorem Unfolds.exists_evaluates {v : Visits} {f : Formula} {t : Unfolding}
    (h : sheet.Unfolds f t) (hs : ∀ a ∈ t.dereferenced, sheet.covers a ∧ sheet.find? a ≠ none)
    (hb : ¬ t.HasBlank) (hn : t.dereferenced.Nodup) (hv : ∀ a ∈ t.dereferenced, a ∉ v) :
    ∃ n x w, t.value? = some x ∧ sheet.Evaluates v f n t.dereferenced ⟨.ok x, w⟩ := by
  induction h generalizing v with
  | number n => exact ⟨1, n.toFloat, v, rfl, .number v n⟩
  | blank => exact absurd trivial hb
  | @missing a hf => exact absurd hf (hs a (by simp [Unfolding.dereferenced])).2
  | @cell a f t hf h ih =>
    obtain ⟨⟨hc, -⟩, hs⟩ := List.forall_mem_cons.1 hs
    obtain ⟨ha, hn⟩ := List.nodup_cons.1 hn
    obtain ⟨hav, hv⟩ := List.forall_mem_cons.1 hv
    obtain ⟨w, hw⟩ := Visits.visit_of_not_mem hav
    have hvw : ∀ b ∈ t.dereferenced, b ∉ w := by
      intro b hbt hbw
      rcases (Visits.mem_of_visit hw).1 hbw with rfl | hbv
      · exact ha hbt
      · exact hv b hbt hbv
    obtain ⟨n, x, u, hx, he⟩ := ih hs hb hn hvw
    refine ⟨n + 1, x, u, hx, .enter hc hf ?_ hw he⟩
    -- a cell that holds only itself would be met again right below
    rintro rfl
    obtain ⟨u, rfl⟩ : ∃ u, t = .cell a u := by
      cases h with
      | missing hm => rw [hm] at hf; contradiction
      | cell _ _ => exact ⟨_, rfl⟩
    exact ha (List.mem_cons_self ..)
  | @binary op l r tl tr _ _ ihl ihr =>
    obtain ⟨hnl, hnr, hdisj⟩ := List.nodup_append'.1 hn
    obtain ⟨hsl, hsr⟩ := List.forall_mem_append.1 hs
    obtain ⟨hvl, hvr⟩ := List.forall_mem_append.1 hv
    obtain ⟨n, x, w, hx, hl⟩ := ihl hsl (fun h => hb (.inl h)) hnl hvl
    have hvw : ∀ a ∈ tr.dereferenced, a ∉ w := by
      obtain ⟨last, ht⟩ := hl.exists_trail
      intro a ha haw
      have : a ∈ w.order := haw
      rw [ht.order_eq, ht.last_eq_none x rfl] at this
      rcases List.mem_append.1 this with h | h
      · exact hdisj (by simpa using h) ha
      · exact hvr a ha h
    obtain ⟨m, y, u, hy, hr⟩ := ihr hsr (fun h => hb (.inr h)) hnr hvw
    exact ⟨n + m + 1, op.apply x y, u, by simp [Unfolding.value?, hx, hy], .both hl rfl hr⟩

/-- Evaluating comes to a number exactly where the formula resolves to it, and does so to cells
that were not entered before. -/
theorem eval_eq_ok_iff {v : Visits} {f : Formula} {x : Float} :
    (sheet.eval v f).result = .ok x ↔
      ∃ t, sheet.Resolves f t ∧ t.value? = some x ∧ ∀ a ∈ t.dereferenced, a ∉ v := by
  constructor
  · intro hx
    obtain ⟨n, as, h⟩ := sheet.exists_evaluates v f
    obtain ⟨t, hu, hs, hb, rfl, hv⟩ := h.exists_unfolding hx
    obtain ⟨last, ht⟩ := h.exists_trail
    exact ⟨t, ⟨hu, hs, hb, ht.nodup.of_append_left⟩, hv,
      fun a ha => ht.fresh a (List.mem_append_left _ ha)⟩
  · rintro ⟨t, ht, hx, hv⟩
    obtain ⟨n, y, w, hy, h⟩ := ht.unfolds.exists_evaluates ht.stored ht.noBlank ht.once hv
    obtain rfl := Option.some.inj (hx.symm.trans hy)
    rw [← h.eq_eval]

theorem value_eq_ok_iff {f : Formula} {x : Float} :
    sheet.value f = .ok x ↔ ∃ t, sheet.Resolves f t ∧ t.value? = some x := by
  rw [value, eval_eq_ok_iff]
  simp [Visits.not_mem_empty]

theorem ReachesCycle.exists_refersTo {a : Address} (h : sheet.ReachesCycle a) :
    ∃ b, sheet.RefersTo a b ∧ sheet.ReachesCycle b := by
  obtain ⟨c, hac, hc⟩ := h
  rcases Relation.ReflTransGen.cases_head hac with rfl | ⟨b, hab, hbc⟩
  · obtain ⟨b, hab, hba⟩ := Relation.TransGen.head'_iff.1 hc
    exact ⟨b, hab, a, hba, hc⟩
  · exact ⟨b, hab, c, hbc, hc⟩

/-- A formula that has an unfolding refers to no cell from which a cycle can be reached. -/
theorem Unfolds.not_reachesCycle {f : Formula} {t : Unfolding} (h : sheet.Unfolds f t) :
    ∀ a ∈ f.references, ¬ sheet.ReachesCycle a := by
  induction h with
  | number | blank => simp [Expr.references]
  | @missing a hn =>
    intro b hb hcyc
    obtain rfl : b = a := by simpa [Expr.references] using hb
    obtain ⟨_, ⟨f, hf, -⟩, -⟩ := hcyc.exists_refersTo
    rw [hn] at hf
    contradiction
  | @cell a f t hs _ ih =>
    intro b hb hcyc
    obtain rfl : b = a := by simpa [Expr.references] using hb
    obtain ⟨c, ⟨g, hg, hc⟩, hcyc⟩ := hcyc.exists_refersTo
    obtain rfl := Option.some.inj (hs.symm.trans hg)
    exact ih c hc hcyc
  | binary _ _ _ ihl ihr => exact List.forall_mem_append.2 ⟨ihl, ihr⟩

/-- Wherever references lead from a formula, its finite unfolding has been there. -/
theorem Unfolds.mem_dereferenced {f : Formula} {t : Unfolding} {a b : Address}
    (h : sheet.Unfolds f t) (ha : a ∈ f.references)
    (hab : Relation.ReflTransGen sheet.RefersTo a b) : b ∈ t.dereferenced := by
  induction h generalizing a with
  | number | blank => simp [Expr.references] at ha
  | @missing c hn =>
    obtain rfl : a = c := by simpa [Expr.references] using ha
    rcases Relation.ReflTransGen.cases_head hab with rfl | ⟨d, ⟨g, hg, -⟩, -⟩
    · exact List.mem_cons_self ..
    · rw [hn] at hg
      contradiction
  | @cell c f t hfind _ ih =>
    obtain rfl : a = c := by simpa [Expr.references] using ha
    rcases Relation.ReflTransGen.cases_head hab with rfl | ⟨d, ⟨g, hg, hd⟩, hdb⟩
    · exact List.mem_cons_self ..
    · obtain rfl := Option.some.inj (hfind.symm.trans hg)
      exact List.mem_cons_of_mem _ (ih hd hdb)
  | binary op _ _ ihl ihr =>
    rcases List.mem_append.1 ha with ha | ha
    · exact List.mem_append_left _ (ihl ha hab)
    · exact List.mem_append_right _ (ihr ha hab)

theorem Unfolds.find?_ne_blank {f : Formula} {t : Unfolding} (h : sheet.Unfolds f t)
    (hleaf : ¬ t.HasBlank) : ∀ a ∈ t.dereferenced, sheet.find? a ≠ some .blank := by
  induction h with
  | number | blank => simp [Unfolding.dereferenced]
  | missing hn => simp [Unfolding.dereferenced, hn]
  | @cell a f t hfind hf ih =>
    refine List.forall_mem_cons.2 ⟨?_, ih hleaf⟩
    intro hblank
    obtain rfl := Option.some.inj (hfind.symm.trans hblank)
    cases hf
    exact hleaf trivial
  | binary op _ _ ihl ihr =>
    exact List.forall_mem_append.2 ⟨ihl fun h => hleaf (.inl h), ihr fun h => hleaf (.inr h)⟩

theorem value_ne_ok_of_reachesCycle {f : Formula} {a : Address} (ha : a ∈ f.references)
    (hcyc : sheet.ReachesCycle a) (x : Float) : sheet.value f ≠ .ok x := by
  intro hx
  obtain ⟨t, ht, -⟩ := value_eq_ok_iff.1 hx
  exact ht.unfolds.not_reachesCycle a ha hcyc

/-- The cell that a read starts from is not recorded, but that lets no cycle through: it would be
met again on the way around. -/
theorem get_ne_ok_of_reachesCycle {a : Address} (hcyc : sheet.ReachesCycle a) (x : Float) :
    sheet.get a ≠ .ok x := by
  intro hx
  obtain ⟨-, f, hf, hv⟩ := get_eq_ok_iff.1 hx
  obtain ⟨b, ⟨g, hg, hb⟩, hcyc⟩ := hcyc.exists_refersTo
  obtain rfl := Option.some.inj (hf.symm.trans hg)
  exact value_ne_ok_of_reachesCycle hb hcyc x hv

theorem read_ne_ok_of_reachesCycle {a : Address} (hcyc : sheet.ReachesCycle a) (policy : Policy)
    (places : Nat) (text : List Char) : sheet.read policy places a ≠ .ok text := by
  have hstrict : sheet.getStrict places a ≠ .ok text := by
    intro h
    obtain ⟨x, hx, -⟩ := getStrict_eq_ok_iff.1 h
    exact get_ne_ok_of_reachesCycle hcyc x hx
  obtain ⟨b, ⟨f, hf, hb⟩, -⟩ := hcyc.exists_refersTo
  have hne : f ≠ .blank := by
    rintro rfl
    simp [Expr.references] at hb
  cases policy with
  | strict => exact hstrict
  | formatted =>
    rw [read, getFormatted_eq, if_neg (by simp [hf, hne])]
    exact hstrict

/-- Evaluating a formula, or reading a cell, gives a number exactly where the unfolding is finite,
leads only to cells of the block that hold trees, has no blank, and meets no cell twice. It is then
the value of the unfolding. Nothing from which a cycle of references can be reached is ever read,
under either policy. -/
theorem reads_iff_resolves (sheet : Sheet) :
    (∀ f x, sheet.value f = .ok x ↔ ∃ t, sheet.Resolves f t ∧ t.value? = some x) ∧
    (∀ a x, sheet.get a = .ok x ↔ sheet.covers a ∧
      ∃ f, sheet.find? a = some f ∧ ∃ t, sheet.Resolves f t ∧ t.value? = some x) ∧
    (∀ f, (∃ a ∈ f.references, sheet.ReachesCycle a) → ∀ x, sheet.value f ≠ .ok x) ∧
    ∀ a, sheet.ReachesCycle a → (∀ x, sheet.get a ≠ .ok x) ∧
      ∀ policy places text, sheet.read policy places a ≠ .ok text := by
  refine ⟨fun f x => value_eq_ok_iff, ?_, ?_, ?_⟩
  · intro a x
    simp only [get_eq_ok_iff, value_eq_ok_iff]
  · rintro f ⟨a, ha, hcyc⟩ x
    exact value_ne_ok_of_reachesCycle ha hcyc x
  · intro a hcyc
    exact ⟨get_ne_ok_of_reachesCycle hcyc, read_ne_ok_of_reachesCycle hcyc⟩

end Sheet

end Spreadsheet
