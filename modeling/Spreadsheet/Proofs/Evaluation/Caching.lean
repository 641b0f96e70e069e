import Spreadsheet.Proofs.Evaluation.Composition
import Spreadsheet.Proofs.Evaluation.Frame

/-! Cells that a read passes through, put into their own values. Where a read comes to a number, so
does the read of every cell that it leads to, and the number may stand in the place of what that
cell holds. -/
namespace Spreadsheet

def Unfolding.cache (b : Address) (y : Float) : Unfolding → Unfolding
  | number n => number n
  | blank => blank
  | missing a => missing a
  | cell a t => cell a (if a = b then number (.float y) else t.cache b y)
  | binary op l r => binary op (l.cache b y) (r.cache b y)

theorem Unfolding.dereferenced_cache (b : Address) (y : Float) (t : Unfolding) :
    (t.cache b y).dereferenced.Sublist t.dereferenced := by
  induction t with
  | number | blank | missing => exact .refl _
  | cell a t ih =>
    rw [cache, dereferenced, dereferenced, List.cons_sublist_cons]
    split
    · exact List.nil_sublist _
    · exact ih
  | binary op l r ihl ihr => exact ihl.append ihr

theorem Unfolding.HasBlank.of_cache {b : Address} {y : Float} {t : Unfolding}
    (h : (t.cache b y).HasBlank) : t.HasBlank := by
  induction t with
  | number | blank | missing => exact h
  | cell a t ih =>
    rw [cache, HasBlank] at h
    split at h
    · exact h.elim
    · exact ih h
  | binary op l r ihl ihr => exact h.imp ihl ihr

namespace Sheet

variable {sheet : Sheet} {f g : Formula} {t u : Unfolding} {a b : Address} {x y : Float}

/-- What is found in a dereferenced cell is the same wherever it is met, so the constant is worth as
much as what it stands for. -/
theorem Unfolds.value?_cache (h : sheet.Unfolds f t) (hg : sheet.find? b = some g)
    (hu : sheet.Unfolds g u) (hy : u.value? = some y) : (t.cache b y).value? = t.value? := by
  induction h with
  | number | blank | missing => rfl
  | @cell a f t hf ht ih =>
    rw [Unfolding.cache, Unfolding.value?, Unfolding.value?]
    split
    · next heq =>
      subst heq
      obtain rfl := Option.some.inj (hf.symm.trans hg)
      rw [ht.unique hu, hy]
      rfl
    · exact ih
  | binary op _ _ ihl ihr => rw [Unfolding.cache, Unfolding.value?, Unfolding.value?, ihl, ihr]

/-- Writing the constant into the cell is what caches it. -/
theorem Unfolds.cache (h : sheet.Unfolds f t) (hb : sheet.find? b ≠ none) (y : Float) :
    (sheet.insert b (.number (.float y))).Unfolds f (t.cache b y) := by
  induction h with
  | number n => exact .number n
  | blank => exact .blank
  | @missing a hn =>
    have hne : b ≠ a := by
      rintro rfl
      exact hb hn
    exact .missing ((find?_insert_of_ne hne).trans hn)
  | @cell a f t hf _ ih =>
    rw [Unfolding.cache]
    split
    · next heq =>
      subst heq
      exact .cell (by rw [find?_insert, if_pos rfl]) (.number _)
    · next hne => exact .cell ((find?_insert_of_ne (Ne.symm hne)).trans hf) ih
  | binary op _ _ ihl ihr => exact .binary op ihl ihr

theorem Resolves.exists_resolves (h : sheet.Resolves f t) (hb : b ∈ t.dereferenced) :
    ∃ g u, sheet.find? b = some g ∧ sheet.Resolves g u := by
  obtain ⟨hunfolds, hstored, hblank, honce⟩ := h
  induction hunfolds with
  | number | blank => simp [Unfolding.dereferenced] at hb
  | @missing a hn => exact absurd hn (hstored a (by simp [Unfolding.dereferenced])).2
  | @cell a f t hf ht ih =>
    have inner : sheet.Resolves f t :=
      ⟨ht, (List.forall_mem_cons.1 hstored).2, hblank, (List.nodup_cons.1 honce).2⟩
    rcases List.mem_cons.1 hb with rfl | hb
    · exact ⟨f, t, hf, inner⟩
    · exact ih hb inner.stored hblank inner.once
  | binary op _ _ ihl ihr =>
    obtain ⟨hl, hr⟩ := List.forall_mem_append.1 hstored
    obtain ⟨hnl, hnr, -⟩ := List.nodup_append'.1 honce
    rcases List.mem_append.1 hb with hb | hb
    · exact ihl hb hl (fun h => hblank (.inl h)) hnl
    · exact ihr hb hr (fun h => hblank (.inr h)) hnr

theorem Resolves.cache (h : sheet.Resolves f t) (hb : sheet.find? b ≠ none) (y : Float) :
    (sheet.insert b (.number (.float y))).Resolves f (t.cache b y) where
  unfolds := h.unfolds.cache hb y
  stored a ha := by
    obtain ⟨hc, hf⟩ := h.stored a ((t.dereferenced_cache b y).subset ha)
    refine ⟨covers_insert hc b _, ?_⟩
    rw [find?_insert]
    split
    · exact Option.some_ne_none _
    · exact hf
  noBlank hblank := h.noBlank hblank.of_cache
  once := h.once.sublist (t.dereferenced_cache b y)

/-- A formula that comes to a number has entered every cell that it looks up. -/
theorem Resolves.mem_dereferenced (h : sheet.Resolves f t) (hx : t.value? = some x)
    (hb : sheet.LooksUp ∅ f b) : b ∈ t.dereferenced := by
  have hok : (sheet.eval ∅ f).result = .ok x := value_eq_ok_iff.2 ⟨t, h, hx⟩
  rcases hb.mem_or_fails with hmem | hself | hout
  · have hmem : b ∈ (sheet.eval ∅ f).visits.order := hmem
    rwa [h.order_eval_empty, List.mem_reverse] at hmem
  · simp [hok] at hself
  · simp [hok] at hout

/-- With the value of a cell written into it, all that comes to a number does so as before. -/
theorem value_insert_value (hb : sheet.get b = .ok y) (hx : sheet.value f = .ok x) :
    (sheet.insert b (.number (.float y))).value f = .ok x := by
  obtain ⟨-, g, hg, hy⟩ := get_eq_ok_iff.1 hb
  obtain ⟨u, hu, hy⟩ := value_eq_ok_iff.1 hy
  obtain ⟨t, ht, hx⟩ := value_eq_ok_iff.1 hx
  have hwritten : sheet.find? b ≠ none := by simp [hg]
  refine value_eq_ok_iff.2 ⟨t.cache b y, ht.cache hwritten y, ?_⟩
  rw [ht.unfolds.value?_cache hg hu.unfolds hy, hx]

theorem get_insert_value (hb : sheet.get b = .ok y) (ha : sheet.get a = .ok x) :
    (sheet.insert b (.number (.float y))).get a = .ok x := by
  obtain ⟨hc, f, hf, hx⟩ := get_eq_ok_iff.1 ha
  refine get_eq_ok_iff.2 ⟨covers_insert hc b _, ?_⟩
  rw [find?_insert]
  split
  · next heq =>
    subst heq
    obtain rfl := Except.ok.inj (hb.symm.trans ha)
    exact ⟨_, rfl, congrArg Evaluation.result (eval_number _ ∅ (.float y))⟩
  · exact ⟨f, hf, value_insert_value hb hx⟩

/-- The cells that a read looks up can be read themselves, where that read comes to a number. -/
theorem exists_get_of_readLooksUp (ha : sheet.get a = .ok x) (hb : sheet.ReadLooksUp a b) :
    ∃ y, sheet.get b = .ok y := by
  rcases hb with rfl | ⟨f, hf, hlooks⟩
  · exact ⟨x, ha⟩
  · obtain ⟨-, g, hg, hvalue⟩ := get_eq_ok_iff.1 ha
    obtain rfl := Option.some.inj (hf.symm.trans hg)
    obtain ⟨t, ht, hx⟩ := value_eq_ok_iff.1 hvalue
    have hmem := ht.mem_dereferenced hx hlooks
    obtain ⟨g, u, hg, hu⟩ := ht.exists_resolves hmem
    obtain ⟨n, y, w, hy, -⟩ :=
      hu.unfolds.exists_evaluates hu.stored hu.noBlank hu.once fun c _ => Visits.not_mem_empty c
    exact ⟨y, get_eq_ok_iff.2 ⟨(ht.stored b hmem).1, g, hg, value_eq_ok_iff.2 ⟨u, hu, hy⟩⟩⟩

/-- Where the read of a cell comes to a number, so does the read of every cell that it looks up, at
once or by way of other cells. With its own value written into such a cell as a constant, the block
is as large as before and the first read comes to the same number. -/
theorem reads_survive_caching {sheet : Sheet} {a : Address} {x : Float}
    (h : sheet.get a = .ok x) :
    ∀ b, sheet.ReadLooksUp a b → ∃ y, sheet.get b = .ok y ∧
      (sheet.insert b (.number (.float y))).rowCount = sheet.rowCount ∧
      (sheet.insert b (.number (.float y))).columnCount = sheet.columnCount ∧
      (sheet.insert b (.number (.float y))).get a = .ok x := by
  intro b hb
  obtain ⟨y, hy⟩ := exists_get_of_readLooksUp h hb
  obtain ⟨hrow, hcolumn⟩ := covers_iff.1 (get_eq_ok_iff.1 hy).1
  refine ⟨y, hy, ?_, ?_, get_insert_value hy h⟩
  · rw [rowCount_insert, Nat.max_eq_right hrow]
  · rw [columnCount_insert, Nat.max_eq_right hcolumn]

/-- A cell that another one leads to is put into its value, and no longer computed. -/
theorem reads_survive_caching_indirect :
    let a1 : Address := ⟨1, 1, by decide, by decide, by decide, by decide⟩
    let b1 : Address := ⟨1, 2, by decide, by decide, by decide, by decide⟩
    let c1 : Address := ⟨1, 3, by decide, by decide, by decide, by decide⟩
    let square : Formula := .binary .multiply (.number (.integer 2)) (.number (.integer 2))
    let sheet := (((∅ : Sheet).insert a1 square).insert b1
      (.binary .multiply (.reference a1) (.number (.integer 3)))).insert c1
      (.binary .subtract (.reference b1) (.number (.integer 1)))
    sheet.get c1 = .ok 11 ∧ sheet.ReadLooksUp c1 a1 ∧ sheet.get a1 = .ok 4 ∧
      (sheet.insert a1 (.number (.float 4))).get c1 = .ok 11 := by
  intro a1 b1 c1 square sheet
  have ha : sheet.find? a1 = some square := by decide +kernel
  have hb : sheet.find? b1 = some (.binary .multiply (.reference a1) (.number (.integer 3))) := by
    decide +kernel
  have hc : sheet.find? c1 = some (.binary .subtract (.reference b1) (.number (.integer 1))) := by
    decide +kernel
  have hcovers : sheet.covers a1 ∧ sheet.covers b1 ∧ sheet.covers c1 := by decide +kernel
  have hsquare : sheet.Resolves square
      (.binary .multiply (.number (.integer 2)) (.number (.integer 2))) :=
    ⟨.binary _ (.number _) (.number _), by simp [Unfolding.dereferenced],
      by simp [Unfolding.HasBlank], .nil⟩
  have hsum : sheet.Resolves (.binary .subtract (.reference b1) (.number (.integer 1)))
      (.binary .subtract (.cell b1 (.binary .multiply (.cell a1
        (.binary .multiply (.number (.integer 2)) (.number (.integer 2)))) (.number (.integer 3))))
        (.number (.integer 1))) := by
    refine ⟨.binary _ (.cell hb (.binary _ (.cell ha hsquare.unfolds) (.number _))) (.number _), ?_,
      by simp [Unfolding.HasBlank], by decide⟩
    simp [Unfolding.dereferenced, ha, hb, hcovers]
  have hread : sheet.get c1 = .ok 11 :=
    get_eq_ok_iff.2 ⟨hcovers.2.2, _, hc, value_eq_ok_iff.2 ⟨_, hsum, by decide +kernel⟩⟩
  have hcached : sheet.get a1 = .ok 4 :=
    get_eq_ok_iff.2 ⟨hcovers.1, _, ha, value_eq_ok_iff.2 ⟨_, hsquare, by decide +kernel⟩⟩
  have hlooks : sheet.ReadLooksUp c1 a1 := by
    obtain ⟨w, hw⟩ := Visits.visit_of_not_mem (Visits.not_mem_empty b1)
    exact .inr ⟨_, hc, .left (.enter hcovers.2.1 hb (by simp) hw (.left .reference))⟩
  obtain ⟨y, hy, -, -, hkept⟩ := reads_survive_caching hread a1 hlooks
  obtain rfl := Except.ok.inj (hy.symm.trans hcached)
  exact ⟨hread, hlooks, hy, hkept⟩

end Sheet

end Spreadsheet
