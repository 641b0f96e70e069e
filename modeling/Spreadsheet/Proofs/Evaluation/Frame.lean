import Spreadsheet.Proofs.Evaluation.FirstFailure

/-! What a write leaves alone. A read depends on the cells that it looks up and on the block, and a
write only makes the block larger. So it changes no read that looks up other cells, unless the read
ran out of the block before. -/
namespace Spreadsheet.Sheet

variable (sheet : Sheet)

/-- Evaluating comes to a reference to this cell, whether it enters the cell or fails there. -/
def LooksUp (v : Visits) (f : Formula) (a : Address) : Prop :=
  ∃ entered pending, sheet.Walks ⟨v.order, [f]⟩ ⟨entered, .reference a :: pending⟩

def ReadLooksUp (b a : Address) : Prop :=
  a = b ∨ ∃ f, sheet.find? b = some f ∧ sheet.LooksUp ∅ f a

variable {sheet} {v w : Visits} {f g l r : Formula} {op : Operator} {a b : Address}

namespace LooksUp

theorem reference : sheet.LooksUp v (.reference a) a :=
  ⟨_, _, .refl⟩

theorem enter (hc : sheet.covers b) (hf : sheet.find? b = some f) (hne : f ≠ .reference b)
    (hv : v.visit b = (.ok (), w)) (h : sheet.LooksUp w f a) : sheet.LooksUp v (.reference b) a := by
  obtain ⟨entered, pending, hw⟩ := h
  exact ⟨entered, pending, (walks_reference hc hf hne hv _).trans hw⟩

theorem left (h : sheet.LooksUp v l a) : sheet.LooksUp v (.binary op l r) a := by
  obtain ⟨entered, pending, hw⟩ := h
  exact ⟨entered, _, .head .operands (hw.append [r])⟩

theorem right {x : Float} (hx : (sheet.eval v l).result = .ok x)
    (h : sheet.LooksUp (sheet.eval v l).visits r a) : sheet.LooksUp v (.binary op l r) a := by
  obtain ⟨entered, pending, hw⟩ := h
  exact ⟨entered, pending, .head .operands ((walks_of_eval_eq_ok hx [r]).trans hw)⟩

theorem mem_or_fails (h : sheet.LooksUp v f a) :
    a ∈ (sheet.eval v f).visits ∨ (sheet.eval v f).result = .error (.selfReference a) ∨
      (sheet.eval v f).result = .error (.outOfRange a) := by
  obtain ⟨entered, pending, hw⟩ := h
  by_cases hpass : sheet.Passes entered (.reference a)
  · have hstep := WalkStep.reference hpass pending
    refine .inl ?_
    have hmem (q : Position) (hq : sheet.Walks ⟨v.order, [f]⟩ q)
        (hstuck : ∀ next, ¬ sheet.WalkStep q next) : a ∈ q.entered :=
      (hq.walks_of_stuck (hw.tail hstep) hstuck).mem List.mem_cons_self
    cases he : (sheet.eval v f).result with
    | ok x => exact hmem _ (walks_of_eval_eq_ok he []) fun _ => not_walkStep_nil
    | error cause =>
      obtain ⟨before, leaf, rest, added, hq, hfail, horder⟩ := firstFailure_of_eval_eq_error he
      show a ∈ (sheet.eval v f).visits.order
      rw [horder]
      exact List.mem_append_right _ (hmem _ hq fun _ => hfail.not_walkStep)
  · simp only [Passes, not_forall, not_not] at hpass
    obtain ⟨cause, added, hfail⟩ := hpass
    have hfirst : sheet.FirstFailure v f cause (added ++ entered) :=
      ⟨_, _, _, _, hw, hfail, rfl⟩
    obtain ⟨hcause, horder⟩ := hfirst.eval_eq
    have hmem (ha : a ∈ added ++ entered) : a ∈ (sheet.eval v f).visits := by
      show a ∈ (sheet.eval v f).visits.order
      rwa [horder]
    cases hfail with
    | outside => exact .inr (.inr hcause)
    | itself => exact .inr (.inl hcause)
    | again _ _ ha => exact .inl (hmem ha)
    | unwritten => exact .inl (hmem (List.mem_append_left _ (List.mem_singleton_self a)))

end LooksUp

theorem covers_insert (h : sheet.covers b) (a : Address) (g : Formula) :
    (sheet.insert a g).covers b := by
  obtain ⟨hrow, hcolumn⟩ := covers_iff.1 h
  rw [covers_iff, rowCount_insert, columnCount_insert]
  exact ⟨Nat.le_trans hrow (Nat.le_max_right ..), Nat.le_trans hcolumn (Nat.le_max_right ..)⟩

theorem find?_insert_of_ne (h : a ≠ b) : (sheet.insert a g).find? b = sheet.find? b := by
  rw [find?_insert, if_neg h]

/-- The run of the evaluator is the same after a write to a cell that it does not look up. -/
theorem Evaluates.insert {n : Nat} {as : List Address} {e : Evaluation}
    (h : sheet.Evaluates v f n as e) (hl : ¬ sheet.LooksUp v f a)
    (ho : ∀ b, e.result ≠ .error (.outOfRange b)) (g : Formula) :
    (sheet.insert a g).Evaluates v f n as e := by
  have same {v : Visits} {b : Address} (hl : ¬ sheet.LooksUp v (.reference b) a) :
      (sheet.insert a g).find? b = sheet.find? b := by
    apply find?_insert_of_ne
    rintro rfl
    exact hl .reference
  induction h with
  | number v n => exact .number v n
  | blank v => exact .blank v
  | outside => exact absurd rfl (ho _)
  | itself hc hs => exact .itself (covers_insert hc a g) ((same hl).trans hs)
  | again hc hs hv => exact .again (covers_insert hc a g) (same hl ▸ hs) hv
  | unwritten hc hn hv => exact .unwritten (covers_insert hc a g) ((same hl).trans hn) hv
  | enter hc hf hne hv _ ih =>
    have inner := ih (fun h => hl (h.enter hc hf hne hv)) ho
    exact .enter (covers_insert hc a g) ((same hl).trans hf) hne hv inner
  | left _ he ih => exact .left (ih (fun h => hl h.left) ho) he
  | both hrun hx _ ihl ihr =>
    have inner := ihl (fun h => hl h.left) fun b hb => by simp [hb] at hx
    obtain rfl := hrun.eq_eval
    refine .both inner hx (ihr (fun h => hl (h.right hx)) ?_)
    intro b hb
    exact ho b (by simp [hb, Except.map])

theorem eval_insert (hl : ¬ sheet.LooksUp v f a)
    (ho : ∀ b, (sheet.eval v f).result ≠ .error (.outOfRange b)) (g : Formula) :
    (sheet.insert a g).eval v f = sheet.eval v f := by
  obtain ⟨n, as, h⟩ := sheet.exists_evaluates v f
  exact (h.insert hl ho g).eq_eval.symm

theorem get_insert (hl : ¬ sheet.ReadLooksUp b a)
    (ho : ∀ c, sheet.get b ≠ .error (.outOfRange c)) (g : Formula) :
    (sheet.insert a g).get b = sheet.get b := by
  have hc : sheet.covers b := by
    by_contra hc
    exact ho b (get_of_not_covers hc)
  have hfind : (sheet.insert a g).find? b = sheet.find? b :=
    find?_insert_of_ne fun hab => hl (.inl hab)
  rw [get_of_covers (covers_insert hc a g), get_of_covers hc, hfind]
  rw [get_of_covers hc] at ho
  cases hf : sheet.find? b with
  | none => rfl
  | some f =>
    rw [hf] at ho
    exact congrArg Evaluation.result (eval_insert (fun h => hl (.inr ⟨f, hf, h⟩)) ho g)

theorem read_insert {policy : Policy} {places : Nat} (hl : ¬ sheet.ReadLooksUp b a)
    (ho : ∀ c, sheet.read policy places b ≠ .error (.outOfRange c)) (g : Formula) :
    (sheet.insert a g).read policy places b = sheet.read policy places b := by
  have strict (ho : ∀ c, sheet.getStrict places b ≠ .error (.outOfRange c)) :
      (sheet.insert a g).getStrict places b = sheet.getStrict places b := by
    rw [getStrict, getStrict, get_insert hl]
    intro c hc
    exact ho c (by rw [getStrict, hc]; rfl)
  cases policy with
  | strict => exact strict ho
  | formatted =>
    have hfind : (sheet.insert a g).find? b = sheet.find? b :=
      find?_insert_of_ne fun hab => hl (.inl hab)
    simp only [read, getFormatted_eq, hfind] at ho ⊢
    by_cases hc : sheet.covers b
    · simp only [hc, covers_insert hc a g] at ho ⊢
      split
      · rfl
      · next hblank =>
        rw [if_neg hblank] at ho
        exact strict ho
    · refine absurd ?_ (ho b)
      rw [if_neg fun h => hc h.1, getStrict, get_of_not_covers hc]
      rfl

/-- A write changes only evaluations and reads that look up its cell or that ran out of the block:
all others come to the same result, be it a failure, and have entered the same cells. -/
theorem put_keeps_other_reads {sheet after : Sheet} {a : Address} {text : List Char}
    (hput : sheet.put a text = .ok after) :
    (∀ v f, ¬ sheet.LooksUp v f a → (∀ c, (sheet.eval v f).result ≠ .error (.outOfRange c)) →
      after.eval v f = sheet.eval v f) ∧
    ∀ b, ¬ sheet.ReadLooksUp b a →
      ((∀ c, sheet.get b ≠ .error (.outOfRange c)) → after.get b = sheet.get b) ∧
      ∀ policy places, (∀ c, sheet.read policy places b ≠ .error (.outOfRange c)) →
        after.read policy places b = sheet.read policy places b := by
  obtain ⟨g, -, rfl⟩ := map_eq_ok_iff.1 hput
  refine ⟨fun v f hl ho => eval_insert hl ho g, ?_⟩
  intro b hl
  exact ⟨fun ho => get_insert hl ho g, fun policy places ho => read_insert hl ho g⟩

/-- Two cells that refer to each other are circular with the same chain after a write to a third
cell, which makes the block larger. -/
theorem put_keeps_cycle :
    let a1 : Address := ⟨1, 1, by decide, by decide, by decide, by decide⟩
    let b1 : Address := ⟨1, 2, by decide, by decide, by decide, by decide⟩
    let c3 : Address := ⟨3, 3, by decide, by decide, by decide, by decide⟩
    let sheet := ((∅ : Sheet).insert a1 (.reference b1)).insert b1 (.reference a1)
    ∃ after, sheet.put c3 "7".toList = .ok after ∧ after.rowCount = 3 ∧
      sheet.read .formatted 2 a1 = .error (.circular b1 [a1, b1]) ∧
      after.read .formatted 2 a1 = .error (.circular b1 [a1, b1]) := by
  intro a1 b1 c3 sheet
  have hread : sheet.read .formatted 2 a1 = .error (.circular b1 [a1, b1]) := by cbv
  have hcause : (sheet.eval ∅ (.reference b1)).result = .error (.circular b1 [a1, b1]) := by cbv
  have horder : (sheet.eval ∅ (.reference b1)).visits.order = [a1, b1] := by cbv
  have hparse : Formula.parse "7".toList = .ok (.number (.integer 7)) := by decide +kernel
  have hput : sheet.put c3 "7".toList = .ok (sheet.insert c3 (.number (.integer 7))) := by
    rw [put, hparse]
    rfl
  have hlooks : ¬ sheet.ReadLooksUp a1 c3 := by
    rintro (heq | ⟨f, hf, hlooks⟩)
    · exact absurd heq (by decide)
    · have hb : sheet.find? a1 = some (.reference b1) := by cbv
      obtain rfl := Option.some.inj (hb.symm.trans hf)
      rcases hlooks.mem_or_fails with hmem | hself | hout
      · have hmem : c3 ∈ [a1, b1] := horder ▸ hmem
        exact absurd hmem (by decide)
      · simp [hcause] at hself
      · simp [hcause] at hout
  refine ⟨_, hput, by decide +kernel, hread, ?_⟩
  rw [← hread]
  exact ((put_keeps_other_reads hput).2 a1 hlooks).2 .formatted 2 (by simp [hread])

end Spreadsheet.Sheet
