import Mathlib.Data.List.Dedup
import Mathlib.Data.List.Induction
import Mathlib.Data.List.Permutation
import Spreadsheet.Proofs.Evaluation.FirstFailure

/-! One record of entered cells through all that is done with it: cells are entered one by one,
and formulas are evaluated and displayed over any sheets. All that evaluating does to the record is
to try to enter cells. So it is enough that no attempt, be it a failure, parts the root from the
cells that the record holds. -/
namespace Spreadsheet

def Visits.attempt (v : Visits) (a : Address) : Visits :=
  (v.visit a).2

namespace Sheet

variable (sheet : Sheet)

/-- The cells that evaluating a formula tries to enter, in this order. -/
def attempts (v : Visits) : Formula → List Address
  | .number _ | .blank => []
  | .reference a =>
    if sheet.covers a ∧ sheet.find? a ≠ some (.reference a) then
      match _entered : v.visit a, _stored : sheet.find? a with
      | (.ok (), w), some f => a :: attempts w f
      -- the cell is refused, or nothing was written there: evaluating ends with this attempt
      | _, _ => [a]
    else []
  | .binary _ l r =>
    attempts v l ++ match (sheet.eval v l).result with
      | .ok _ => attempts (sheet.eval v l).visits r
      | .error _ => []
termination_by f => (sheet.unvisited v, sizeOf f)
decreasing_by
  · exact .left _ _ (sheet.unvisited_lt_of_visit _stored _entered)
  · apply Prod.Lex.right
    show sizeOf l < 1 + sizeOf _ + sizeOf l + sizeOf r
    omega
  · refine Prod.lex_def.2 ((Nat.lt_or_eq_of_le (sheet.unvisited_le fun _ => mem_eval)).imp_right
      (⟨·, ?_⟩))
    show sizeOf r < 1 + sizeOf _ + sizeOf l + sizeOf r
    omega

/-- All that evaluating does to a record is to try to enter cells, wherever it ends. -/
theorem visits_eval (v : Visits) (f : Formula) :
    (sheet.eval v f).visits = (sheet.attempts v f).foldl Visits.attempt v := by
  induction v, f using sheet.eval_induction with
  | number v n =>
    rw [eval_number, attempts]
    rfl
  | blank v =>
    rw [eval_blank, attempts]
    rfl
  | reference v a ih =>
    rw [eval_reference, attempts]
    by_cases hc : sheet.covers a
    · by_cases hs : sheet.find? a = some (.reference a)
      · simp [hc, hs]
      · rw [if_pos hc, if_neg hs, if_pos ⟨hc, hs⟩]
        rcases hv : v.visit a with ⟨e | ⟨⟩, w⟩
        · simp [Visits.attempt, hv]
        · cases hf : sheet.find? a with
          | none => simp [Visits.attempt, hv]
          | some f => simp [Visits.attempt, hv, ih w f hv hf]
    · simp [hc]
  | binary v op l r ihl ihr =>
    -- the right operand starts from what the attempts of the left one have made of the record
    rw [eval_binary, attempts, List.foldl_append, ← ihl]
    cases hx : (sheet.eval v l).result with
    | error cause => simp only [hx, List.foldl_nil]
    | ok x => simp only [hx, ihr]

/-- Displaying a blank enters nothing, and neither does evaluating one. -/
theorem visits_display (places : Nat) (v : Visits) (f : Formula) :
    (sheet.display places v f).2 = (sheet.eval v f).visits := by
  rw [display]
  split
  · next hblank => rw [hblank, eval_blank]
  · rfl

variable {sheet} {v : Visits} {f : Formula} {a : Address} {e : ReadError} {chain : List Address}

theorem eval_eq_error_of_display {places : Nat}
    (h : (sheet.display places v f).1 = .error e) : (sheet.eval v f).result = .error e := by
  rw [display] at h
  split at h
  · contradiction
  · exact map_eq_error_iff.1 h

/-- What evaluating finds circular cannot be entered afterwards, for the same reason. -/
theorem visit_of_eval_eq_circular (h : (sheet.eval v f).result = .error (.circular a chain)) :
    ((sheet.eval v f).visits.visit a).1 = .error (.circular a chain) := by
  obtain ⟨before, leaf, rest, added, -, hfail, horder⟩ := firstFailure_of_eval_eq_error h
  cases hfail with
  | again _ _ ha hchain =>
    rw [List.nil_append] at horder
    subst horder
    apply Visits.visit_eq_error_iff.2
    exact ⟨ha, by rw [hchain.unique (isChain_chain _)]⟩

end Sheet

namespace Visits

structure IsChainTo (v : Visits) (a : Address) (chain : List Address) : Prop where
  sorted : chain.Pairwise Address.Before
  length_eq : chain.length = v.size
  mem : a ∈ chain
  root_mem : ∃ root, v.root = some root ∧ root ∈ chain

/-- The parts of a record agree with the cells that were tried, the first one first, and with each
other. A cell is refused exactly if the record holds it, and that changes nothing. -/
structure KeepsTrack (v : Visits) (tried : List Address) : Prop where
  mem_iff : ∀ a, a ∈ v ↔ a ∈ tried
  root_eq : v.root = tried.head?
  size_eq : v.size = tried.dedup.length
  isTracking_iff : v.isTracking ↔ ¬ v.isEmpty
  not_isEmpty_iff : ¬ v.isEmpty ↔ ∃ root, v.root = some root ∧ root ∈ v
  refuses_iff : ∀ a, (∃ e, (v.visit a).1 = .error e) ↔ a ∈ v
  refusal : ∀ a e, (v.visit a).1 = .error e →
    (v.visit a).2 = v ∧ ∃ chain, e = .circular a chain ∧ v.IsChainTo a chain

variable {v : Visits} {a b : Address} {tried : List Address}

theorem mem_attempt : b ∈ v.attempt a ↔ b = a ∨ b ∈ v :=
  mem_of_visit (v := v) rfl

theorem not_isEmpty_iff_exists_mem : ¬ v.isEmpty ↔ ∃ a, a ∈ v := by
  rw [isEmpty, Bool.not_eq_true, Std.TreeSet.isEmpty_eq_false_iff_exists_mem]
  exact exists_congr v.mem_seen

theorem length_chain (v : Visits) : v.chain.length = v.size :=
  Std.TreeSet.length_toList

/-- A record agrees with the cells that were tried as soon as it holds them and its root is the first
of them. Neither follows from the other: a record that holds cells and has no root would be changed
by a visit that fails. -/
theorem KeepsTrack.of_root (hmem : ∀ a, a ∈ v ↔ a ∈ tried) (hroot : v.root = tried.head?) :
    v.KeepsTrack tried := by
  have hheld {root : Address} (h : v.root = some root) : root ∈ v :=
    (hmem root).2 (List.mem_of_mem_head? (hroot ▸ h))
  have hsome (h : ∃ a, a ∈ v) : ∃ root, v.root = some root := by
    obtain ⟨a, ha⟩ := h
    rw [hroot]
    exact Option.isSome_iff_exists.1 (List.isSome_head?.2 (List.ne_nil_of_mem ((hmem a).1 ha)))
  refine ⟨hmem, hroot, ?_, ?_, ?_, fun a => by simp [visit_eq_error_iff], ?_⟩
  · have hchain : v.chain.Nodup :=
      Address.nodup_of_pairwise_before (Sheet.isChain_chain v).sorted
    rw [← length_chain]
    apply List.Perm.length_eq
    apply (List.perm_ext_iff_of_nodup hchain (List.nodup_dedup tried)).2
    intro a
    rw [mem_chain, hmem, List.mem_dedup]
  · rw [isTracking, Option.isSome_iff_exists, not_isEmpty_iff_exists_mem]
    exact ⟨fun ⟨root, h⟩ => ⟨root, hheld h⟩, hsome⟩
  · rw [not_isEmpty_iff_exists_mem]
    constructor
    · intro h
      obtain ⟨root, h⟩ := hsome h
      exact ⟨root, h, hheld h⟩
    · rintro ⟨root, -, h⟩
      exact ⟨root, h⟩
  · intro a e he
    obtain ⟨ha, rfl⟩ := visit_eq_error_iff.1 he
    obtain ⟨root, h⟩ := hsome ⟨a, ha⟩
    exact ⟨visit_of_mem ha (by simp [h]), v.chain, rfl, (Sheet.isChain_chain v).sorted,
      v.length_chain, v.mem_chain.2 ha, root, h, v.mem_chain.2 (hheld h)⟩

theorem keepsTrack_empty : (∅ : Visits).KeepsTrack [] :=
  .of_root (fun _ => Iff.rfl) rfl

/-- An attempt sets the root only where none was tried before, and takes no cell out. -/
theorem KeepsTrack.attempt (h : v.KeepsTrack tried) (a : Address) :
    (v.attempt a).KeepsTrack (tried ++ [a]) := by
  apply KeepsTrack.of_root
  · intro b
    rw [mem_attempt, h.mem_iff, List.mem_append, List.mem_singleton, or_comm]
  · rw [Visits.attempt, root_visit, h.root_eq, List.head?_append, List.head?_singleton]
    cases tried <;> rfl

theorem keepsTrack_foldl (tried : List Address) : (tried.foldl attempt ∅).KeepsTrack tried := by
  induction tried using List.reverseRecOn with
  | nil => exact keepsTrack_empty
  | append_singleton tried a ih =>
    rw [List.foldl_append]
    exact ih.attempt a

inductive Use
  | visit (a : Address)
  | eval (sheet : Sheet) (f : Formula)
  | display (sheet : Sheet) (places : Nat) (f : Formula)

namespace Use

def after (v : Visits) : Use → Visits
  | visit a => v.attempt a
  | eval sheet f => (sheet.eval v f).visits
  | display sheet places f => (sheet.display places v f).2

def attempts (v : Visits) : Use → List Address
  | visit a => [a]
  | eval sheet f | display sheet _ f => sheet.attempts v f

def Fails (v : Visits) (e : ReadError) : Use → Prop
  | visit a => (v.visit a).1 = .error e
  | eval sheet f => (sheet.eval v f).result = .error e
  | display sheet places f => (sheet.display places v f).1 = .error e

variable {use : Use} {chain : List Address}

theorem after_eq (use : Use) (v : Visits) :
    use.after v = (use.attempts v).foldl attempt v := by
  cases use with
  | visit a => rfl
  | eval sheet f => exact sheet.visits_eval v f
  | display sheet places f => exact (sheet.visits_display places v f).trans (sheet.visits_eval v f)

/-- Every circular failure is one of a cell that cannot be entered again. -/
theorem visit_of_fails (h : use.Fails v (.circular a chain)) :
    ((use.after v).visit a).1 = .error (.circular a chain) := by
  cases use with
  | visit b =>
    have hrefused : v.visit b = (.error (.circular a chain), v.attempt b) := Prod.ext h rfl
    obtain ⟨hb, heq, horder⟩ := order_of_refusal hrefused
    obtain ⟨rfl, rfl⟩ := ReadError.circular.inj heq
    have hchain : (v.attempt a).chain = v.chain :=
      (horder ▸ Sheet.isChain_chain (v.attempt a)).unique (Sheet.isChain_chain v)
    exact visit_eq_error_iff.2 ⟨mem_attempt.2 (.inr hb), by rw [after, hchain]⟩
  | eval sheet f => exact Sheet.visit_of_eval_eq_circular h
  | display sheet places f =>
    rw [after, Sheet.visits_display]
    exact Sheet.visit_of_eval_eq_circular (Sheet.eval_eq_error_of_display h)

end Use

structure Session where
  visits : Visits
  tried : List Address

namespace Session

def after (session : Session) (use : Use) : Session where
  visits := use.after session.visits
  tried := session.tried ++ use.attempts session.visits

def Replays (session : Session) : Prop :=
  session.visits = session.tried.foldl attempt ∅

theorem replays_empty : Session.Replays ⟨∅, []⟩ := rfl

variable {session : Session}

theorem Replays.after (h : session.Replays) (use : Use) : (session.after use).Replays := by
  rw [Replays, Session.after, Use.after_eq, List.foldl_append, ← h]

theorem Replays.run (h : session.Replays) (uses : List Use) :
    (uses.foldl Session.after session).Replays := by
  induction uses generalizing session with
  | nil => exact h
  | cons use uses ih => exact ih (h.after use)

theorem Replays.keepsTrack (h : session.Replays) : session.visits.KeepsTrack session.tried :=
  h ▸ keepsTrack_foldl session.tried

theorem tried_isPrefix (session : Session) (uses : List Use) :
    session.tried <+: (uses.foldl after session).tried := by
  induction uses generalizing session with
  | nil => exact List.prefix_rfl
  | cons use uses ih => exact (List.prefix_append _ _).trans (ih (session.after use))

end Session

/-- Whatever is done with a record that began empty, over whatever sheets, be it a success or not,
the record keeps track of the cells that were tried, also at each moment in between. It never loses
a cell, and its root stays. Where something fails as circular, the chain is that of the record. -/
theorem uses_keepTrack (uses : List Use) :
    let session := uses.foldl Session.after ⟨∅, []⟩
    session.visits.KeepsTrack session.tried ∧
    session.visits = session.tried.foldl attempt ∅ ∧
    (∀ n, ((session.tried.take n).foldl attempt ∅).KeepsTrack (session.tried.take n)) ∧
    (∀ (use : Use) a chain, use.Fails session.visits (.circular a chain) →
      (session.after use).visits.IsChainTo a chain) ∧
    ∀ more : List Use, let later := more.foldl Session.after session
      (∀ a ∈ session.visits, a ∈ later.visits) ∧
      ∀ root, session.visits.root = some root → later.visits.root = some root := by
  intro session
  have hreplays : session.Replays := Session.replays_empty.run uses
  have hkept := hreplays.keepsTrack
  refine ⟨hkept, hreplays, fun n => keepsTrack_foldl _, ?_, ?_⟩
  · intro use a chain hfails
    obtain ⟨-, other, heq, hchain⟩ :=
      (hreplays.after use).keepsTrack.refusal _ _ (Use.visit_of_fails hfails)
    obtain ⟨-, rfl⟩ := ReadError.circular.inj heq
    exact hchain
  · intro more later
    have hlater := (hreplays.run more).keepsTrack
    have hprefix : session.tried <+: later.tried := session.tried_isPrefix more
    constructor
    · intro a ha
      apply (hlater.mem_iff a).2
      exact hprefix.subset ((hkept.mem_iff a).1 ha)
    · intro root hroot
      obtain ⟨added, hadded⟩ := hprefix
      rw [hkept.root_eq] at hroot
      rw [hlater.root_eq, ← hadded, List.head?_append, hroot, Option.some_or]

/-- A cycle over one sheet, then a failure at a cell of another one that was never written. A cell of
the cycle is refused afterwards, with all three cells, and the root is the first of the cycle. -/
theorem uses_keepTrack_two_sheets :
    let a1 : Address := ⟨1, 1, by decide, by decide, by decide, by decide⟩
    let b2 : Address := ⟨2, 2, by decide, by decide, by decide, by decide⟩
    let c1 : Address := ⟨1, 3, by decide, by decide, by decide, by decide⟩
    let cycle := ((∅ : Sheet).insert b2 (.reference a1)).insert a1 (.reference b2)
    let sparse := (∅ : Sheet).insert ⟨3, 3, by decide, by decide, by decide, by decide⟩ .blank
    let uses : List Use := [.eval cycle (.reference b2),
      .display sparse 2 (.binary .add (.reference c1) (.reference a1))]
    let session := uses.foldl Session.after ⟨∅, []⟩
    session.tried = [b2, a1, b2, c1] ∧ session.visits.size = 3 ∧
    (Use.visit a1).Fails session.visits (.circular a1 [a1, c1, b2]) ∧
    (session.after (.visit a1)).visits.IsChainTo a1 [a1, c1, b2] ∧
    (session.after (.visit a1)).visits.root = some b2 ∧
    c1 ∈ (session.after (.visit a1)).visits := by
  intro a1 b2 c1 cycle sparse uses session
  obtain ⟨hkept, -, -, hchain, hlater⟩ := uses_keepTrack uses
  have htried : session.tried = [b2, a1, b2, c1] := by cbv
  have hfails : (Use.visit a1).Fails session.visits (.circular a1 [a1, c1, b2]) := by cbv
  have hsize : session.visits.size = 3 := by
    rw [hkept.size_eq, htried]
    decide
  have hroot : session.visits.root = some b2 := by
    rw [hkept.root_eq, htried]
    rfl
  have hmem : c1 ∈ session.visits := by
    rw [hkept.mem_iff, htried]
    decide
  obtain ⟨hgrows, hstays⟩ := hlater [.visit a1]
  exact ⟨htried, hsize, hfails, hchain _ _ _ hfails, hstays b2 hroot, hgrows c1 hmem⟩

end Visits

end Spreadsheet
