import Spreadsheet.Sheet.Error
import Std.Data.TreeSet

namespace Spreadsheet

/-- The first cell that was tried, and the cells entered: in their order, the latest first, and
sorted. Nothing here ties the root to the rest. -/
structure Visits where
  root : Option Address
  order : List Address
  seen : Std.TreeSet Address
  mem_seen : ∀ a, a ∈ seen ↔ a ∈ order

namespace Visits

def empty : Visits where
  root := none
  order := []
  seen := ∅
  mem_seen := by simp

instance : EmptyCollection Visits := ⟨empty⟩

instance : Inhabited Visits := ⟨∅⟩

instance : Membership Address Visits where
  mem v a := a ∈ v.order

instance (a : Address) (v : Visits) : Decidable (a ∈ v) :=
  decidable_of_iff (a ∈ v.seen) (v.mem_seen a)

variable (v : Visits)

def isTracking : Bool :=
  v.root.isSome

def size : Nat :=
  v.seen.size

def isEmpty : Bool :=
  v.seen.isEmpty

def chain : List Address :=
  v.seen.toList

private def startAt (a : Address) : Visits :=
  match v.root with
  | none => { v with root := some a }
  | some _ => v

private def add (a : Address) : Visits where
  root := v.root
  order := a :: v.order
  seen := v.seen.insert a
  mem_seen b := by
    rw [Std.TreeSet.mem_insert, Std.compare_eq_iff_eq, v.mem_seen, List.mem_cons, eq_comm]

/-- Enters a cell, which becomes the root if there is none, whatever comes of the visit. A cell that
was entered before is circular. -/
def visit (a : Address) : Except ReadError Unit × Visits :=
  let v := v.startAt a
  if a ∈ v then (.error (.circular a v.chain), v) else (.ok (), v.add a)

theorem not_mem_empty (a : Address) : a ∉ (∅ : Visits) :=
  List.not_mem_nil

theorem mem_chain {a : Address} : a ∈ v.chain ↔ a ∈ v := by
  rw [chain, Std.TreeSet.mem_toList]
  exact v.mem_seen a

private theorem startAt_eq (a : Address) : v.startAt a = { v with root := some (v.root.getD a) } := by
  obtain ⟨root, -, -, -⟩ := v
  cases root <;> rfl

private theorem visit_eq (a : Address) :
    v.visit a = if a ∈ v then (.error (.circular a v.chain), v.startAt a)
      else (.ok (), (v.startAt a).add a) := by
  rw [visit, startAt_eq]
  rfl

theorem root_visit (a : Address) : (v.visit a).2.root = some (v.root.getD a) := by
  rw [visit_eq, startAt_eq]
  split <;> rfl

variable {v}

theorem visit_eq_error_iff {a : Address} {e : ReadError} :
    (v.visit a).1 = .error e ↔ a ∈ v ∧ e = .circular a v.chain := by
  rw [visit_eq]
  split <;> simp_all [eq_comm]

theorem visit_of_mem {a : Address} (ha : a ∈ v) (hroot : v.root ≠ none) :
    (v.visit a).2 = v := by
  obtain ⟨root, hsome⟩ := Option.ne_none_iff_exists'.1 hroot
  rw [visit_eq, if_pos ha, startAt, hsome]

theorem order_of_visit {w : Visits} {a : Address} (h : v.visit a = (.ok (), w)) :
    a ∉ v ∧ w.order = a :: v.order := by
  rw [visit_eq, startAt_eq] at h
  split at h
  · simp at h
  · next ha => exact ⟨ha, by rw [← (Prod.mk.inj h).2]; rfl⟩

theorem order_of_refusal {w : Visits} {a : Address} {e : ReadError}
    (h : v.visit a = (.error e, w)) :
    a ∈ v ∧ e = .circular a v.chain ∧ w.order = v.order := by
  rw [visit_eq, startAt_eq] at h
  split at h
  · next ha =>
    obtain ⟨he, rfl⟩ := Prod.mk.inj h
    exact ⟨ha, (Except.error.inj he).symm, rfl⟩
  · simp at h

theorem visit_of_not_mem {a : Address} (ha : a ∉ v) : ∃ w, v.visit a = (.ok (), w) := by
  rw [visit_eq, if_neg ha]
  exact ⟨_, rfl⟩

theorem mem_of_visit {r : Except ReadError Unit} {w : Visits} {a b : Address}
    (h : v.visit a = (r, w)) : b ∈ w ↔ b = a ∨ b ∈ v := by
  show b ∈ w.order ↔ b = a ∨ b ∈ v
  cases r with
  | ok =>
    rw [(order_of_visit h).2]
    exact List.mem_cons
  | error e =>
    obtain ⟨ha, -, horder⟩ := order_of_refusal h
    rw [horder]
    exact ⟨.inr, fun hb => hb.elim (fun hba => hba ▸ ha) id⟩

end Visits

end Spreadsheet
