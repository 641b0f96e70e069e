namespace Spreadsheet.Text

def splitLast? (c : Char) : List Char → Option (List Char × List Char)
  | [] => none
  | d :: s =>
    match splitLast? c s with
    | some (before, after) => some (d :: before, after)
    | none => if d = c then some ([], s) else none

private def hasBeforeLast (c : Char) : List Char → Bool
  | d :: e :: s => d = c || hasBeforeLast c (e :: s)
  | _ => false

/-- Whether `c` stands in the text with at least one character on each side. -/
def hasInner (c : Char) (s : List Char) : Bool :=
  hasBeforeLast c s.tail

private theorem hasBeforeLast_eq (c : Char) (s : List Char) :
    hasBeforeLast c s = s.dropLast.contains c := by
  fun_induction hasBeforeLast c s with
  | case1 d e s ih => simp [ih, eq_comm]
  | case2 s h =>
    match s with
    | [] | [_] => rfl
    | d :: e :: s => exact absurd rfl (h d e s)

theorem hasInner_eq (c : Char) (s : List Char) : hasInner c s = s.tail.dropLast.contains c :=
  hasBeforeLast_eq c s.tail

theorem hasInner_append_iff {c : Char} {l m r : List Char} (hl : l ≠ []) (hr : r ≠ []) :
    hasInner c (l ++ (m ++ r)) = true ↔ c ∈ l.tail ∨ c ∈ m ∨ c ∈ r.dropLast := by
  rw [hasInner_eq, List.tail_append_of_ne_nil hl, ← List.append_assoc,
    List.dropLast_append_of_ne_nil hr]
  simp

theorem splitLast?_eq_none_iff {c : Char} {s : List Char} : splitLast? c s = none ↔ c ∉ s := by
  induction s with
  | nil => simp [splitLast?]
  | cons d s ih => grind [splitLast?]

theorem splitLast?_eq_some_iff {c : Char} {s l r : List Char} :
    splitLast? c s = some (l, r) ↔ s = l ++ c :: r ∧ c ∉ r := by
  induction s generalizing l with
  | nil => simp [splitLast?]
  | cons d s ih =>
    have missing := @splitLast?_eq_none_iff c s
    cases l with
    | nil => grind [splitLast?]
    | cons e l =>
      have := @ih l
      grind [splitLast?]

end Spreadsheet.Text
