/-! Blank characters, and text freed of the blanks around it.
Text is a list of characters throughout, so that every reader recurses on it. -/
namespace Spreadsheet.Text

/-- The ranges of code points with the Unicode property White_Space. -/
def blankRanges : List (Nat × Nat) :=
  [(0x09, 0x0D), (0x20, 0x20), (0x85, 0x85), (0xA0, 0xA0), (0x1680, 0x1680), (0x2000, 0x200A),
    (0x2028, 0x2029), (0x202F, 0x202F), (0x205F, 0x205F), (0x3000, 0x3000)]

def isBlank (c : Char) : Bool :=
  blankRanges.any fun range => range.1 ≤ c.toNat && c.toNat ≤ range.2

def trimEnd (s : List Char) : List Char :=
  (s.reverse.dropWhile isBlank).reverse

def trim (s : List Char) : List Char :=
  trimEnd (s.dropWhile isBlank)

theorem trim_eq_nil_iff {s : List Char} : trim s = [] ↔ s.all isBlank = true := by
  have nothing_left (t : List Char) : t.dropWhile isBlank = [] ↔ t.all isBlank = true := by
    induction t with
    | nil => simp
    | cons c t ih => by_cases h : isBlank c <;> simp [h, ih]
  rw [trim, trimEnd, List.reverse_eq_nil_iff, nothing_left, List.all_reverse]
  induction s with
  | nil => simp
  | cons c s ih => by_cases h : isBlank c <;> simp [h, ih]

theorem length_trimEnd_le (s : List Char) : (trimEnd s).length ≤ s.length := by
  simpa [trimEnd] using (s.reverse.dropWhile_sublist isBlank).length_le

theorem length_trim_le (s : List Char) : (trim s).length ≤ s.length :=
  Nat.le_trans (length_trimEnd_le _) (s.dropWhile_sublist isBlank).length_le

end Spreadsheet.Text
