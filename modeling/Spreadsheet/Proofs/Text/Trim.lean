import Mathlib.Data.List.TakeWhile
import Spreadsheet.Text.Blank

namespace Spreadsheet.Text

variable {s b : List Char}

private theorem trimEnd_append_blank (hb : ∀ c ∈ b, isBlank c = true) :
    trimEnd (s ++ b) = trimEnd s := by
  rw [trimEnd, List.reverse_append, List.dropWhile_append_of_pos (by simpa using hb), trimEnd]

theorem trim_blank_append (hb : ∀ c ∈ b, isBlank c = true) : trim (b ++ s) = trim s := by
  rw [trim, List.dropWhile_append_of_pos hb, trim]

theorem trim_append_blank (hb : ∀ c ∈ b, isBlank c = true) : trim (s ++ b) = trim s := by
  rw [trim, List.dropWhile_append]
  split
  · next hs =>
    have hnil : b.dropWhile isBlank = [] := List.dropWhile_eq_nil_iff.2 hb
    rw [trim, List.isEmpty_iff.1 hs, hnil]
  · rw [trimEnd_append_blank hb, trim]

theorem exists_eq_append_trim (s : List Char) :
    ∃ before after, s = before ++ trim s ++ after ∧
      (∀ c ∈ before, isBlank c = true) ∧ ∀ c ∈ after, isBlank c = true := by
  have hend (t : List Char) : trimEnd t ++ (t.reverse.takeWhile isBlank).reverse = t := by
    rw [trimEnd, ← List.reverse_append, List.takeWhile_append_dropWhile, List.reverse_reverse]
  refine ⟨s.takeWhile isBlank, ((s.dropWhile isBlank).reverse.takeWhile isBlank).reverse, ?_,
    fun c hc => List.mem_takeWhile_imp hc, fun c hc => List.mem_takeWhile_imp (List.mem_reverse.1 hc)⟩
  rw [List.append_assoc, trim, hend, List.takeWhile_append_dropWhile]

theorem trim_eq_self (hfirst : ∀ c ∈ s.head?, isBlank c = false)
    (hlast : ∀ c ∈ s.getLast?, isBlank c = false) : trim s = s := by
  have keep (t : List Char) (ht : ∀ c ∈ t.head?, isBlank c = false) : t.dropWhile isBlank = t := by
    cases t with
    | nil => rfl
    | cons c t => exact List.dropWhile_cons_of_neg (by simpa using ht c rfl)
  rw [trim, keep s hfirst, trimEnd, keep, List.reverse_reverse]
  simpa using hlast

private theorem isBlank_head_dropWhile {c : Char} (hc : c ∈ (s.dropWhile isBlank).head?) :
    isBlank c = false := by
  have := List.head?_dropWhile_not isBlank s
  rwa [hc] at this

theorem isBlank_head_trim {c : Char} (hc : c ∈ (trim s).head?) : isBlank c = false := by
  have hprefix : trim s <+: s.dropWhile isBlank := by
    rw [trim, trimEnd, ← List.reverse_suffix, List.reverse_reverse]
    exact List.dropWhile_suffix isBlank
  obtain ⟨t, ht⟩ := hprefix
  apply isBlank_head_dropWhile (s := s)
  rw [← ht, List.head?_append, hc]
  rfl

theorem isBlank_getLast_trim {c : Char} (hc : c ∈ (trim s).getLast?) : isBlank c = false := by
  rw [trim, trimEnd, List.getLast?_reverse] at hc
  exact isBlank_head_dropWhile hc

/-- A text that starts with no blank has its blanks behind what is left by trimming. -/
theorem exists_eq_trim_append (hfirst : ∀ c ∈ s.head?, isBlank c = false) :
    ∃ after, s = trim s ++ after ∧ ∀ c ∈ after, isBlank c = true := by
  obtain ⟨before, after, heq, hb, ha⟩ := exists_eq_append_trim s
  cases before with
  | nil => exact ⟨after, heq, ha⟩
  | cons c before =>
    rw [heq] at hfirst
    have := (hfirst c rfl).symm.trans (hb c (List.mem_cons_self ..))
    contradiction

theorem exists_eq_append_trim_of_last (hlast : ∀ c ∈ s.getLast?, isBlank c = false) :
    ∃ before, s = before ++ trim s ∧ ∀ c ∈ before, isBlank c = true := by
  obtain ⟨before, after, heq, hb, ha⟩ := exists_eq_append_trim s
  rcases List.eq_nil_or_concat after with rfl | ⟨after, c, rfl⟩
  · exact ⟨before, by simpa using heq, hb⟩
  · rw [heq, List.concat_eq_append, ← List.append_assoc, List.getLast?_concat] at hlast
    have := (hlast c rfl).symm.trans (ha c (by simp))
    contradiction

theorem trim_trim (s : List Char) : trim (trim s) = trim s :=
  trim_eq_self (fun _ => isBlank_head_trim) (fun _ => isBlank_getLast_trim)

end Spreadsheet.Text
