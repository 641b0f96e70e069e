import Mathlib.Data.List.Basic
import Mathlib.Data.List.TakeWhile
import Spreadsheet.Csv
import Spreadsheet.Proofs.Text.Trim

namespace Spreadsheet.Csv

def write (rows : List (List (List Char))) : List Char :=
  rows.flatMap fun fields => [','].intercalate fields ++ ['\n']

/-- A field that needs no quotes: it has no quote and no comma in it, and no blank around it. -/
structure IsBare (field : List Char) : Prop where
  comma : ',' ∉ field
  quote : '"' ∉ field
  first : ∀ c ∈ field.head?, Text.isBlank c = false
  last : ∀ c ∈ field.getLast?, Text.isBlank c = false

def escape (c : Char) : List Char :=
  if c = '"' then ['"', '"'] else [c]

def quote (field : List Char) : List Char :=
  '"' :: field.flatMap escape ++ ['"']

/-- The texts that a field may be written as. -/
inductive SpellsField : List Char → List Char → Prop
  | quoted (field : List Char) : SpellsField field (quote field)
  | bare {field : List Char} (h : IsBare field) : SpellsField field field

inductive SpellsRow : List (List Char) → List Char → Prop
  | last {field text : List Char} (h : SpellsField field text) : SpellsRow [field] text
  | cons {field text line : List Char} {row : List (List Char)} (h : SpellsField field text)
      (hrow : SpellsRow row line) : SpellsRow (field :: row) (text ++ ',' :: line)

/-- The texts that rows may be written as. Each line has its own end. -/
inductive SpellsRows : List (List (List Char)) → List Char → Prop
  | nil : SpellsRows [] []
  | cons {row : List (List Char)} {line ending text : List Char} {table : List (List (List Char))}
      (hrow : SpellsRow row line) (hending : ending = ['\n'] ∨ ending = ['\r', '\n'])
      (htable : SpellsRows table text) : SpellsRows (row :: table) (line ++ ending ++ text)

variable {field : Field} {s text line ending rest : List Char} {row : List (List Char)}
  {table : List (List (List Char))}

theorem IsBare.of_forall (h : ∀ c ∈ s, c ≠ ',' ∧ c ≠ '"' ∧ Text.isBlank c = false) : IsBare s where
  comma hc := (h _ hc).1 rfl
  quote hc := (h _ hc).2.1 rfl
  first c hc := (h c (List.mem_of_mem_head? hc)).2.2
  last c hc := (h c (List.mem_of_getLast? hc)).2.2

theorem fieldsFrom_comma :
    fieldsFrom false field (',' :: rest) = field.finish :: fieldsFrom false {} rest := by
  simp [fieldsFrom]

theorem fieldsFrom_cons {inside : Bool} {c : Char} (hquote : c ≠ '"')
    (hcomma : c = ',' → inside = true) :
    fieldsFrom inside field (c :: rest) = fieldsFrom inside (field.push c) rest := by
  rw [fieldsFrom.eq_def]
  split
  · contradiction
  · next heq => exact absurd (List.head_eq_of_cons_eq heq) hquote
  · next heq =>
    obtain ⟨rfl, rfl⟩ := List.cons.inj heq
    rw [if_neg]
    rintro ⟨hc, hinside⟩
    simp [hcomma hc] at hinside

theorem fieldsFrom_open :
    fieldsFrom false field ('"' :: rest) = fieldsFrom true { field with quoted := true } rest := by
  rw [fieldsFrom.eq_def]
  exact if_neg Bool.false_ne_true

theorem fieldsFrom_append (hcomma : ',' ∉ s) (hquote : '"' ∉ s) :
    fieldsFrom false field (s ++ rest) =
      fieldsFrom false { field with reversed := s.reverse ++ field.reversed } rest := by
  induction s generalizing field with
  | nil => rfl
  | cons c s ih =>
    simp only [List.mem_cons, not_or] at hcomma hquote
    rw [List.cons_append, fieldsFrom_cons (Ne.symm hquote.1) (fun hc => absurd hc.symm hcomma.1),
      ih hcomma.2 hquote.2]
    simp [Field.push]

theorem fieldsFrom_escape (s : List Char) :
    fieldsFrom true field (s.flatMap escape ++ rest) =
      fieldsFrom true { field with reversed := s.reverse ++ field.reversed } rest := by
  induction s generalizing field with
  | nil => rfl
  | cons c s ih =>
    have hpush : fieldsFrom true field (escape c ++ (s.flatMap escape ++ rest)) =
        fieldsFrom true (field.push c) (s.flatMap escape ++ rest) := by
      by_cases hc : c = '"'
      · simp [escape, hc, fieldsFrom]
      · rw [escape, if_neg hc, List.singleton_append, fieldsFrom_cons hc fun _ => rfl]
    rw [List.flatMap_cons, List.append_assoc, hpush, ih]
    simp [Field.push]

/-- A quoted field ends at its last quote, as none follows. -/
theorem fieldsFrom_quote (s : List Char) (hrest : rest.head? ≠ some '"') :
    fieldsFrom false {} (quote s ++ rest) = fieldsFrom false ⟨s.reverse, true⟩ rest := by
  rw [quote, List.append_assoc, List.singleton_append, List.cons_append, fieldsFrom_open,
    fieldsFrom_escape, List.append_nil]
  cases rest with
  | nil => rfl
  | cons c rest =>
    rw [fieldsFrom, if_pos rfl]
    intro _ hc
    simp [hc] at hrest

/-- A written field is read up to its end, whatever follows but a quote, and is the field then. -/
theorem SpellsField.exists_field (h : SpellsField s text) :
    ∃ field : Field, field.finish = s ∧ ∀ rest : List Char, rest.head? ≠ some '"' →
      fieldsFrom false {} (text ++ rest) = fieldsFrom false field rest := by
  cases h with
  | quoted => exact ⟨⟨s.reverse, true⟩, s.reverse_reverse, fun _ => fieldsFrom_quote s⟩
  | bare h =>
    refine ⟨⟨s.reverse, false⟩, ?_, ?_⟩
    · rw [Field.finish, if_neg Bool.false_ne_true, List.reverse_reverse,
        Text.trim_eq_self h.first h.last]
    · intro rest _
      rw [fieldsFrom_append h.comma h.quote, List.append_nil]

theorem SpellsRow.fields_eq (h : SpellsRow row line) : fields line = row := by
  induction h with
  | last h =>
    obtain ⟨field, hfinish, hread⟩ := h.exists_field
    have hall := hread [] (by simp)
    rw [List.append_nil] at hall
    rw [fields, hall, fieldsFrom, hfinish]
  | cons h _ ih =>
    obtain ⟨field, hfinish, hread⟩ := h.exists_field
    rw [fields, hread _ (by simp), fieldsFrom_comma, hfinish, ← fields, ih]

theorem SpellsField.mem {c : Char} (h : SpellsField s text) (hc : c ∈ text) : c ∈ s ∨ c = '"' := by
  cases h with
  | bare => exact .inl hc
  | quoted =>
    simp only [quote, List.cons_append, List.mem_cons, List.mem_append, List.mem_flatMap,
      List.not_mem_nil, or_false] at hc
    rcases hc with hc | ⟨d, hd, hc⟩ | hc
    · exact .inr hc
    · rw [escape] at hc
      split at hc
      · exact .inr (by simpa using hc)
      · exact .inl (List.mem_singleton.1 hc ▸ hd)
    · exact .inr hc

theorem SpellsRow.not_mem_newline (h : SpellsRow row line) (hrow : ∀ s ∈ row, '\n' ∉ s) :
    '\n' ∉ line := by
  have not_mem {s text : List Char} (h : SpellsField s text) (hs : '\n' ∉ s) : '\n' ∉ text :=
    fun hmem => (h.mem hmem).elim hs (by decide)
  induction h with
  | last h => exact not_mem h (hrow _ (List.mem_singleton_self _))
  | cons h _ ih =>
    obtain ⟨hs, hrow⟩ := List.forall_mem_cons.1 hrow
    simp [not_mem h hs, ih hrow]

theorem SpellsField.getLast?_ne_return (h : SpellsField s text) : text.getLast? ≠ some '\r' := by
  cases h with
  | quoted =>
    rw [quote, List.getLast?_concat]
    decide
  | bare h =>
    intro hlast
    have := h.last '\r' hlast
    contradiction

theorem SpellsRow.getLast?_ne_return (h : SpellsRow row line) : line.getLast? ≠ some '\r' := by
  induction h with
  | last h => exact h.getLast?_ne_return
  | @cons _ _ line _ _ _ ih =>
    cases line with
    | nil => simp
    | cons c line => rwa [List.getLast?_append_cons, List.getLast?_cons_cons]

theorem lines_append (hline : '\n' ∉ line) :
    lines (line ++ '\n' :: rest) = dropReturn line :: lines rest := by
  have hkeep : ∀ c ∈ line, decide (c ≠ '\n') = true :=
    fun c hc => decide_eq_true fun h => hline (h ▸ hc)
  have hdrop : (line ++ '\n' :: rest).dropWhile (· ≠ '\n') = '\n' :: rest := by
    rw [List.dropWhile_append_of_pos hkeep, List.dropWhile_cons_of_neg (by simp)]
  have htake : (line ++ '\n' :: rest).takeWhile (· ≠ '\n') = line := by
    rw [List.takeWhile_append_of_pos hkeep, List.takeWhile_cons_of_neg (by simp), List.append_nil]
  rw [lines]
  split
  · next heq =>
    rw [hdrop] at heq
    contradiction
  · next heq =>
    rw [hdrop] at heq
    obtain ⟨-, rfl⟩ := List.cons.inj heq
    rw [htake]

theorem lines_nil : lines [] = [] := by
  rw [lines]
  rfl

/-- A line is read without its end, whichever of the two that is. -/
theorem SpellsRow.lines_append_ending (h : SpellsRow row line) (hrow : ∀ s ∈ row, '\n' ∉ s)
    (hending : ending = ['\n'] ∨ ending = ['\r', '\n']) :
    lines (line ++ ending ++ rest) = line :: lines rest := by
  have hline := h.not_mem_newline hrow
  rcases hending with rfl | rfl
  · rw [List.append_assoc, List.singleton_append, lines_append hline, dropReturn,
      if_neg h.getLast?_ne_return]
  · have hreturn : dropReturn (line ++ ['\r']) = line := by simp [dropReturn]
    have hsplit : line ++ ['\r', '\n'] ++ rest = line ++ ['\r'] ++ '\n' :: rest := by simp
    rw [hsplit, lines_append (by simpa using hline), hreturn]

/-- Rows are read back as they were, however each field and each end of a line was written. -/
theorem SpellsRows.rows_eq (h : SpellsRows table text)
    (htable : ∀ row ∈ table, ∀ s ∈ row, '\n' ∉ s) : rows text = table := by
  induction h with
  | nil => rw [rows, lines_nil, List.map_nil]
  | cons hrow hending _ ih =>
    obtain ⟨hfields, htable⟩ := List.forall_mem_cons.1 htable
    rw [rows, hrow.lines_append_ending hfields hending, List.map_cons, hrow.fields_eq, ← rows,
      ih htable]

/-- A row of bare fields may be written without quotes. -/
theorem SpellsRow.intercalate (hne : row ≠ []) (hrow : ∀ s ∈ row, IsBare s) :
    SpellsRow row ([','].intercalate row) := by
  induction row with
  | nil => contradiction
  | cons s row ih =>
    obtain ⟨hs, hrow⟩ := List.forall_mem_cons.1 hrow
    cases row with
    | nil => exact List.intercalate_singleton ▸ .last (.bare hs)
    | cons t row =>
      rw [List.intercalate_cons_cons, List.append_assoc]
      exact .cons (.bare hs) (ih (List.cons_ne_nil t row) hrow)

theorem lines_write
    (htable : ∀ row ∈ table, row ≠ [] ∧ ∀ s ∈ row, IsBare s ∧ '\n' ∉ s) :
    lines (write table) = table.map [','].intercalate := by
  induction table with
  | nil => exact lines_nil
  | cons row table ih =>
    obtain ⟨⟨hne, hrow⟩, htable⟩ := List.forall_mem_cons.1 htable
    have hspells := SpellsRow.intercalate hne fun s hs => (hrow s hs).1
    rw [write, List.flatMap_cons, ← write,
      hspells.lines_append_ending (fun s hs => (hrow s hs).2) (.inl rfl), ih htable, List.map_cons]

theorem rows_write
    (htable : ∀ row ∈ table, row ≠ [] ∧ ∀ s ∈ row, IsBare s ∧ '\n' ∉ s) :
    rows (write table) = table := by
  rw [rows, lines_write htable, List.map_map]
  have hread : ∀ row ∈ table, fields ([','].intercalate row) = row := fun row hrow =>
    (SpellsRow.intercalate (htable row hrow).1 fun s hs => ((htable row hrow).2 s hs).1).fields_eq
  exact (List.map_congr_left hread).trans (List.map_id table)

end Spreadsheet.Csv
