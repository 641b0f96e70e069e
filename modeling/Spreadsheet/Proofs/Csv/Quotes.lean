import Mathlib.Data.List.Infix
import Mathlib.Data.List.TakeWhile
import Spreadsheet.Proofs.Csv

/-! The fields of a line told by counting quotes. The line may be written in any way: quotes may
stand in the middle of a field, and the last one may never be closed. -/
namespace Spreadsheet.Csv

/-- Each character of a text with the number of quotes before it, when `n` quotes stand before the
text. -/
def marked (n : Nat) (s : List Char) : List (Char × Nat) :=
  s.zip (s.inits.map fun before => n + before.count '"')

/-- A comma behind an even number of quotes. -/
def isCut (c : Char × Nat) : Bool :=
  c.1 = ',' && c.2 % 2 = 0

def pieces (n : Nat) (s : List Char) : List (List (Char × Nat)) :=
  (marked n s).splitOnP isCut

/-- How many of `k` quotes in a row remain, when `n` quotes stand before them. An opening quote and
one that closes are dropped, and two others stand for one. -/
def kept (n k : Nat) : Nat :=
  if n % 2 = 0 then (k - 1) / 2 else k / 2

/-- The characters of a piece, with what remains of each run of quotes in the place of the run. -/
def unquote : List (Char × Nat) → List Char
  | [] => []
  | (c, n) :: rest =>
    if c = '"' then
      List.replicate (kept n (1 + (rest.takeWhile (·.1 = '"')).length)) '"' ++
        unquote (rest.dropWhile (·.1 = '"'))
    else c :: unquote rest
termination_by piece => piece.length
decreasing_by
  · have := (rest.dropWhile_sublist (·.1 = '"')).length_le
    rw [List.length_cons]
    omega
  · exact Nat.lt_succ_self _

def fieldOf (piece : List (Char × Nat)) : List Char :=
  if '"' ∈ piece.map Prod.fst then unquote piece else Text.trim (piece.map Prod.fst)

def Field.finishWith (field : Field) (piece : List (Char × Nat)) : List Char :=
  if field.quoted ∨ '"' ∈ piece.map Prod.fst then field.reversed.reverse ++ unquote piece
  else Text.trim (field.reversed.reverse ++ piece.map Prod.fst)

section Counting

variable {n k : Nat} {c : Char} {s : List Char} {piece : List (Char × Nat)} {field : Field}

theorem marked_cons (n : Nat) (c : Char) (s : List Char) :
    marked n (c :: s) = (c, n) :: marked (n + if c = '"' then 1 else 0) s := by
  simp only [marked, List.inits_cons, List.map_cons, List.zip_cons_cons, List.map_map,
    Function.comp_def, List.count_nil, List.count_cons, Nat.add_zero, beq_iff_eq]
  congr 3
  funext before
  omega

theorem marked_append (n : Nat) (s t : List Char) :
    marked n (s ++ t) = marked n s ++ marked (n + s.count '"') t := by
  induction s generalizing n with
  | nil => rfl
  | cons c s ih =>
    rw [List.cons_append, marked_cons, marked_cons, ih, List.cons_append]
    simp only [List.count_cons, beq_iff_eq]
    congr 3
    omega

theorem map_fst_marked (n : Nat) (s : List Char) : (marked n s).map Prod.fst = s :=
  List.map_fst_zip (by simp [List.length_inits])

theorem fst_of_mem_marked_run {c : Char × Nat} (hc : c ∈ marked n (List.replicate k '"')) :
    c.1 = '"' := by
  have hmem := List.mem_map_of_mem (f := Prod.fst) hc
  rw [map_fst_marked] at hmem
  exact List.eq_of_mem_replicate hmem

theorem unquote_cons (hc : c ≠ '"') : unquote ((c, n) :: piece) = c :: unquote piece := by
  rw [unquote, if_neg hc]

theorem unquote_run (hpiece : (piece.map Prod.fst).head? ≠ some '"') :
    unquote (marked n (List.replicate (k + 1) '"') ++ piece) =
      List.replicate (kept n (k + 1)) '"' ++ unquote piece := by
  have hrun : ∀ c ∈ marked (n + 1) (List.replicate k '"'), decide (c.1 = '"') = true :=
    fun c hc => decide_eq_true (fst_of_mem_marked_run hc)
  have hlength : (marked (n + 1) (List.replicate k '"')).length = k := by
    have := congrArg List.length (map_fst_marked (n + 1) (List.replicate k '"'))
    simpa using this
  have hstop : piece.takeWhile (·.1 = '"') = [] ∧ piece.dropWhile (·.1 = '"') = piece := by
    cases piece with
    | nil => exact ⟨rfl, rfl⟩
    | cons c piece =>
      have hc : ¬ decide (c.1 = '"') = true := by simpa using hpiece
      exact ⟨List.takeWhile_cons_of_neg hc, List.dropWhile_cons_of_neg hc⟩
  rw [List.replicate_succ, marked_cons, if_pos rfl, List.cons_append, unquote, if_pos rfl,
    List.takeWhile_append_of_pos hrun, List.dropWhile_append_of_pos hrun, hstop.1, hstop.2,
    List.append_nil, hlength, Nat.add_comm 1 k]

theorem pieces_cut (hn : n % 2 = 0) : pieces n (',' :: s) = [] :: pieces n s := by
  rw [pieces, marked_cons, List.splitOnP_cons_eq_if_modifyHead, if_pos (by simp [isCut, hn])]
  rfl

theorem pieces_append {t : List Char} (hs : ∀ c ∈ marked n s, isCut c = false) :
    pieces n (s ++ t) =
      (pieces (n + s.count '"') t).modifyHead (marked n s ++ ·) := by
  rw [pieces, marked_append, pieces]
  generalize marked n s = run at hs
  induction run with
  | nil => exact congrFun List.modifyHead_id.symm _
  | cons c run ih =>
    obtain ⟨hc, hrun⟩ := List.forall_mem_cons.1 hs
    rw [List.cons_append, List.splitOnP_cons_eq_if_modifyHead, if_neg (by simp [hc]), ih hrun,
      List.modifyHead_modifyHead]
    rfl

/-- Inside quotes, two quotes stand for one, and a single one closes. -/
theorem fieldsFrom_quotes (hs : s.head? ≠ some '"') :
    ∀ (k : Nat) (field : Field), fieldsFrom true field (List.replicate k '"' ++ s) =
      fieldsFrom (k % 2 = 0)
        { field with reversed := List.replicate (k / 2) '"' ++ field.reversed } s
  | 0, _ => rfl
  | 1, field => by
    show fieldsFrom true field ('"' :: s) = fieldsFrom false field s
    rw [fieldsFrom, if_pos rfl]
    intro rest heq
    simp [heq] at hs
  | k + 2, field => by
    have hpair : fieldsFrom true field (List.replicate (k + 2) '"' ++ s) =
        fieldsFrom true (field.push '"') (List.replicate k '"' ++ s) := by
      simp [List.replicate_succ, fieldsFrom]
    have hkept : List.replicate (k / 2) '"' ++ (field.push '"').reversed =
        List.replicate ((k + 2) / 2) '"' ++ field.reversed := by
      rw [Nat.add_div_right k Nat.two_pos, List.replicate_succ', Field.push, List.append_assoc]
      rfl
    rw [hpair, fieldsFrom_quotes hs k (field.push '"'), hkept, Nat.add_mod_right]
    rfl

/-- A run of quotes, from where `n` quotes were read before. Outside of quotes its first one
opens. -/
theorem fieldsFrom_run (hs : s.head? ≠ some '"') (hopen : n % 2 = 1 → field.quoted = true) :
    fieldsFrom (n % 2 = 1) field (List.replicate (k + 1) '"' ++ s) =
      fieldsFrom ((n + (k + 1)) % 2 = 1)
        ⟨List.replicate (kept n (k + 1)) '"' ++ field.reversed, true⟩ s := by
  rcases Nat.mod_two_eq_zero_or_one n with hn | hn
  · have hinside : (k % 2 = 0) = ((n + (k + 1)) % 2 = 1) := by
      apply propext
      omega
    rw [List.replicate_succ, List.cons_append]
    simp only [hn, Nat.zero_ne_one, decide_false, kept, if_true, Nat.add_sub_cancel]
    rw [fieldsFrom_open, fieldsFrom_quotes hs]
    simp only [hinside]
  · have hinside : ((k + 1) % 2 = 0) = ((n + (k + 1)) % 2 = 1) := by
      apply propext
      omega
    simp only [hn, decide_true, kept, Nat.one_ne_zero, if_false]
    rw [fieldsFrom_quotes hs, hopen hn]
    simp only [hinside]

/-- Induction along a text, with the quotes of a run taken all at once. -/
theorem runs_induction {motive : List Char → Prop} (nil : motive [])
    (char : ∀ c s, c ≠ '"' → motive s → motive (c :: s))
    (run : ∀ k s, s.head? ≠ some '"' → motive s → motive (List.replicate (k + 1) '"' ++ s))
    (s : List Char) : motive s := by
  induction hlength : s.length using Nat.strong_induction_on generalizing s with
  | _ length ih =>
    subst hlength
    cases s with
    | nil => exact nil
    | cons c s =>
      by_cases hc : c = '"'
      · subst hc
        have hsplit := List.takeWhile_append_dropWhile (p := (· = '"')) (l := s)
        have hrun : s.takeWhile (· = '"') = List.replicate (s.takeWhile (· = '"')).length '"' :=
          List.eq_replicate_of_mem fun c hc => by simpa using List.mem_takeWhile_imp hc
        have hstop : (s.dropWhile (· = '"')).head? ≠ some '"' := by
          intro h
          have := List.head?_dropWhile_not (· = '"') s
          rw [h] at this
          simp at this
        have hshort := (s.dropWhile_sublist (· = '"')).length_le
        have := run (s.takeWhile (· = '"')).length _ hstop
          (ih _ (Nat.lt_succ_of_le hshort) _ rfl)
        rwa [List.replicate_succ, ← hrun, List.cons_append, hsplit] at this
      · exact char c s hc (ih _ (Nat.lt_succ_self _) s rfl)

theorem finishWith_nil : field.finishWith [] = field.finish := by
  simp [Field.finishWith, Field.finish, unquote]

theorem finishWith_empty : Field.finishWith {} piece = fieldOf piece := by
  simp only [Field.finishWith, fieldOf, Bool.false_eq_true, false_or, List.reverse_nil,
    List.nil_append]

theorem finishWith_cons (hc : c ≠ '"') :
    field.finishWith ((c, n) :: piece) = (field.push c).finishWith piece := by
  have hquote : '"' ∈ c :: piece.map Prod.fst ↔ '"' ∈ piece.map Prod.fst := by
    rw [List.mem_cons, or_iff_right (Ne.symm hc)]
  simp only [Field.finishWith, Field.push, hquote, unquote_cons hc, List.reverse_cons,
    List.append_assoc, List.singleton_append, List.map_cons]

theorem finishWith_run (hpiece : (piece.map Prod.fst).head? ≠ some '"') :
    field.finishWith (marked n (List.replicate (k + 1) '"') ++ piece) =
      Field.finishWith ⟨List.replicate (kept n (k + 1)) '"' ++ field.reversed, true⟩ piece := by
  have hquote : '"' ∈ (marked n (List.replicate (k + 1) '"') ++ piece).map Prod.fst := by
    simp [map_fst_marked]
  rw [Field.finishWith, if_pos (.inr hquote), unquote_run hpiece, Field.finishWith,
    if_pos (.inl rfl)]
  simp

/-- The scanner is inside quotes where an odd number of them was read. It reads the first piece into
the field that it has begun, and each other piece as a field. -/
theorem fieldsFrom_eq (s : List Char) (n : Nat) (field : Field)
    (hopen : n % 2 = 1 → field.quoted = true) :
    ∃ piece more, pieces n s = piece :: more ∧
      (∀ c, (piece.map Prod.fst).head? = some c → s.head? = some c) ∧
      fieldsFrom (n % 2 = 1) field s = field.finishWith piece :: more.map fieldOf := by
  induction s using runs_induction generalizing n field with
  | nil => exact ⟨[], [], rfl, nofun, by rw [finishWith_nil]; rfl⟩
  | char c s hc ih =>
    by_cases hcut : isCut (c, n) = true
    · obtain ⟨rfl, hn⟩ : c = ',' ∧ n % 2 = 0 := by simpa [isCut] using hcut
      obtain ⟨piece, more, hpieces, -, hread⟩ := ih n {} (by simp [hn])
      refine ⟨[], piece :: more, by rw [pieces_cut hn, hpieces], nofun, ?_⟩
      simp only [hn, Nat.zero_ne_one, decide_false] at hread ⊢
      rw [fieldsFrom_comma, hread, finishWith_nil, finishWith_empty]
      rfl
    · obtain ⟨piece, more, hpieces, -, hread⟩ := ih n (field.push c) hopen
      have hcomma : c = ',' → decide (n % 2 = 1) = true := by
        rintro rfl
        simpa [isCut] using hcut
      have happend := pieces_append (n := n) (s := [c]) (t := s) (by simpa [marked] using hcut)
      refine ⟨(c, n) :: piece, more, ?_, fun d hd => hd, ?_⟩
      · simpa [marked, hc, hpieces] using happend
      · rw [fieldsFrom_cons hc hcomma, hread, finishWith_cons hc]
  | run k s hs ih =>
    obtain ⟨piece, more, hpieces, hhead, hread⟩ :=
      ih (n + (k + 1)) ⟨List.replicate (kept n (k + 1)) '"' ++ field.reversed, true⟩ fun _ => rfl
    have hcut : ∀ c ∈ marked n (List.replicate (k + 1) '"'), isCut c = false := by
      intro c hc
      simp [isCut, fst_of_mem_marked_run hc]
    have hpiece : (piece.map Prod.fst).head? ≠ some '"' := fun h => hs (hhead _ h)
    refine ⟨marked n (List.replicate (k + 1) '"') ++ piece, more, ?_, ?_, ?_⟩
    · rw [pieces_append hcut, List.count_replicate_self, hpieces]
      rfl
    · intro c hc
      rw [List.replicate_succ, marked_cons] at hc
      exact hc
    · rw [fieldsFrom_run hs hopen, hread, finishWith_run hpiece]

theorem length_splitOnP {α : Type} (p : α → Bool) (l : List α) :
    (l.splitOnP p).length = 1 + l.countP p := by
  induction l with
  | nil => rfl
  | cons a l ih =>
    rw [List.splitOnP_cons_eq_if_modifyHead, List.countP_cons]
    split
    · rw [List.length_cons, ih, Nat.add_assoc]
    · rw [List.length_modifyHead, ih, Nat.add_zero]

end Counting

/-- The fields of any line are the pieces between the commas with an even number of quotes before
them, so there is one field more than there are such commas. A piece without a quote is trimmed. In
any other piece blanks count, and of each run of quotes there remain as many as it stands for. -/
theorem fields_eq_pieces (line : List Char) :
    fields line = (pieces 0 line).map fieldOf ∧
      (fields line).length = 1 + (marked 0 line).countP isCut := by
  obtain ⟨piece, more, hpieces, -, hread⟩ := fieldsFrom_eq line 0 {} (by simp)
  have hfields : fields line = (pieces 0 line).map fieldOf := by
    rw [hpieces, List.map_cons, ← finishWith_empty]
    exact hread
  refine ⟨hfields, ?_⟩
  rw [hfields, List.length_map, pieces, length_splitOnP]

example : (pieces 0 "a \"\"\",b\", c".toList).map fieldOf = ["a \",b".toList, "c".toList] := by
  decide +kernel

end Spreadsheet.Csv
