import Spreadsheet.Proofs.Document
import Spreadsheet.Proofs.Sheet.Render
import Spreadsheet.Proofs.Sheet.Rows

namespace Spreadsheet

namespace Sheet

variable {sheet loaded : Sheet} {policy : Policy} {places : Nat}

theorem isGrid_table {α : Type} (g : Address → α) :
    IsGrid sheet.columnCount 1 (sheet.table g) where
  width_le := sheet.columnCount_le
  one_le_row := Nat.le_refl 1
  row_le := by
    have := sheet.rowCount_le
    rw [length_table]
    omega
  length_eq := fun _ => length_of_mem_table

theorem mapM_readRow_table (text : Address → List Char) :
    (sheet.table text).mapM readRow =
      sheet.block.mapM (List.mapM fun a => (Formula.parse (text a)).mapError .malformed) := by
  have hrow (row : List Address) : readRow (row.map text) =
      row.mapM fun a => (Formula.parse (text a)).mapError .malformed := by
    rw [readRow, List.mapM_map, mapM_mapError]
    rfl
  rw [table, List.mapM_map]
  exact congrArg (sheet.block.mapM ·) (funext hrow)

/-- A block of texts makes a sheet if all of them can be read, and then of what they say. -/
theorem ofRows_table_eq_ok_iff {text : Address → List Char} :
    ofRows (sheet.table text) = .ok loaded ↔
      ∃ formula : Address → Formula,
        (∀ a, sheet.covers a = true → Formula.parse (text a) = .ok (formula a)) ∧
          (∅ : Sheet).insertRows 1 (sheet.table formula) = loaded := by
  rw [ofRows_eq (isGrid_table text), mapM_readRow_table]
  simp only [map_eq_ok_iff, mapM_block_eq_ok_iff, mapError_eq_ok_iff]
  constructor
  · rintro ⟨_, ⟨formula, hformula, rfl⟩, rfl⟩
    exact ⟨formula, hformula, rfl⟩
  · rintro ⟨formula, hformula, rfl⟩
    exact ⟨_, ⟨formula, hformula, rfl⟩, rfl⟩

theorem corner_insertRows_table (formula : Address → Formula) :
    ((∅ : Sheet).insertRows 1 (sheet.table formula)).corner = sheet.corner := by
  rw [corner_insertRows (isGrid_table formula), length_table, ← corner_eq]

theorem find?_insertRows_table (formula : Address → Formula) {a : Address}
    (ha : sheet.covers a = true) :
    ((∅ : Sheet).insertRows 1 (sheet.table formula)).find? a = some (formula a) := by
  rw [find?_insertRows ∅ (isGrid_table formula), if_pos a.one_le_row, getElem?_table ha]
  rfl

/-- Empty text apart, a field that can be read is what is printed of the cell's value. -/
theorem forall_value_iff_of_read {p : List Char → Prop} {a : Address} {text : List Char}
    (hempty : p []) (hread : sheet.read policy places a = .ok text) :
    p text ↔ ∀ x, sheet.get a = .ok x → p (Decimal.fixed places x) := by
  rcases read_eq_ok_iff.1 hread with ⟨-, -, hblank, rfl⟩ | ⟨x, hx, rfl⟩
  · exact iff_of_true hempty fun x hx => absurd hx (get_ne_ok_of_blank hblank x)
  · rw [hx]
    exact ⟨fun h y hy => Except.ok.inj hy ▸ h, fun h => h x rfl⟩

/-- A printed field can be read as cell text unless it is that of an infinity or of NaN. -/
theorem exists_parse_iff_of_read {a : Address} {text : List Char} (hplaces : 1 ≤ places)
    (hread : sheet.read policy places a = .ok text) :
    (∃ f, Formula.parse text = .ok f) ↔ ∀ x, sheet.get a = .ok x → x.isFinite = true := by
  simp only [← Decimal.exists_parse_fixed_iff hplaces]
  exact forall_value_iff_of_read (p := fun s => ∃ f, Formula.parse s = .ok f)
    ⟨_, Formula.parse_nil⟩ hread

/-- A cell that holds what was printed of another prints the same. -/
theorem read_of_parse {a b : Address} {text : List Char} {f : Formula} (hplaces : 1 ≤ places)
    (hread : sheet.read policy places a = .ok text) (hparse : Formula.parse text = .ok f)
    (hcovers : loaded.covers b = true) (hfind : loaded.find? b = some f) :
    loaded.read policy places b = .ok text := by
  have hfinite := (exists_parse_iff_of_read hplaces hread).1 ⟨f, hparse⟩
  rcases read_eq_ok_iff.1 hread with ⟨hpolicy, -, -, rfl⟩ | ⟨x, hx, rfl⟩
  · rw [Formula.parse_nil] at hparse
    obtain rfl := Except.ok.inj hparse
    exact read_eq_ok_iff.2 (.inl ⟨hpolicy, hcovers, by rw [hfind]; rfl, rfl⟩)
  · have hx := (Binary64.isFinite_iff x).1 (hfinite x hx)
    rw [Decimal.parse_fixed_of_finite hplaces hx] at hparse
    obtain rfl := Except.ok.inj hparse
    have hget : loaded.get b = .ok (Decimal.written places x) :=
      get_eq_ok_iff.2 ⟨hcovers, _, hfind, by rw [value, eval_number]; rfl⟩
    exact read_eq_ok_iff.2 (.inr ⟨_, hget, Decimal.fixed_written hx⟩)

end Sheet

/-- What is printed of a sheet with at least one decimal can be loaded exactly if no cell of it
evaluates to an infinity or to NaN. Then the loaded sheet has the same extent, and prints to the
same text. -/
theorem printed_reloads (sheet : Sheet) (policy : Policy) {places : Nat} (hplaces : 1 ≤ places)
    {printed : List Char} (hprinted : sheet.render policy places = .ok printed) :
    ((∃ document, (Document.ofBytes (String.ofList printed).toUTF8).result = .ok document) ↔
      ∀ a x, sheet.get a = .ok x → x.isFinite = true) ∧
    ∀ document, (Document.ofBytes (String.ofList printed).toUTF8).result = .ok document →
      document.sheet.rowCount = sheet.rowCount ∧
      document.sheet.columnCount = sheet.columnCount ∧
      document.sheet.render policy places = .ok printed := by
  obtain ⟨text, hread, rfl⟩ := Sheet.render_eq_ok_iff.1 hprinted
  have hrows : Csv.rows (Csv.write (sheet.table text)) = sheet.table text :=
    Csv.rows_write (Sheet.isBare_of_mem_table hread)
  simp only [Document.ofBytes_toUTF8_eq_ok_iff, hrows, Sheet.ofRows_table_eq_ok_iff]
  constructor
  · constructor
    · rintro ⟨-, -, ⟨formula, hformula, -⟩, -⟩ a x hx
      have ha : sheet.covers a = true := (Sheet.get_eq_ok_iff.1 hx).1
      exact (Sheet.exists_parse_iff_of_read hplaces (hread a ha)).1 ⟨_, hformula a ha⟩ x hx
    · intro hfinite
      have hall : ∀ a, sheet.covers a = true → ∃ f, Formula.parse (text a) = .ok f := by
        intro a ha
        exact (Sheet.exists_parse_iff_of_read hplaces (hread a ha)).2 (hfinite a)
      choose! formula hformula using hall
      exact ⟨_, _, ⟨formula, hformula, rfl⟩, rfl⟩
  · rintro - ⟨-, ⟨formula, hformula, rfl⟩, rfl⟩
    have hcorner := sheet.corner_insertRows_table formula
    refine ⟨Sheet.rowCount_congr hcorner, Sheet.columnCount_congr hcorner, ?_⟩
    rw [Sheet.render_eq_ok_iff]
    refine ⟨text, ?_, by rw [Sheet.table_congr hcorner.symm]⟩
    intro a ha
    have hcovers : sheet.covers a = true := by rwa [← Sheet.covers_congr hcorner]
    exact Sheet.read_of_parse hplaces (hread a hcovers) (hformula a hcovers) ha
      (Sheet.find?_insertRows_table formula hcovers)

/-- A number that rounds to a negative zero prints as one and is loaded as one. -/
theorem printed_reloads_negative_zero :
    let sheet := (∅ : Sheet).insert ⟨1, 1, by decide, by decide, by decide, by decide⟩
      (.number (.float (Binary64.nearest true 1 400)))
    sheet.render .strict 2 = .ok "-0.00\n".toList ∧
      ∃ document, (Document.ofBytes "-0.00\n".toUTF8).result = .ok document ∧
        document.sheet.render .strict 2 = .ok "-0.00\n".toList := by
  intro sheet
  have hfind (a : Address) (ha : sheet.covers a = true) :
      sheet.find? a = some (.number (.float (Binary64.nearest true 1 400))) := by
    have hcell : a.row ≤ 1 ∧ a.column ≤ 1 := Sheet.covers_iff.1 ha
    have hself : Address.at? 1 1 = some a := Address.at?_eq_some_iff.2
      ⟨Nat.le_antisymm hcell.1 a.one_le_row, Nat.le_antisymm hcell.2 a.one_le_column⟩
    obtain rfl := Option.some.inj hself
    exact (Sheet.find?_insert ..).trans (if_pos rfl)
  have hget (a : Address) (ha : sheet.covers a = true) :
      sheet.get a = .ok (Binary64.nearest true 1 400) :=
    Sheet.get_eq_ok_iff.2 ⟨ha, _, hfind a ha, by rw [Sheet.value, Sheet.eval_number]; rfl⟩
  have hfixed : Decimal.fixed 2 (Binary64.nearest true 1 400) = "-0.00".toList := by decide +kernel
  have hprinted : sheet.render .strict 2 = .ok "-0.00\n".toList := by
    refine Sheet.render_eq_ok_iff.2 ⟨fun _ => "-0.00".toList, ?_, by decide⟩
    intro a ha
    exact Sheet.read_eq_ok_iff.2 (.inr ⟨_, hget a ha, hfixed⟩)
  obtain ⟨hloads, hsame⟩ := printed_reloads sheet .strict (by decide) hprinted
  have hfinite : ∀ a x, sheet.get a = .ok x → x.isFinite = true := by
    intro a x hx
    rw [hget a (Sheet.get_eq_ok_iff.1 hx).1] at hx
    obtain rfl := Except.ok.inj hx
    decide +kernel
  obtain ⟨document, hdocument⟩ := hloads.2 hfinite
  exact ⟨hprinted, document, hdocument, (hsame document hdocument).2.2⟩
end Spreadsheet
