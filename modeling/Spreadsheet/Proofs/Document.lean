import Spreadsheet.Document
import Spreadsheet.Proofs.Csv
import Spreadsheet.Proofs.Except

namespace Spreadsheet

theorem Csv.decodeRows_toUTF8 (text : List Char) :
    Csv.decodeRows (String.ofList text).toUTF8 = .ok (Csv.rows text) := by
  have hvalid : (String.ofList text).toUTF8.IsValidUTF8 := (String.ofList text).isValidUTF8
  rw [Csv.decodeRows, String.fromUTF8?, dif_pos hvalid]
  exact congrArg (Except.ok ∘ Csv.rows) String.toList_ofList

theorem Document.result_ofBytes_toUTF8 (text : List Char) :
    (Document.ofBytes (String.ofList text).toUTF8).result =
      ((Sheet.ofRows (Csv.rows text)).map fun sheet => { sheet }).mapError .load := by
  simp only [Document.ofBytes, Csv.decodeRows_toUTF8]
  cases Sheet.ofRows (Csv.rows text) <;> rfl

theorem Document.ofBytes_toUTF8_eq_ok_iff {text : List Char} {document : Document} :
    (Document.ofBytes (String.ofList text).toUTF8).result = .ok document ↔
      ∃ sheet, Sheet.ofRows (Csv.rows text) = .ok sheet ∧ { sheet } = document := by
  rw [Document.result_ofBytes_toUTF8, mapError_eq_ok_iff, map_eq_ok_iff]

/-- Written rows are read as they were and make the sheet that they make unwritten, whichever
fields were put between quotes and however each line was ended. -/
theorem written_rows_load {table : List (List (List Char))} {text : List Char}
    (hwritten : Csv.SpellsRows table text) (htable : ∀ row ∈ table, ∀ s ∈ row, '\n' ∉ s) :
    Csv.decodeRows (String.ofList text).toUTF8 = .ok table ∧
      (Document.ofBytes (String.ofList text).toUTF8).result =
        ((Sheet.ofRows table).map fun sheet => { sheet }).mapError .load := by
  have hrows : Csv.rows text = table := hwritten.rows_eq htable
  rw [Csv.decodeRows_toUTF8, Document.result_ofBytes_toUTF8, hrows]
  exact ⟨rfl, rfl⟩

/-- Quotes, commas, carriage returns and blanks inside fields, and both ends of lines. -/
theorem written_rows_load_mixed :
    let table := [["1,5\"".toList, [], "A1 + 2".toList], ["\r".toList, "\"\"".toList, " ".toList]]
    let text := "\"1,5\"\"\",,A1 + 2\r\n\"\r\",\"\"\"\"\"\",\" \"\n".toList
    Csv.SpellsRows table text ∧ (∀ row ∈ table, ∀ s ∈ row, '\n' ∉ s) ∧
      Csv.decodeRows (String.ofList text).toUTF8 = .ok table ∧
      (Document.ofBytes (String.ofList text).toUTF8).result =
        ((Sheet.ofRows table).map fun sheet => { sheet }).mapError .load := by
  intro table text
  have hblank : Csv.IsBare [] := .of_forall (List.forall_mem_nil _)
  have hformula : Csv.IsBare "A1 + 2".toList := by
    refine ⟨by decide, by decide, ?_, ?_⟩ <;> rintro _ ⟨⟩ <;> rfl
  have hfirst : Csv.SpellsRow ["1,5\"".toList, [], "A1 + 2".toList]
      "\"1,5\"\"\",,A1 + 2".toList :=
    .cons (.quoted "1,5\"".toList) (.cons (.bare hblank) (.last (.bare hformula)))
  have hsecond : Csv.SpellsRow ["\r".toList, "\"\"".toList, " ".toList]
      "\"\r\",\"\"\"\"\"\",\" \"".toList :=
    .cons (.quoted "\r".toList) (.cons (.quoted "\"\"".toList) (.last (.quoted " ".toList)))
  have hwritten : Csv.SpellsRows table text :=
    .cons hfirst (.inr rfl) (.cons hsecond (.inl rfl) .nil)
  have htable : ∀ row ∈ table, ∀ s ∈ row, '\n' ∉ s := by decide
  exact ⟨hwritten, htable, written_rows_load hwritten htable⟩

end Spreadsheet
