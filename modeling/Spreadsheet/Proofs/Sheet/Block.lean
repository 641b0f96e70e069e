import Mathlib.Data.List.Basic
import Spreadsheet.Proofs.Address
import Spreadsheet.Proofs.Except
import Spreadsheet.Sheet

namespace Spreadsheet.Sheet

variable {sheet : Sheet}

theorem mem_keys_iff {a : Address} : a ∈ sheet.cells.keys ↔ sheet.find? a ≠ none := by
  rw [Std.TreeMap.mem_keys, Std.TreeMap.mem_iff_isSome_getElem?, Option.isSome_iff_ne_none]
  rfl

theorem corner_eq (sheet : Sheet) :
    sheet.corner = Address.at? sheet.rowCount sheet.columnCount := by
  rw [rowCount, columnCount]
  cases hc : sheet.corner with
  | none => rfl
  | some c => exact (Address.at?_eq_some_iff.2 ⟨rfl, rfl⟩).symm

theorem rowCount_le (sheet : Sheet) : sheet.rowCount ≤ maxRows := by
  rw [rowCount]
  cases sheet.corner with
  | none => exact Nat.zero_le _
  | some c => exact c.row_le

theorem columnCount_le (sheet : Sheet) : sheet.columnCount ≤ maxColumns := by
  rw [columnCount]
  cases sheet.corner with
  | none => exact Nat.zero_le _
  | some c => exact c.column_le

theorem columnCount_pos (hrow : sheet.rowCount ≠ 0) : 0 < sheet.columnCount := by
  rw [rowCount] at hrow
  rw [columnCount]
  cases hc : sheet.corner with
  | none =>
    rw [hc] at hrow
    exact absurd rfl hrow
  | some c => exact c.one_le_column

theorem rowCount_insert (sheet : Sheet) (a : Address) (f : Formula) :
    (sheet.insert a f).rowCount = max a.row sheet.rowCount := by
  rw [rowCount, rowCount, insert]
  cases sheet.corner with
  | none => exact (Nat.max_eq_left (Nat.zero_le _)).symm
  | some c => rfl

theorem columnCount_insert (sheet : Sheet) (a : Address) (f : Formula) :
    (sheet.insert a f).columnCount = max a.column sheet.columnCount := by
  rw [columnCount, columnCount, insert]
  cases sheet.corner with
  | none => exact (Nat.max_eq_left (Nat.zero_le _)).symm
  | some c => rfl

theorem covers_iff {a : Address} :
    sheet.covers a = true ↔ a.row ≤ sheet.rowCount ∧ a.column ≤ sheet.columnCount := by
  simp [covers]

theorem rowCount_congr {other : Sheet} (h : sheet.corner = other.corner) :
    sheet.rowCount = other.rowCount :=
  congrArg (·.elim 0 Address.row) h

theorem columnCount_congr {other : Sheet} (h : sheet.corner = other.corner) :
    sheet.columnCount = other.columnCount :=
  congrArg (·.elim 0 Address.column) h

theorem covers_congr {other : Sheet} (h : sheet.corner = other.corner) (a : Address) :
    sheet.covers a = other.covers a := by
  rw [covers, covers, rowCount_congr h, columnCount_congr h]

def block (sheet : Sheet) : List (List Address) :=
  (List.range' 1 sheet.rowCount).map sheet.rowAddresses

theorem block_congr {other : Sheet} (h : sheet.corner = other.corner) :
    sheet.block = other.block := by
  have hrows : sheet.rowAddresses = other.rowAddresses := funext fun row => by
    rw [rowAddresses, rowAddresses, columnCount_congr h]
  rw [block, block, hrows, rowCount_congr h]

theorem rowAddresses_map_some {row : Nat} (hrow : 1 ≤ row) (hrow' : row ≤ maxRows) :
    (sheet.rowAddresses row).map some =
      (List.range sheet.columnCount).map fun i => Address.at? row (i + 1) := by
  rw [rowAddresses, List.map_filterMap_some_eq_filter_map_isSome, List.filter_eq_self]
  intro found hfound
  obtain ⟨i, hi, rfl⟩ := List.mem_map.1 hfound
  have hi := List.mem_range.1 hi
  have hcount := sheet.columnCount_le
  obtain ⟨a, ha⟩ := Address.exists_at? hrow hrow' (Nat.le_add_left 1 i) (by omega)
  rw [ha]
  rfl

theorem mem_rowAddresses {row : Nat} {a : Address} :
    a ∈ sheet.rowAddresses row ↔ a.row = row ∧ a.column ≤ sheet.columnCount := by
  have := a.one_le_column
  simp only [rowAddresses, List.mem_filterMap, List.mem_range, Address.at?_eq_some_iff]
  constructor
  · rintro ⟨i, hi, hr, hc⟩
    omega
  · rintro ⟨hr, hc⟩
    exact ⟨a.column - 1, by omega, hr, by omega⟩

theorem length_rowAddresses {row : Nat} (hrow : 1 ≤ row) (hrow' : row ≤ maxRows) :
    (sheet.rowAddresses row).length = sheet.columnCount := by
  have h := congrArg List.length (sheet.rowAddresses_map_some hrow hrow')
  simpa using h

theorem getElem?_rowAddresses {a : Address} (ha : a.column ≤ sheet.columnCount) :
    (sheet.rowAddresses a.row)[a.column - 1]? = some a := by
  have hpos := a.one_le_column
  have hmap := congrArg (·[a.column - 1]?) (sheet.rowAddresses_map_some a.one_le_row a.row_le)
  have hself : Address.at? a.row (a.column - 1 + 1) = some a :=
    Address.at?_eq_some_iff.2 ⟨rfl, by omega⟩
  simp only [List.getElem?_map, List.getElem?_range (show a.column - 1 < sheet.columnCount by omega),
    Option.map_some, hself] at hmap
  obtain ⟨b, hb, heq⟩ := Option.map_eq_some_iff.1 hmap
  rw [hb, heq]

/-- Cells of which the last one, and no other, lies in the last column. -/
def EndsRow (sheet : Sheet) (row : List Address) : Prop :=
  ∃ ahead last, row = ahead ++ [last] ∧ last.column = sheet.columnCount ∧
    ∀ a ∈ ahead, a.column ≠ sheet.columnCount

theorem endsRow_rowAddresses {row : Nat} (hrow : 1 ≤ row) (hrow' : row ≤ sheet.rowCount) :
    sheet.EndsRow (sheet.rowAddresses row) := by
  have hpos : 0 < sheet.columnCount := columnCount_pos (by omega)
  obtain ⟨last, hlast⟩ := Address.exists_at? hrow (Nat.le_trans hrow' sheet.rowCount_le) hpos
    sheet.columnCount_le
  obtain ⟨n, hn⟩ := Nat.exists_eq_add_one.2 hpos
  refine ⟨(List.range n).filterMap fun i => Address.at? row (i + 1), last, ?_,
    (Address.at?_eq_some_iff.1 hlast).2, ?_⟩
  · rw [hn] at hlast
    rw [rowAddresses, hn, List.range_succ, List.filterMap_append]
    simp [hlast]
  · intro a ha
    obtain ⟨i, hi, hat⟩ := List.mem_filterMap.1 ha
    have hcolumn := (Address.at?_eq_some_iff.1 hat).2
    have := List.mem_range.1 hi
    omega

theorem mem_block_iff {row : List Address} :
    row ∈ sheet.block ↔ ∃ r, 1 ≤ r ∧ r ≤ sheet.rowCount ∧ sheet.rowAddresses r = row := by
  simp only [block, List.mem_map, List.mem_range'_1, Nat.add_comm 1, Nat.lt_succ_iff, and_assoc]

theorem covers_of_mem_block {row : List Address} {a : Address} (hrow : row ∈ sheet.block)
    (ha : a ∈ row) : sheet.covers a = true := by
  obtain ⟨r, -, hr, rfl⟩ := mem_block_iff.1 hrow
  obtain ⟨rfl, hcolumn⟩ := mem_rowAddresses.1 ha
  exact covers_iff.2 ⟨hr, hcolumn⟩

theorem exists_mem_block {a : Address} (ha : sheet.covers a = true) :
    ∃ row ∈ sheet.block, a ∈ row := by
  obtain ⟨hrow, hcolumn⟩ := covers_iff.1 ha
  exact ⟨_, mem_block_iff.2 ⟨a.row, a.one_le_row, hrow, rfl⟩, mem_rowAddresses.2 ⟨rfl, hcolumn⟩⟩

theorem flatten_block : sheet.block.flatten = sheet.addresses := rfl

theorem mem_addresses {a : Address} : a ∈ sheet.addresses ↔ sheet.covers a = true := by
  rw [← flatten_block, List.mem_flatten]
  constructor
  · rintro ⟨row, hrow, ha⟩
    exact covers_of_mem_block hrow ha
  · exact exists_mem_block

theorem pairwise_addresses : sheet.addresses.Pairwise Address.Before := by
  rw [← flatten_block, List.pairwise_flatten, block, List.forall_mem_map, List.pairwise_map]
  constructor
  · intro row _
    rw [rowAddresses, List.pairwise_filterMap]
    refine List.pairwise_lt_range.imp ?_
    intro i j hij a ha b hb
    obtain ⟨har, hac⟩ := Address.at?_eq_some_iff.1 ha
    obtain ⟨hbr, hbc⟩ := Address.at?_eq_some_iff.1 hb
    exact .inr ⟨har.trans hbr.symm, by omega⟩
  · refine (List.pairwise_lt_range' 1).imp ?_
    intro i j hij a ha b hb
    rw [(mem_rowAddresses.1 ha).1.symm, (mem_rowAddresses.1 hb).1.symm] at hij
    exact .inl hij

theorem mem_iff_before {ahead behind : List Address} {a b : Address}
    (h : sheet.addresses = ahead ++ a :: behind) :
    b ∈ ahead ↔ sheet.covers b = true ∧ b.Before a := by
  have hsorted := sheet.pairwise_addresses
  rw [h, List.pairwise_append, List.pairwise_cons] at hsorted
  obtain ⟨-, ⟨hbehind, -⟩, hahead⟩ := hsorted
  constructor
  · intro hb
    exact ⟨mem_addresses.1 (h ▸ List.mem_append_left _ hb),
      hahead b hb a (List.mem_cons_self ..)⟩
  · rintro ⟨hcovers, hba⟩
    have hmem := h ▸ mem_addresses.2 hcovers
    rcases List.mem_append.1 hmem with hb | hb
    · exact hb
    · rcases List.mem_cons.1 hb with rfl | hb
      · exact absurd hba hba.asymm
      · exact absurd hba (hbehind b hb).asymm

variable {ε α : Type} {g : Address → α}

def table (sheet : Sheet) (g : Address → α) : List (List α) :=
  sheet.block.map (·.map g)

theorem table_congr {other : Sheet} (h : sheet.corner = other.corner) (g : Address → α) :
    sheet.table g = other.table g := by
  rw [table, table, block_congr h]

theorem length_table : (sheet.table g).length = sheet.rowCount := by
  rw [table, block, List.length_map, List.length_map, List.length_range']

theorem length_of_mem_table {row : List α} (hrow : row ∈ sheet.table g) :
    row.length = sheet.columnCount := by
  obtain ⟨addresses, hmem, rfl⟩ := List.mem_map.1 hrow
  obtain ⟨r, hpos, hle, rfl⟩ := mem_block_iff.1 hmem
  rw [List.length_map, length_rowAddresses hpos (Nat.le_trans hle sheet.rowCount_le)]

theorem ne_nil_of_mem_table {row : List α} (hrow : row ∈ sheet.table g) : row ≠ [] := by
  have hcount : sheet.rowCount ≠ 0 := by
    rw [← length_table (g := g)]
    exact Nat.ne_of_gt (List.length_pos_of_mem hrow)
  exact List.length_pos_iff.1 (by rw [length_of_mem_table hrow]; exact columnCount_pos hcount)

theorem exists_of_mem_table {row : List α} (hrow : row ∈ sheet.table g) {x : α} (hx : x ∈ row) :
    ∃ a, sheet.covers a = true ∧ g a = x := by
  obtain ⟨addresses, hmem, rfl⟩ := List.mem_map.1 hrow
  obtain ⟨a, ha, rfl⟩ := List.mem_map.1 hx
  exact ⟨a, covers_of_mem_block hmem ha, rfl⟩

theorem getElem?_table {a : Address} (ha : sheet.covers a = true) :
    (sheet.table g)[a.row - 1]?.bind (·[a.column - 1]?) = some (g a) := by
  obtain ⟨hrow, hcolumn⟩ := covers_iff.1 ha
  have hpos := a.one_le_row
  have hself : 1 + 1 * (a.row - 1) = a.row := by omega
  rw [table, block, List.getElem?_map, List.getElem?_map, List.getElem?_range' (by omega), hself]
  simp only [Option.map_some, Option.bind_some, List.getElem?_map, getElem?_rowAddresses hcolumn]

theorem map_table {β : Type} (f : α → β) :
    (sheet.table g).map (List.map f) = sheet.table fun a => f (g a) := by
  simp only [table, List.map_map, Function.comp_def]

theorem table_inj {h : Address → α} :
    sheet.table g = sheet.table h ↔ ∀ a, sheet.covers a = true → g a = h a := by
  constructor
  · intro heq a ha
    have hcell := getElem?_table (g := g) ha
    rw [heq, getElem?_table ha] at hcell
    exact (Option.some.inj hcell).symm
  · intro hsame
    refine List.map_congr_left fun row hrow => List.map_congr_left fun a ha => ?_
    exact hsame a (covers_of_mem_block hrow ha)

/-- Rows of the block's extent are its table if each cell stands at its place. -/
theorem eq_table {rows : List (List α)} (hrows : rows.length = sheet.rowCount)
    (hcolumns : ∀ row ∈ rows, row.length = sheet.columnCount)
    (hcells : ∀ a, sheet.covers a = true →
      rows[a.row - 1]?.bind (·[a.column - 1]?) = some (g a)) : rows = sheet.table g := by
  refine List.ext_getElem (hrows.trans length_table.symm) fun i hi hi' => ?_
  have hwidth := hcolumns _ (List.getElem_mem hi)
  refine List.ext_getElem (hwidth.trans (length_of_mem_table (List.getElem_mem hi')).symm) ?_
  intro j hj hj'
  have hrow := sheet.rowCount_le
  have hcolumn := sheet.columnCount_le
  obtain ⟨a, ha⟩ : ∃ a, Address.at? (i + 1) (j + 1) = some a :=
    Address.exists_at? (by omega) (by omega) (by omega) (by omega)
  obtain ⟨hr, hc⟩ := Address.at?_eq_some_iff.1 ha
  have hcovers : sheet.covers a = true := covers_iff.2 (by omega)
  have hcell := (hcells a hcovers).trans (getElem?_table hcovers).symm
  rw [hr, hc, Nat.add_sub_cancel, Nat.add_sub_cancel, List.getElem?_eq_getElem hi,
    List.getElem?_eq_getElem hi', Option.bind_some, Option.bind_some,
    List.getElem?_eq_getElem hj, List.getElem?_eq_getElem hj'] at hcell
  exact Option.some.inj hcell

/-- Steps over the whole block succeed if they do at each cell, and give the table of what they
give there. -/
theorem mapM_block_eq_ok_iff [Nonempty α] {f : Address → Except ε α} {rows : List (List α)} :
    sheet.block.mapM (List.mapM f) = .ok rows ↔
      ∃ g, (∀ a, sheet.covers a = true → f a = .ok (g a)) ∧ sheet.table g = rows := by
  have mapM_of {g : Address → α} (h : ∀ a, sheet.covers a = true → f a = .ok (g a)) :
      sheet.block.mapM (List.mapM f) = .ok (sheet.table g) :=
    mapM_eq_ok_map fun row hrow => mapM_eq_ok_map fun a ha => h a (covers_of_mem_block hrow ha)
  constructor
  · intro h
    have hall : ∀ a, sheet.covers a = true → ∃ x, f a = .ok x := by
      intro a ha
      obtain ⟨row, hrow, harow⟩ := exists_mem_block ha
      obtain ⟨xs, -, hxs⟩ := exists_of_mapM_eq_ok h hrow
      obtain ⟨x, -, hx⟩ := exists_of_mapM_eq_ok hxs harow
      exact ⟨x, hx⟩
    choose! g hg using hall
    exact ⟨g, hg, Except.ok.inj ((mapM_of hg).symm.trans h)⟩
  · rintro ⟨g, hg, rfl⟩
    exact mapM_of hg

/-- Steps over the whole block fail at the first cell where they do. -/
theorem mapM_block_eq_error_iff {f : Address → Except ε α} {e : ε} :
    sheet.block.mapM (List.mapM f) = .error e ↔
      ∃ a, sheet.covers a = true ∧ f a = .error e ∧
        ∀ b, sheet.covers b = true → b.Before a → ∃ x, f b = .ok x := by
  rw [← map_eq_error_iff (g := List.flatten), ← mapM_flatten, flatten_block, mapM_eq_error_iff]
  constructor
  · rintro ⟨ahead, a, behind, h, hahead, ha⟩
    have hmem : a ∈ sheet.addresses := h ▸ List.mem_append_cons_self
    refine ⟨a, mem_addresses.1 hmem, ha, fun b hb hba => ?_⟩
    exact hahead b ((mem_iff_before h).2 ⟨hb, hba⟩)
  · rintro ⟨a, hcovers, ha, hbefore⟩
    obtain ⟨ahead, behind, h⟩ := List.append_of_mem (mem_addresses.2 hcovers)
    refine ⟨ahead, a, behind, h, fun b hb => ?_, ha⟩
    obtain ⟨hb, hba⟩ := (mem_iff_before h).1 hb
    exact hbefore b hb hba

end Spreadsheet.Sheet
