import Mathlib.Data.List.Dedup
import Mathlib.Data.List.MinMax
import Mathlib.Data.List.Perm.Subperm
import Spreadsheet.Proofs.Expr.Parsing
import Spreadsheet.Proofs.Sheet.Rows

/-! Sheets as records of what was written. Whatever calls succeed or fail, and in which order, a
sheet holds in each cell what the last text written there says, and its block ends where the writes
do. All else that is kept in step follows from this. -/
namespace Spreadsheet

structure Write where
  address : Address
  text : List Char
deriving DecidableEq, Repr

def Write.placement (w : Write) : Nat × Nat × List Char :=
  (w.address.row, w.address.column, w.text)

def rowPlacements (row column : Nat) (fields : List (List Char)) : List (Nat × Nat × List Char) :=
  (fields.zipIdx column).map fun (text, column) => (row, column, text)

def placements (row : Nat) (rows : List (List (List Char))) : List (Nat × Nat × List Char) :=
  (rows.zipIdx row).flatMap fun (fields, row) => rowPlacements row 1 fields

inductive Call
  | put (a : Address) (text : List Char)
  | putNamed (name text : List Char)
deriving DecidableEq, Repr

namespace Call

def perform (sheet : Sheet) : Call → Except SheetError Sheet
  | put a text => (sheet.put a text).mapError .malformed
  | putNamed name text => sheet.putNamed name text

def write? : Call → Option Write
  | put a text => some ⟨a, text⟩
  | putNamed name text => (Address.ofName? name).map (⟨·, text⟩)

end Call

structure History where
  sheet : Sheet
  writes : List Write

def History.after (history : History) (call : Call) : History :=
  match call.perform history.sheet with
  | .ok sheet => ⟨sheet, call.write?.toList ++ history.writes⟩
  | .error _ => history

namespace Call

variable {sheet : Sheet} {call : Call} {w : Write}

theorem write?_eq_none_iff :
    call.write? = none ↔ ∃ name text, call = putNamed name text ∧ Address.ofName? name = none := by
  cases call <;> simp [write?]

theorem perform_of_ofName?_eq_none {name : List Char} (hname : Address.ofName? name = none)
    (sheet : Sheet) (text : List Char) :
    (putNamed name text).perform sheet = .error (.invalidAddress ⟨.ofList name⟩) := by
  rw [perform, Sheet.putNamed, Address.parse, hname]
  rfl

theorem perform_of_write? (hw : call.write? = some w) (sheet : Sheet) :
    call.perform sheet =
      ((Formula.parse w.text).map (sheet.insert w.address)).mapError .malformed := by
  cases call with
  | put a text =>
    obtain rfl := Option.some.inj hw
    rfl
  | putNamed name text =>
    obtain ⟨a, ha, rfl⟩ := Option.map_eq_some_iff.1 hw
    rw [perform, Sheet.putNamed, Address.parse, ha]
    rfl

/-- A call succeeds exactly if it names a cell and its text can be read, whatever the sheet is. -/
theorem perform_eq_ok_iff {after : Sheet} : call.perform sheet = .ok after ↔
    ∃ w f, call.write? = some w ∧ Formula.parse w.text = .ok f ∧
      sheet.insert w.address f = after := by
  cases hw : call.write? with
  | none =>
    obtain ⟨name, text, rfl, hname⟩ := write?_eq_none_iff.1 hw
    simp [perform_of_ofName?_eq_none hname]
  | some w => simp [perform_of_write? hw, mapError_eq_ok_iff, map_eq_ok_iff]

theorem perform_eq_error_iff {e : SheetError} : call.perform sheet = .error e ↔
    (∃ name text, call = putNamed name text ∧ Address.ofName? name = none ∧
      e = .invalidAddress ⟨.ofList name⟩) ∨
    ∃ w p, call.write? = some w ∧ Formula.parse w.text = .error p ∧ e = .malformed p := by
  cases hw : call.write? with
  | none =>
    obtain ⟨name, text, rfl, hname⟩ := write?_eq_none_iff.1 hw
    simp [perform_of_ofName?_eq_none hname, hname, eq_comm]
  | some w =>
    have named : ¬ ∃ name text, call = putNamed name text ∧ Address.ofName? name = none ∧
        e = .invalidAddress ⟨.ofList name⟩ := by
      rintro ⟨name, text, hcall, hname, -⟩
      simp [write?_eq_none_iff.2 ⟨name, text, hcall, hname⟩] at hw
    rw [perform_of_write? hw, or_iff_right named]
    cases hp : Formula.parse w.text <;> simp [hp, Except.map, Except.mapError, eq_comm]

end Call

namespace Sheet

/-- The sheet is what these writes leave, the latest one first. -/
structure Records (sheet : Sheet) (writes : List Write) : Prop where
  find?_eq : ∀ a, (sheet.find? a).map Except.ok =
    (writes.find? (·.address = a)).map (Formula.parse ·.text)
  rowCount_eq : sheet.rowCount = (writes.map (·.address.row)).foldr max 0
  columnCount_eq : sheet.columnCount = (writes.map (·.address.column)).foldr max 0

structure WellKept (sheet : Sheet) (writes : List Write) : Prop extends Records sheet writes where
  rowCount_eq_zero_iff : sheet.rowCount = 0 ↔ sheet.columnCount = 0
  isEmpty_iff : sheet.isEmpty ↔ sheet.columnCount = 0
  columnCount_le : sheet.columnCount ≤ 26
  covers : ∀ a, sheet.find? a ≠ none → sheet.covers a
  size_eq : sheet.size = (writes.map Write.address).dedup.length
  size_le : sheet.size ≤ sheet.rowCount * sheet.columnCount
  blank_at_root : ∀ a f, sheet.find? a = some f → f = .blank ∨ ¬ f.HasBlank

variable {sheet after : Sheet} {writes : List Write} {a : Address} {f : Formula} {text : List Char}

theorem length_addresses : sheet.addresses.length = sheet.rowCount * sheet.columnCount := by
  have hlengths : sheet.block.map List.length =
      List.replicate sheet.rowCount sheet.columnCount := by
    refine List.eq_replicate_iff.2 ⟨by simp [block], ?_⟩
    intro n hn
    obtain ⟨row, hrow, rfl⟩ := List.mem_map.1 hn
    obtain ⟨r, hpos, hle, rfl⟩ := mem_block_iff.1 hrow
    exact length_rowAddresses hpos (Nat.le_trans hle sheet.rowCount_le)
  rw [← flatten_block, List.length_flatten, hlengths, List.sum_replicate_nat]

theorem records_empty : (∅ : Sheet).Records [] where
  find?_eq a := by
    have : (∅ : Sheet).find? a = none := Std.TreeMap.getElem?_emptyc
    rw [this]
    rfl
  rowCount_eq := rfl
  columnCount_eq := rfl

namespace Records

theorem insert (h : sheet.Records writes) (hparse : Formula.parse text = .ok f) :
    (sheet.insert a f).Records (⟨a, text⟩ :: writes) where
  find?_eq b := by
    rw [find?_insert, List.find?_cons]
    by_cases hab : a = b
    · simp [hab, hparse]
    · simp [hab, h.find?_eq]
  rowCount_eq := by rw [rowCount_insert, h.rowCount_eq, List.map_cons, List.foldr_cons]
  columnCount_eq := by rw [columnCount_insert, h.columnCount_eq, List.map_cons, List.foldr_cons]

theorem find?_ne_none_iff (h : sheet.Records writes) :
    sheet.find? a ≠ none ↔ a ∈ writes.map Write.address := by
  have hfind := congrArg Option.isSome (h.find?_eq a)
  rw [Option.isSome_map, Option.isSome_map] at hfind
  rw [← Option.isSome_iff_ne_none, hfind, List.find?_isSome, List.mem_map]
  simp

theorem exists_parse (h : sheet.Records writes) (hf : sheet.find? a = some f) :
    ∃ text, Formula.parse text = .ok f := by
  have hfind := h.find?_eq a
  rw [hf, Option.map_some] at hfind
  obtain ⟨w, -, hw⟩ := Option.map_eq_some_iff.1 hfind.symm
  exact ⟨w.text, hw⟩

theorem covers_of_mem (h : sheet.Records writes) (ha : a ∈ writes.map Write.address) :
    sheet.covers a := by
  obtain ⟨w, hw, rfl⟩ := List.mem_map.1 ha
  rw [covers_iff, h.rowCount_eq, h.columnCount_eq]
  exact ⟨List.le_max_of_le' 0 (List.mem_map_of_mem hw) (Nat.le_refl _),
    List.le_max_of_le' 0 (List.mem_map_of_mem hw) (Nat.le_refl _)⟩

theorem rowCount_eq_zero_iff (h : sheet.Records writes) : sheet.rowCount = 0 ↔ writes = [] := by
  rw [h.rowCount_eq]
  cases writes with
  | nil => simp
  | cons w writes =>
    have := w.address.one_le_row
    simp only [List.map_cons, List.foldr_cons, reduceCtorEq, iff_false]
    omega

theorem columnCount_eq_zero_iff (h : sheet.Records writes) :
    sheet.columnCount = 0 ↔ writes = [] := by
  rw [h.columnCount_eq]
  cases writes with
  | nil => simp
  | cons w writes =>
    have := w.address.one_le_column
    simp only [List.map_cons, List.foldr_cons, reduceCtorEq, iff_false]
    omega

theorem isEmpty_iff (h : sheet.Records writes) : sheet.isEmpty ↔ writes = [] := by
  rw [isEmpty, ← Std.TreeMap.isEmpty_keys, List.isEmpty_iff, List.eq_nil_iff_forall_not_mem]
  simp only [mem_keys_iff, h.find?_ne_none_iff]
  rw [← List.eq_nil_iff_forall_not_mem, List.map_eq_nil_iff]

theorem size_eq (h : sheet.Records writes) :
    sheet.size = (writes.map Write.address).dedup.length := by
  have hperm : sheet.cells.keys.Perm (writes.map Write.address).dedup := by
    rw [List.perm_ext_iff_of_nodup Std.TreeMap.nodup_keys (List.nodup_dedup _)]
    intro a
    rw [mem_keys_iff, h.find?_ne_none_iff, List.mem_dedup]
  rw [size, ← Std.TreeMap.length_keys, hperm.length_eq]

/-- There is a place in the block for each cell that was written. -/
theorem size_le (h : sheet.Records writes) : sheet.size ≤ sheet.rowCount * sheet.columnCount := by
  have hsub : sheet.cells.keys ⊆ sheet.addresses := by
    intro a ha
    rw [mem_keys_iff, h.find?_ne_none_iff] at ha
    exact mem_addresses.2 (h.covers_of_mem ha)
  rw [size, ← Std.TreeMap.length_keys, ← length_addresses]
  exact (List.subperm_of_subset Std.TreeMap.nodup_keys hsub).length_le

theorem wellKept (h : sheet.Records writes) : sheet.WellKept writes where
  toRecords := h
  rowCount_eq_zero_iff := h.rowCount_eq_zero_iff.trans h.columnCount_eq_zero_iff.symm
  isEmpty_iff := h.isEmpty_iff.trans h.columnCount_eq_zero_iff.symm
  columnCount_le := sheet.columnCount_le
  covers _ ha := h.covers_of_mem (h.find?_ne_none_iff.1 ha)
  size_eq := h.size_eq
  size_le := h.size_le
  blank_at_root a f hf := by
    obtain ⟨text, hparse⟩ := h.exists_parse hf
    exact Formula.eq_blank_or_not_hasBlank hparse

theorem step {history : History} (h : history.sheet.Records history.writes) (call : Call) :
    (history.after call).sheet.Records (history.after call).writes := by
  rw [History.after]
  cases hcall : call.perform history.sheet with
  | error e => exact h
  | ok sheet =>
    obtain ⟨w, f, hw, hparse, rfl⟩ := Call.perform_eq_ok_iff.1 hcall
    rw [hw]
    exact h.insert hparse

theorem run {history : History} (h : history.sheet.Records history.writes)
    (calls : List Call) :
    (calls.foldl History.after history).sheet.Records
      (calls.foldl History.after history).writes := by
  induction calls generalizing history with
  | nil => exact h
  | cons call calls ih => exact ih (h.step call)

theorem putRow {fields : List (List Char)} {row column : Nat} (h : sheet.Records writes)
    (hput : sheet.putRow row column fields = .ok after) :
    ∃ added, added.reverse.map Write.placement = rowPlacements row column fields ∧
      after.Records (added ++ writes) := by
  induction fields generalizing sheet column writes with
  | nil =>
    obtain rfl := Except.ok.inj hput
    exact ⟨[], rfl, h⟩
  | cons field fields ih =>
    obtain ⟨a, f, ha, hparse, hrest⟩ := (sheet.putRow_cons_eq_ok_iff).1 hput
    obtain ⟨rfl, rfl⟩ := Address.at?_eq_some_iff.1 ha
    obtain ⟨added, hadded, hrecords⟩ := ih (h.insert hparse) hrest
    refine ⟨added ++ [⟨a, field⟩], ?_, by rwa [List.append_assoc]⟩
    rw [List.reverse_append, List.map_append, hadded]
    rfl

theorem putRows {rows : List (List (List Char))} {width row : Nat} (h : sheet.Records writes)
    (hput : sheet.putRows width row rows = .ok after) :
    ∃ added, added.reverse.map Write.placement = placements row rows ∧
      after.Records (added ++ writes) := by
  induction rows generalizing sheet row writes with
  | nil =>
    obtain rfl := Except.ok.inj hput
    exact ⟨[], rfl, h⟩
  | cons fields rows ih =>
    obtain ⟨-, -, next, hrow, hrest⟩ := (sheet.putRows_cons_eq_ok_iff).1 hput
    obtain ⟨first, hfirst, hnext⟩ := h.putRow hrow
    obtain ⟨added, hadded, hrecords⟩ := ih hnext hrest
    refine ⟨added ++ first, ?_, by rwa [List.append_assoc]⟩
    rw [List.reverse_append, List.map_append, hadded, hfirst]
    rfl

end Records

/-- The fields of rows are writes, each at its own place. -/
theorem exists_records_ofRows {rows : List (List (List Char))} (h : ofRows rows = .ok sheet) :
    ∃ writes, writes.reverse.map Write.placement = placements 1 rows ∧ sheet.Records writes := by
  rw [ofRows] at h
  split at h
  · contradiction
  · obtain ⟨writes, hwrites, hrecords⟩ := records_empty.putRows h
    exact ⟨writes, hwrites, by simpa using hrecords⟩

/-- Whatever calls are made on an empty sheet or on one of rows of text, the parts of the sheet
agree with the writes that succeeded, the fields of the rows being the first of them. A call fails
exactly for a name that names no cell or for malformed text, and then it changes nothing. -/
theorem histories_wellKept :
    (∀ calls : List Call, let history := calls.foldl History.after ⟨∅, []⟩
      history.sheet.WellKept history.writes) ∧
    (∀ rows sheet, ofRows rows = .ok sheet →
      ∃ writes, writes.reverse.map Write.placement = placements 1 rows ∧
        ∀ calls : List Call, let history := calls.foldl History.after ⟨sheet, writes⟩
          history.sheet.WellKept history.writes) ∧
    ∀ (history : History) (call : Call) (e : SheetError),
      (call.perform history.sheet = .error e ↔
        (∃ name text, call = .putNamed name text ∧ Address.ofName? name = none ∧
          e = .invalidAddress ⟨.ofList name⟩) ∨
        ∃ w p, call.write? = some w ∧ Formula.parse w.text = .error p ∧ e = .malformed p) ∧
      (call.perform history.sheet = .error e → history.after call = history) := by
  refine ⟨fun calls => (records_empty.run calls).wellKept, ?_, ?_⟩
  · intro rows sheet h
    obtain ⟨writes, hwrites, hrecords⟩ := exists_records_ofRows h
    exact ⟨writes, hwrites, fun calls => (hrecords.run calls).wellKept⟩
  · intro history call e
    refine ⟨Call.perform_eq_error_iff, fun h => ?_⟩
    rw [History.after, h]

/-- Writes that succeed and calls that fail on a sheet of rows, one of whose cells is blank. -/
theorem histories_wellKept_rows :
    let rows := [["1".toList, "".toList], ["A1 * 2".toList, ".5".toList]]
    let calls : List Call := [.putNamed "B1".toList "A2".toList, .putNamed "b1".toList "2".toList,
      .putNamed "C9".toList "2 +".toList, .putNamed "B4".toList "".toList]
    ∃ sheet writes, ofRows rows = .ok sheet ∧ writes.length = 4 ∧
      (calls.foldl History.after ⟨sheet, writes⟩).sheet.WellKept
        (calls.foldl History.after ⟨sheet, writes⟩).writes := by
  intro rows calls
  have hok : (ofRows rows).isOk = true := by decide +kernel
  obtain ⟨sheet, hsheet⟩ : ∃ sheet, ofRows rows = .ok sheet := by
    cases h : ofRows rows with
    | error e => simp [h, Except.isOk, Except.toBool] at hok
    | ok sheet => exact ⟨sheet, rfl⟩
  obtain ⟨writes, hwrites, hkept⟩ := histories_wellKept.2.1 rows sheet hsheet
  have hlength : writes.length = (placements 1 rows).length := by
    rw [← hwrites, List.length_map, List.length_reverse]
  exact ⟨sheet, writes, hsheet, hlength, hkept calls⟩

end Sheet

end Spreadsheet
