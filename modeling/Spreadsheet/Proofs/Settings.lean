import Spreadsheet.Settings.Load

namespace Spreadsheet

/-- What statements in a table say: tables that begin, and values at full paths. -/
def Toml.said (table : List Key) : List Statement → List (List Key × Option Value)
  | [] => []
  | .table path :: rest => (path, none) :: said path rest
  | .entry path value :: rest => (table ++ path, some value) :: said table rest

namespace SettingsFile

/-- A policy is chosen by its name, or by a table or an entry below the policy with that name. -/
inductive IsSetting : List Toml.Key × Option Toml.Value → Prop
  | precision {n : Int} : 0 ≤ n → IsSetting (["precision".toList], some (.integer n))
  | policy {name : Toml.Key} {policy : Policy} : Policy.ofName? (.ofList name) = some policy →
      IsSetting (["policy".toList], some (.text name))
  | choice {name : Toml.Key} {policy : Policy} : Policy.ofName? (.ofList name) = some policy →
      IsSetting (["policy".toList], some (.choice name))
  | entry {name : Toml.Key} {policy : Policy} : Policy.ofName? (.ofList name) = some policy →
      IsSetting (["policy".toList, name], some .nothing)
  | table : IsSetting (["policy".toList], none)
  | subtable {name : Toml.Key} {policy : Policy} : Policy.ofName? (.ofList name) = some policy →
      IsSetting (["policy".toList, name], none)

variable (decode : Decoder)

def Accepts (files : FileView) (path : String) (file : SettingsFile) : Prop :=
  ∃ regular bytes text, files path = some ⟨regular, .ok bytes⟩ ∧
    String.fromUTF8? bytes = some text ∧ decode text.toList = some file

/-- The file cannot be used, with this warning if there is one. -/
inductive Refuses (files : FileView) (path : String) (explicit : Bool) :
    Option SettingsWarning → Prop
  | missing : files path = none →
      Refuses files path explicit (if explicit then some (.notFound path) else none)
  | unreadable {regular : Bool} {failure : ReadFailure} :
      files path = some ⟨regular, .error failure⟩ →
      Refuses files path explicit (some (.notRead path failure.reason))
  | notText {regular : Bool} {bytes : ByteArray} : files path = some ⟨regular, .ok bytes⟩ →
      String.fromUTF8? bytes = none →
      Refuses files path explicit (some (.notRead path "stream did not contain valid UTF-8"))
  | rejected {regular : Bool} {bytes : ByteArray} {text : String} :
      files path = some ⟨regular, .ok bytes⟩ → String.fromUTF8? bytes = some text →
      decode text.toList = none → Refuses files path explicit (some (.notParsed path))

variable {decode} {file file' : SettingsFile} {name : Toml.Key}

theorem exists_of_setPolicy (h : file.setPolicy name = some file') :
    ∃ policy, Policy.ofName? (.ofList name) = some policy := by
  obtain ⟨-, h⟩ := Option.ite_none_right_eq_some.1 h
  obtain ⟨policy, hpolicy, -⟩ := Option.map_eq_some_iff.1 h
  exact ⟨policy, hpolicy⟩

private theorem eq_toList_of_ofList_eq {key : Toml.Key} {name : String}
    (h : String.ofList key = name) : key = name.toList := by
  rw [← h, String.toList_ofList]

theorem isSetting_of_addEntry {s : Toml.Statement} (h : file.addEntry s = some file') :
    ∃ path value, s = .entry path value ∧ IsSetting (path, some value) := by
  unfold addEntry at h
  split at h
  · next key value =>
    refine ⟨_, _, rfl, ?_⟩
    split at h
    · next hkey =>
      obtain ⟨⟨-, hn⟩, -⟩ := Option.ite_none_right_eq_some.1 h
      exact eq_toList_of_ofList_eq hkey ▸ .precision hn
    · next hkey =>
      obtain ⟨policy, hpolicy⟩ := exists_of_setPolicy h
      exact eq_toList_of_ofList_eq hkey ▸ .policy hpolicy
    · next hkey =>
      obtain ⟨policy, hpolicy⟩ := exists_of_setPolicy h
      exact eq_toList_of_ofList_eq hkey ▸ .choice hpolicy
    · contradiction
  · obtain ⟨rfl, h⟩ := Option.ite_none_right_eq_some.1 h
    obtain ⟨policy, hpolicy⟩ := exists_of_setPolicy h
    exact ⟨_, _, rfl, .entry hpolicy⟩
  · contradiction

theorem isSetting_of_tablePolicy? {tables : List Toml.Statement}
    (h : (tablePolicy? tables).bind file.setPolicy = some file') :
    ∀ said ∈ Toml.said [] tables, IsSetting said := by
  obtain ⟨name, hname, h⟩ := Option.bind_eq_some_iff.1 h
  obtain ⟨policy, hpolicy⟩ := exists_of_setPolicy h
  unfold tablePolicy? at hname
  split at hname
  · obtain ⟨rfl, hname⟩ := Option.ite_none_right_eq_some.1 hname
    cases hname
    simpa [Toml.said] using ⟨IsSetting.table, IsSetting.entry hpolicy⟩
  · obtain ⟨rfl, hname⟩ := Option.ite_none_right_eq_some.1 hname
    cases hname
    simpa [Toml.said] using IsSetting.subtable hpolicy
  · obtain ⟨⟨rfl, rfl⟩, hname⟩ := Option.ite_none_right_eq_some.1 hname
    cases hname
    simpa [Toml.said] using ⟨IsSetting.table, IsSetting.subtable hpolicy⟩
  · obtain ⟨⟨rfl, rfl⟩, hname⟩ := Option.ite_none_right_eq_some.1 hname
    cases hname
    simpa [Toml.said] using ⟨IsSetting.subtable hpolicy, IsSetting.table⟩
  · contradiction

/-- Adding entries one by one, the first that is no setting stops it. -/
theorem isSetting_of_foldlM {entries tables : List Toml.Statement}
    (h : entries.foldlM addEntry file = some file')
    (htables : ∀ said ∈ Toml.said [] tables, IsSetting said) :
    ∀ said ∈ Toml.said [] (entries ++ tables), IsSetting said := by
  induction entries generalizing file with
  | nil => exact htables
  | cons s entries ih =>
    rw [List.foldlM_cons] at h
    obtain ⟨next, hadd, hrest⟩ := Option.bind_eq_some_iff.1 h
    obtain ⟨path, value, rfl, hsetting⟩ := isSetting_of_addEntry hadd
    exact List.forall_mem_cons.2 ⟨hsetting, ih hrest⟩

/-- Statements that are accepted say settings and nothing else. -/
theorem isSetting_of_ofStatements? {statements : List Toml.Statement}
    (h : ofStatements? statements = some file) :
    ∀ said ∈ Toml.said [] statements, IsSetting said := by
  obtain ⟨entries, tables, _, rfl, hentries, htables⟩ := exists_of_ofStatements? h
  refine isSetting_of_foldlM hentries ?_
  rcases htables with rfl | htables
  · simp [Toml.said]
  · exact isSetting_of_tablePolicy? htables

/-- One thing that is no setting makes the whole text one that says nothing. -/
theorem parse?_eq_none {text : List Char} {statements : List Toml.Statement}
    {said : List Toml.Key × Option Toml.Value} (hdocument : Toml.document text = some statements)
    (hsaid : said ∈ Toml.said [] statements) (h : ¬ IsSetting said) : parse? text = none := by
  rw [parse?, hdocument, Option.bind_some, Option.eq_none_iff_forall_ne_some]
  exact fun file hfile => h (isSetting_of_ofStatements? hfile said hsaid)

theorem accepts_or_refuses (decode : Decoder) (files : FileView) (path : String) (explicit : Bool) :
    (∃ file, Accepts decode files path file) ∨
      ∃ warning, Refuses decode files path explicit warning := by
  rcases hfile : files path with _ | ⟨regular, failure | bytes⟩
  · exact .inr ⟨_, .missing hfile⟩
  · exact .inr ⟨_, .unreadable hfile⟩
  · cases htext : String.fromUTF8? bytes with
    | none => exact .inr ⟨_, .notText hfile htext⟩
    | some text =>
      cases hparse : decode text.toList with
      | none => exact .inr ⟨_, .rejected hfile htext hparse⟩
      | some file => exact .inl ⟨file, regular, bytes, text, hfile, htext, hparse⟩

theorem ofEntry_unreadable (path : String) (regular : Bool) (failure : ReadFailure) :
    ofEntry decode path ⟨regular, .error failure⟩ = .error (.notRead path failure.reason) := rfl

theorem ofEntry_bytes (path : String) (regular : Bool) (bytes : ByteArray) :
    ofEntry decode path ⟨regular, .ok bytes⟩ =
      match String.fromUTF8? bytes with
      | none => .error (.notRead path "stream did not contain valid UTF-8")
      | some text => (decode text.toList).elim (.error (.notParsed path)) .ok := by
  rw [ofEntry]
  change Except.bind (.ok bytes) _ = _
  dsimp only [Except.bind]
  cases String.fromUTF8? bytes with
  | none => rfl
  | some text =>
    change Except.bind (.ok text) _ = _
    dsimp only [Except.bind]
    cases decode text.toList <;> rfl

variable {files : FileView} {user : UserDirectories} {explicit : Option String} {path : String}

theorem load_of_accepts (hpath : (explicit <|> user.settingsPath?) = some path)
    (h : Accepts decode files path file) : load decode files user explicit = (file, none) := by
  obtain ⟨regular, bytes, text, hfile, htext, hparse⟩ := h
  simp only [load, hpath, hfile, ofEntry_bytes, htext, hparse, Option.elim_some]

theorem load_of_refuses {warning : Option SettingsWarning}
    (hpath : (explicit <|> user.settingsPath?) = some path)
    (h : Refuses decode files path explicit.isSome warning) :
    load decode files user explicit = ({}, warning) := by
  cases h with
  | missing hfile => simp only [load, hpath, hfile]
  | unreadable hfile => simp only [load, hpath, hfile, ofEntry_unreadable]
  | notText hfile htext => simp only [load, hpath, hfile, ofEntry_bytes, htext]
  | rejected hfile htext hparse =>
    simp only [load, hpath, hfile, ofEntry_bytes, htext, hparse, Option.elim_none]

end SettingsFile

end Spreadsheet
