import Spreadsheet.Proofs.Evaluation.Unfolding
import Spreadsheet.Proofs.Sheet.Render

/-! What the two policies have in common: they part at blank cells of the block and nowhere else. -/
namespace Spreadsheet.Sheet

/-- A cell of the block that was never written, or that holds nothing but a blank. -/
def IsBlank (sheet : Sheet) (a : Address) : Prop :=
  sheet.covers a = true ∧ (sheet.find? a = none ∨ sheet.find? a = some .blank)

structure FirstBlank (sheet : Sheet) (a : Address) : Prop where
  blank : sheet.IsBlank a
  first : ∀ b, sheet.IsBlank b → ¬ b.Before a

variable {sheet : Sheet} {places : Nat} {a b : Address} {cause : ReadError}

theorem isBlank_iff :
    sheet.IsBlank a ↔ sheet.covers a = true ∧ (sheet.find? a).getD .blank = .blank := by
  rw [IsBlank]
  cases sheet.find? a <;> simp

theorem read_formatted_of_isBlank (h : sheet.IsBlank a) :
    sheet.read .formatted places a = .ok [] := by
  rw [read, getFormatted_eq, if_pos (isBlank_iff.1 h)]

theorem read_strict_of_isBlank (h : sheet.IsBlank a) :
    sheet.read .strict places a = .error .blank := by
  have hget : sheet.get a = .error .blank := by
    rw [get_of_covers h.1]
    rcases h.2 with hfind | hfind <;> rw [hfind]
    · rfl
    · exact congrArg Evaluation.result (sheet.eval_blank ∅)
  rw [read, getStrict, hget]
  rfl

theorem read_of_not_isBlank (h : ¬ sheet.IsBlank a) :
    sheet.read .formatted places a = sheet.read .strict places a := by
  rw [read, read, getFormatted_eq, if_neg fun hblank => h (isBlank_iff.2 hblank)]

theorem not_isBlank_of_read_strict {text : List Char}
    (h : sheet.read .strict places a = .ok text) : ¬ sheet.IsBlank a := by
  intro hblank
  rw [read_strict_of_isBlank hblank] at h
  contradiction

theorem read_strict_of_read_formatted_eq_error (h : sheet.read .formatted places a = .error cause) :
    sheet.read .strict places a = .error cause := by
  rw [← read_of_not_isBlank, h]
  intro hblank
  rw [read_formatted_of_isBlank hblank] at h
  contradiction

theorem read_formatted_of_read_strict {text : List Char}
    (h : sheet.read .strict places a = .ok text) : sheet.read .formatted places a = .ok text := by
  rw [read_of_not_isBlank (not_isBlank_of_read_strict h), h]

theorem FirstUnread.firstBlank {text : List Char} (h : sheet.FirstUnread .strict places a cause)
    (ha : sheet.read .formatted places a = .ok text) : cause = .blank ∧ sheet.FirstBlank a := by
  have hblank : sheet.IsBlank a := by
    by_contra hblank
    rw [read_of_not_isBlank hblank, h.read_eq] at ha
    contradiction
  have hcause := h.read_eq.symm.trans (read_strict_of_isBlank hblank)
  refine ⟨Except.error.inj hcause, hblank, ?_⟩
  intro b hb hba
  obtain ⟨s, hs⟩ := h.before b hb.1 hba
  exact not_isBlank_of_read_strict hs hb

/-- The strict policy fails where the other one does, with the same cause, or at a blank before. -/
theorem FirstUnread.strict {other : Address} {cause' : ReadError}
    (h : sheet.FirstUnread .formatted places a cause)
    (h' : sheet.FirstUnread .strict places other cause') :
    (other = a ∧ cause' = cause) ∨ (other.Before a ∧ cause' = .blank ∧ sheet.FirstBlank other) := by
  have hread := read_strict_of_read_formatted_eq_error h.read_eq
  rcases Address.before_trichotomy other a with hlt | rfl | hgt
  · obtain ⟨s, hs⟩ := h.before other h'.covers hlt
    exact .inr ⟨hlt, h'.firstBlank hs⟩
  · exact .inl ⟨rfl, Except.error.inj (h'.read_eq.symm.trans hread)⟩
  · obtain ⟨s, hs⟩ := h'.before a h.covers hgt
    rw [hread] at hs
    contradiction

theorem Resolves.not_isBlank {f : Formula} {t : Unfolding} (h : sheet.Resolves f t)
    (ha : a ∈ f.references) (hab : Relation.ReflTransGen sheet.RefersTo a b) :
    ¬ sheet.IsBlank b := by
  have hb := h.unfolds.mem_dereferenced ha hab
  rintro ⟨-, hnone | hblank⟩
  · exact (h.stored b hb).2 hnone
  · exact h.unfolds.find?_ne_blank h.noBlank b hb hblank

/-- A cell from which references lead to a blank one cannot be read, under either policy. -/
theorem read_ne_ok_of_refersTo_isBlank (policy : Policy)
    (hab : Relation.TransGen sheet.RefersTo a b) (hb : sheet.IsBlank b) (text : List Char) :
    sheet.read policy places a ≠ .ok text := by
  intro hread
  obtain ⟨c, ⟨f, hf, hc⟩, hcb⟩ := Relation.TransGen.head'_iff.1 hab
  rcases read_eq_ok_iff.1 hread with ⟨-, -, hblank, -⟩ | ⟨x, hx, -⟩
  · rw [hf] at hblank
    obtain rfl : f = .blank := hblank
    simp [Expr.references] at hc
  · obtain ⟨-, g, hg, hx⟩ := get_eq_ok_iff.1 hx
    obtain rfl := Option.some.inj (hf.symm.trans hg)
    obtain ⟨t, ht, -⟩ := value_eq_ok_iff.1 hx
    exact ht.not_isBlank hc hcb hb

/-- Cell by cell the two policies agree but for blanks, which read as empty text under one and not
at all under the other; what only refers to a blank cannot be read under either. So a sheet renders
the same under both unless it has blanks, and the strict policy stops at the first of these if
nothing else stopped it before. -/
theorem policies_differ_at_blanks (sheet : Sheet) (places : Nat) :
    (∀ a, sheet.IsBlank a → sheet.read .formatted places a = .ok [] ∧
      sheet.read .strict places a = .error .blank) ∧
    (∀ a, ¬ sheet.IsBlank a →
      sheet.read .formatted places a = sheet.read .strict places a) ∧
    (∀ a b, Relation.TransGen sheet.RefersTo a b → sheet.IsBlank b →
      ∀ policy text, sheet.read policy places a ≠ .ok text) ∧
    (∀ text, sheet.render .strict places = .ok text → sheet.render .formatted places = .ok text) ∧
    (∀ text e, sheet.render .formatted places = .ok text →
      sheet.render .strict places = .error e → e.cause = .blank ∧ sheet.FirstBlank e.address) ∧
    ∀ e, sheet.render .formatted places = .error e →
      sheet.render .strict places = .error e ∨
        ∃ b, b.Before e.address ∧ sheet.FirstBlank b ∧
          sheet.render .strict places = .error ⟨b, .blank⟩ := by
  have same (text) (h : sheet.render .strict places = .ok text) :
      sheet.render .formatted places = .ok text := by
    obtain ⟨s, hread, rfl⟩ := render_eq_ok_iff.1 h
    exact render_eq_ok_iff.2 ⟨s, fun a ha => read_formatted_of_read_strict (hread a ha), rfl⟩
  refine ⟨fun a ha => ⟨read_formatted_of_isBlank ha, read_strict_of_isBlank ha⟩,
    fun a => read_of_not_isBlank, ?_, same, ?_, ?_⟩
  · intro a b hab hb policy
    exact read_ne_ok_of_refersTo_isBlank policy hab hb
  · intro text e hformatted hstrict
    have hunread := render_eq_error_iff.1 hstrict
    obtain ⟨s, hs⟩ := exists_render_eq_ok_iff.1 ⟨text, hformatted⟩ e.address hunread.covers
    exact hunread.firstBlank hs
  · intro e hformatted
    cases hstrict : sheet.render .strict places with
    | ok text =>
      rw [same text hstrict] at hformatted
      contradiction
    | error e' =>
      obtain ⟨a, cause⟩ := e
      obtain ⟨b, cause'⟩ := e'
      rcases (render_eq_error_iff.1 hformatted).strict (render_eq_error_iff.1 hstrict) with
        ⟨rfl, rfl⟩ | ⟨hba, rfl, hb⟩
      · exact .inl rfl
      · exact .inr ⟨b, hba, hb, rfl⟩

end Spreadsheet.Sheet
