import TemplateSplice.Proofs.Schema.Names

/-! The views of settings that satisfy the schema. Such settings have everything in them that a command
looks for, and their delimiter is not empty. -/
namespace TemplateSplice

lemma Schema.Admits.minLength {ks : List Keyword} {s : String} (h : (of ks).Admits (.str s))
    {count : Nat} (hk : .minLength count ∈ ks) : count ≤ s.toList.length := by
  obtain ⟨path, listed, h⟩ := h.keyword hk
  by_contra hn
  simp [violationsOf, Nat.lt_of_not_le hn] at h

namespace Settings

open Schema

variable {settings : Value} {fields : TemplateFields}

lemma exists_object_of_admits {ks : List Keyword} {v : Value} (h : (Schema.of ks).Admits v)
    (hk : .type .object ∈ ks) : ∃ m, v = .object m := by
  have hobject := h.type hk
  cases v with
  | object m => exact ⟨m, rfl⟩
  | array items => cases hobject
  | scalar s => cases s <;> cases hobject

/-- A group of settings that the schema has mappings for is a mapping. -/
lemma exists_group (h : Schema.settings.Admits settings) {key : String} {ks : List Keyword}
    (hmember : (key, Schema.of ks) ∈
      [("template", templateSettings), ("output", outputSettings), ("logging", loggingSettings)])
    (hk : .type .object ∈ ks) : ∃ m, group settings key = .ok m := by
  obtain ⟨members, rfl⟩ := exists_object_of_admits h (.tail _ (.tail _ (.head _)))
  unfold group
  dsimp only
  cases hv : Members.get? members key with
  | none => exact ⟨[], rfl⟩
  | some v =>
    obtain ⟨m, rfl⟩ := exists_object_of_admits
      (h.property (.tail _ (.tail _ (.tail _ (.tail _ (.head _))))) hmember hv) hk
    rw [Option.getD_some]
    split_ifs
    · exact ⟨m, rfl⟩
    · exact ⟨[], rfl⟩

/-- Settings that satisfy the schema list their sections. -/
lemma exists_listed {m : Members} (h : m = [] ∨ templateSettings.Admits (.object m)) :
    ∃ names, listed (givenOr m "sections" (.strings defaultSections)) = .ok names := by
  rcases givenOr_eq m "sections" (.strings defaultSections) with hv | hv
  · rw [hv]
    exact ⟨_, rfl⟩
  · rcases h with rfl | h
    · cases hv
    · obtain ⟨items, hitems, -⟩ := h.sections hv
      rw [hitems]
      exact ⟨items, rfl⟩

/-- Settings that satisfy the schema have template settings. -/
theorem exists_templateFields (h : Schema.settings.Admits settings) :
    ∃ fields, TemplateFields.ofSettings settings = .ok fields := by
  obtain ⟨m, hm⟩ := exists_group h (.head _) (.head _)
  obtain ⟨names, hnames⟩ := exists_listed (group_eq_ok h hm)
  unfold TemplateFields.ofSettings
  rw [hm]
  change ∃ fields, (listed _ >>= _) = _
  rw [hnames]
  exact ⟨_, rfl⟩

/-- Settings that satisfy the schema have output settings. -/
theorem exists_outputFields (h : Schema.settings.Admits settings) :
    ∃ fields, OutputFields.ofSettings settings = .ok fields := by
  obtain ⟨m, hm⟩ := exists_group h (.tail _ (.head _)) (.head _)
  unfold OutputFields.ofSettings
  rw [hm]
  exact ⟨_, rfl⟩

lemma sectionDelimiter_of_ofSettings (hf : TemplateFields.ofSettings settings = .ok fields) :
    ∃ m, group settings "template" = .ok m ∧
      fields.sectionDelimiter = (Members.get? m "section_delimiter").getD (.str "#") := by
  unfold TemplateFields.ofSettings at hf
  cases hm : group settings "template" with
  | error e =>
    rw [hm] at hf
    cases hf
  | ok m =>
    rw [hm] at hf
    change (listed _ >>= _) = _ at hf
    cases hn : listed (givenOr m "sections" (.strings defaultSections)) with
    | error e =>
      rw [hn] at hf
      cases hf
    | ok names =>
      rw [hn] at hf
      cases hf
      exact ⟨m, rfl, rfl⟩

/-- The delimiter of settings that satisfy the schema is not empty. -/
theorem delimiter_ne_nil (h : Schema.settings.Admits settings)
    (hf : TemplateFields.ofSettings settings = .ok fields) :
    (fields.texts?.getD .default).style.delimiter ≠ [] := by
  cases ht : fields.texts? with
  | none => decide
  | some template =>
    unfold TemplateFields.texts? at ht
    simp only [Option.bind_eq_bind, Option.bind_eq_some_iff, Option.some.injEq] at ht
    obtain ⟨_, _, _, _, delimiter, hdelimiter, _, _, rfl⟩ := ht
    obtain ⟨m, hm, hfield⟩ := sectionDelimiter_of_ofSettings hf
    have hv := Value.eq_of_str? hdelimiter
    change delimiter.toList ≠ []
    rw [hfield] at hv
    cases hget : Members.get? m "section_delimiter" with
    | none =>
      rw [hget] at hv
      cases hv
      decide
    | some v =>
      rw [hget, Option.getD_some] at hv
      subst hv
      rcases group_eq_ok h hm with rfl | hadmits
      · cases hget
      · have hlength := (hadmits.property (.tail _ (.tail _ (.tail _ (.head _))))
          (.tail _ (.tail _ (.tail _ (.tail _ (.head _))))) hget).minLength (.tail _ (.head _))
        intro hnil
        rw [hnil] at hlength
        simp at hlength

end Settings
end TemplateSplice
