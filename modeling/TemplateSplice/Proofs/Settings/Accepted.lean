import Mathlib.Data.List.Nodup
import TemplateSplice.Proofs.Schema.Uniqueness
import TemplateSplice.Proofs.Settings.View

/-! What settings that satisfy the schema give a merge. Nothing in them is missing and everything is a text,
so the view of them never falls back on anything but the name for the format version; and that name goes in
front of the others only where it is none of them. -/
namespace TemplateSplice

namespace Members

lemma exists_get?_of_contains {m : Members} {key : Scalar} (h : m.contains key = true) :
    ∃ v, m.get? key = some v := by
  have hfound : (m.find? (·.1.identity = key.identity)).isSome = true := List.find?_isSome.mpr (by
    simpa [contains] using h)
  obtain ⟨p, hp⟩ := Option.isSome_iff_exists.mp hfound
  exact ⟨p.2, by rw [get?, hp]; rfl⟩

end Members

namespace Schema

variable {ks : List Keyword}

lemma Admits.required {m : Members} (h : (of ks).Admits (.object m)) {keys : List String}
    (hk : .required keys ∈ ks) {key : String} (hkey : key ∈ keys) : ∃ v, Members.get? m key = some v := by
  obtain ⟨path, listed, h⟩ := h.keyword hk
  rw [violationsOf, List.map_eq_nil_iff, List.filter_eq_nil_iff] at h
  exact Members.exists_get?_of_contains (by simpa using h key hkey)

lemma Admits.minItems {items : List Value} (h : (of ks).Admits (.array items)) {count : Nat}
    (hk : .minItems count ∈ ks) : count ≤ items.length := by
  obtain ⟨path, listed, h⟩ := h.keyword hk
  by_contra hn
  simp [violationsOf, Nat.lt_of_not_le hn] at h

lemma Admits.uniqueItems {items : List Value} (h : (of ks).Admits (.array items))
    (hk : .uniqueItems ∈ ks) : Uniqueness.repeatsItem items = false := by
  obtain ⟨path, listed, h⟩ := h.keyword hk
  by_contra hn
  simp [violationsOf, hn] at h

lemma Admits.maxLength {s : String} (h : (of ks).Admits (.str s)) {count : Nat}
    (hk : .maxLength count ∈ ks) : s.toList.length ≤ count := by
  obtain ⟨path, listed, h⟩ := h.keyword hk
  by_contra hn
  simp [violationsOf, Nat.lt_of_not_le hn] at h

lemma Admits.text {v : Value} (h : (of ks).Admits v) (hk : .type .string ∈ ks) :
    Uniqueness.IsText v := by
  have hstring := h.type hk
  cases v with
  | object m => cases hstring
  | array items => cases hstring
  | scalar a =>
    cases a with
    | str s => exact ⟨s, rfl⟩
    | _ => cases hstring

lemma admits_of_accepts {schema : Schema} {v : Value} (h : schema.accepts v = true) : schema.Admits v :=
  ⟨[], List.isEmpty_iff.mp h⟩

end Schema

namespace Settings

open Schema Uniqueness

variable {settings : Value} {m : Members}

lemma exists_required (h : templateSettings.Admits (.object m)) (key : String)
    (hkey : key ∈ ["sections", "import_token", "section_delimiter", "encoding"]) :
    ∃ v, Members.get? m key = some v := h.required (.tail _ (.head _)) hkey

/-- Settings that satisfy the schema have template settings that satisfy theirs. -/
lemma exists_templateGroup (h : Schema.settings.Admits settings) :
    ∃ m, group settings "template" = .ok m ∧ templateSettings.Admits (.object m) := by
  obtain ⟨members, rfl⟩ := exists_object_of_admits h (.tail _ (.tail _ (.head _)))
  have htemplate : ∃ v, Members.get? members "template" = some v :=
    h.required (.tail _ (.tail _ (.tail _ (.head _)))) (.head _)
  obtain ⟨v, hv⟩ := htemplate
  have hadmits : templateSettings.Admits v :=
    h.property (.tail _ (.tail _ (.tail _ (.tail _ (.head _))))) (.head _) hv
  obtain ⟨m, rfl⟩ := exists_object_of_admits hadmits (.head _)
  obtain ⟨encoding, hencoding⟩ := exists_required hadmits "encoding" (by simp)
  have hgiven : (Value.object m).isGiven = true := by
    cases m with
    | nil => cases hencoding
    | cons p m => rfl
  refine ⟨m, ?_, hadmits⟩
  simp only [group, hv, Option.getD_some, hgiven, if_true]

lemma exists_map_str {items : List Value} (h : ∀ x ∈ items, IsText x) :
    ∃ strings : List String, items = strings.map Value.str := by
  induction items with
  | nil => exact ⟨[], rfl⟩
  | cons x items ih =>
    obtain ⟨⟨s, rfl⟩, hitems⟩ := List.forall_mem_cons.mp h
    obtain ⟨strings, rfl⟩ := ih hitems
    exact ⟨s :: strings, rfl⟩

@[simp] lemma mapM_str? (strings : List String) : (strings.map Value.str).mapM Value.str? = some strings := by
  induction strings with
  | nil => rfl
  | cons s strings ih => rw [List.map_cons, List.mapM_cons, ih]; rfl

/-- The sections that settings list are different names, of which there is at least one. -/
lemma exists_sections (h : templateSettings.Admits (.object m)) : ∃ names : List String,
    listed (givenOr m "sections" (.strings defaultSections)) = .ok (names.map Value.str) ∧
      names ≠ [] ∧ names.Nodup := by
  obtain ⟨v, hv⟩ := exists_required h "sections" (by simp)
  obtain ⟨items, rfl, -⟩ := h.sections hv
  have hlist := h.property (.tail _ (.tail _ (.tail _ (.head _)))) (.head _) hv
  have htexts : ∀ item ∈ items, IsText item := fun item hi =>
    (hlist.item (.tail _ (.tail _ (.tail _ (.head _)))) hi).text (.head _)
  have hcount : 1 ≤ items.length := hlist.minItems (.tail _ (.head _))
  have hnodup := nodup_of_repeatsItem htexts (hlist.uniqueItems (.tail _ (.tail _ (.head _))))
  obtain ⟨names, rfl⟩ := exists_map_str htexts
  have hne : names ≠ [] := fun hnil => by simp [hnil] at hcount
  refine ⟨names, ?_, hne, List.Nodup.of_map _ hnodup⟩
  have hgiven : (Value.array (names.map Value.str)).isGiven = true := by
    simpa [Value.isGiven] using hne
  simp only [givenOr, hv, Option.getD_some, hgiven, if_true, listed]

lemma exists_version (h : templateSettings.Admits (.object m)) :
    ∃ version : String, givenOr m "format_version_key" (.str formatVersionName) = .str version := by
  rcases givenOr_eq m "format_version_key" (.str formatVersionName) with hv | hv
  · exact ⟨_, hv⟩
  · exact (h.property (.tail _ (.tail _ (.tail _ (.head _)))) (.tail _ (.tail _ (.head _))) hv).text
      (.head _)

/-- The token that settings give is one that the schema takes. -/
lemma exists_token (h : templateSettings.Admits (.object m)) : ∃ token : String,
    Members.get? m "import_token" = some (.str token) ∧ Pattern.token.accepts token.toList = true := by
  obtain ⟨v, hv⟩ := exists_required h "import_token" (by simp)
  have hadmits := h.property (.tail _ (.tail _ (.tail _ (.head _))))
    (.tail _ (.tail _ (.tail _ (.head _)))) hv
  obtain ⟨token, rfl⟩ := hadmits.text (.head _)
  exact ⟨token, hv, hadmits.pattern (.tail _ (.tail _ (.head _)))⟩

/-- The delimiter that settings give is one character. -/
lemma exists_delimiter (h : templateSettings.Admits (.object m)) : ∃ delimiter : String,
    Members.get? m "section_delimiter" = some (.str delimiter) ∧ ∃ d, delimiter.toList = [d] := by
  obtain ⟨v, hv⟩ := exists_required h "section_delimiter" (by simp)
  have hadmits := h.property (.tail _ (.tail _ (.tail _ (.head _))))
    (.tail _ (.tail _ (.tail _ (.tail _ (.head _))))) hv
  obtain ⟨delimiter, rfl⟩ := hadmits.text (.head _)
  have hmin := hadmits.minLength (.tail _ (.head _))
  have hmax := hadmits.maxLength (.tail _ (.tail _ (.head _)))
  exact ⟨delimiter, hv, List.length_eq_one_iff.mp (Nat.le_antisymm hmax hmin)⟩

lemma exists_encoding (h : templateSettings.Admits (.object m)) :
    ∃ encoding : String, Members.get? m "encoding" = some (.str encoding) := by
  obtain ⟨v, hv⟩ := exists_required h "encoding" (by simp)
  have hadmits := h.property (.tail _ (.tail _ (.tail _ (.head _))))
    (.tail _ (.tail _ (.tail _ (.tail _ (.tail _ (.head _)))))) hv
  obtain ⟨encoding, rfl⟩ := hadmits.text (.head _)
  exact ⟨encoding, hv⟩

lemma any_alike_iff {names : List String} {s : String} :
    (names.map Value.str).any (·.alike (.str s)) = true ↔ s ∈ names := by
  simp [Value.alike, Value.sameBy, Scalar.sameBy]

/-- What settings that satisfy the schema give a merge: at least one name, no name twice, a token and a
delimiter of one character. -/
structure Template.Checked (template : Template) : Prop where
  names : ∀ name ∈ template.sections, Pattern.name.accepts name = true
  sections_ne_nil : template.sections ≠ []
  nodup : template.sections.Nodup
  token : Pattern.token.accepts template.style.token = true
  delimiter : ∃ d, template.style.delimiter = [d]

/-- Names of which the one for the format version, if it is wanted, is none are still different with it in
front. -/
lemma exists_names {names : List String} (version : String) (wanted : Bool) (hne : names ≠ [])
    (hnodup : names.Nodup) : ∃ names' : List String, names' ≠ [] ∧ names'.Nodup ∧
      (if wanted ∧ !(names.map Value.str).any (·.alike (.str version)) then
        Value.str version :: names.map Value.str else names.map Value.str) = names'.map Value.str := by
  split_ifs with h
  · have hnew : version ∉ names := fun hmem => by simp [any_alike_iff.mpr hmem] at h
    exact ⟨version :: names, List.cons_ne_nil _ _, List.nodup_cons.mpr ⟨hnew, hnodup⟩, rfl⟩
  · exact ⟨names, hne, hnodup, rfl⟩

/-- The fields of settings that satisfy the schema are texts: different names, a token and a delimiter of one
character. -/
lemma exists_fields (h : Schema.settings.Admits settings) :
    ∃ (names : List String) (token delimiter encoding : String), TemplateFields.ofSettings settings =
        .ok ⟨names.map Value.str, .str token, .str delimiter, .str encoding⟩ ∧
      names ≠ [] ∧ names.Nodup ∧ Pattern.token.accepts token.toList = true ∧
      ∃ d, delimiter.toList = [d] := by
  obtain ⟨m, hm, hadmits⟩ := exists_templateGroup h
  obtain ⟨listedNames, hlisted, hne, hnodup⟩ := exists_sections hadmits
  obtain ⟨version, hversion⟩ := exists_version hadmits
  obtain ⟨token, htoken, haccepts⟩ := exists_token hadmits
  obtain ⟨delimiter, hdelimiter, hd⟩ := exists_delimiter hadmits
  obtain ⟨encoding, hencoding⟩ := exists_encoding hadmits
  obtain ⟨names, hne', hnodup', hnames⟩ := exists_names version
    ((m.get? "include_format_version").getD .null).isGiven hne hnodup
  refine ⟨names, token, delimiter, encoding, ?_, hne', hnodup', haccepts, hd⟩
  unfold TemplateFields.ofSettings
  rw [hm]
  change (listed _ >>= _) = _
  rw [hlisted]
  change Except.ok (TemplateFields.mk _ _ _ _) = _
  rw [hversion, hnames, htoken, hdelimiter, hencoding]
  rfl

/-- Settings that satisfy the schema give a merge all that it needs. -/
theorem exists_checked (h : Schema.settings.Admits settings) : ∃ fields template,
    TemplateFields.ofSettings settings = .ok fields ∧ fields.texts? = some template ∧
      template.Checked := by
  obtain ⟨names, token, delimiter, encoding, hfields, hne, hnodup, htoken, hd⟩ := exists_fields h
  have htexts : TemplateFields.texts? ⟨names.map Value.str, .str token, .str delimiter, .str encoding⟩ =
      some ⟨names.map String.toList, ⟨token.toList, delimiter.toList⟩, encoding.toList⟩ := by
    simp only [TemplateFields.texts?, mapM_str?]
    rfl
  have haccepts := accepts_of_texts? h hfields
  rw [htexts] at haccepts
  refine ⟨_, _, hfields, htexts, ⟨haccepts, ?_, ?_, htoken, hd⟩⟩
  · simpa using hne
  · exact List.Nodup.map (fun s t => String.toList_inj.mp) hnodup

end Settings
end TemplateSplice
