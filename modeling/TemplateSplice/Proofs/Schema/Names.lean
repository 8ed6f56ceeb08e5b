import Mathlib.Tactic.ByContra
import TemplateSplice.Proofs.Schema.Pattern
import TemplateSplice.Schema.Bundled

/-! Section names of settings that satisfy the schema. A schema admits a value that breaks none of its
conditions; it then admits the parts of the value that it has schemas for. So all names that settings
give, the one for the format version too, are letters and digits with perhaps a line feed at the end. -/
namespace TemplateSplice

lemma Value.eq_of_str? {v : Value} {s : String} (h : v.str? = some s) : v = .str s := by
  cases v with
  | scalar a => cases a <;> simp_all [str?, Scalar.str?]
  | array _ => simp [str?] at h
  | object _ => simp [str?] at h

namespace Schema

/-- A schema admits a value that breaks none of its conditions. -/
def Admits (schema : Schema) (v : Value) : Prop := ∃ path, schema.violationsAt path v = []

lemma admits_of_violations {schema : Schema} {v : Value} (h : schema.violations v = []) :
    schema.Admits v := by
  refine ⟨[], List.length_eq_zero_iff.mp ?_⟩
  rw [← List.length_mergeSort, ← violations, h, List.length_nil]

lemma Admits.keyword {ks : List Keyword} {v : Value} (h : (of ks).Admits v) {k : Keyword}
    (hk : k ∈ ks) : ∃ path listed, violationsOf path v listed k = [] := by
  obtain ⟨path, h⟩ := h
  unfold violationsAt at h
  refine ⟨path, listedKeys ks, ?_⟩
  generalize listedKeys ks = listed at h
  induction ks with
  | nil => simp at hk
  | cons k' ks ih =>
    rw [keywordViolations, List.append_eq_nil_iff] at h
    rcases List.mem_cons.mp hk with rfl | hk
    · exact h.1
    · exact ih hk h.2

lemma Admits.type {ks : List Keyword} {v : Value} (h : (of ks).Admits v) {type : JsonType}
    (hk : .type type ∈ ks) : type.holds v = true := by
  obtain ⟨path, listed, h⟩ := h.keyword hk
  by_contra hn
  simp [violationsOf, hn] at h

lemma Admits.pattern {ks : List Keyword} {s : String} (h : (of ks).Admits (.str s))
    {pattern : Pattern} (hk : .pattern pattern ∈ ks) : pattern.accepts s.toList = true := by
  obtain ⟨path, listed, h⟩ := h.keyword hk
  by_contra hn
  simp [violationsOf, hn] at h

lemma Admits.item {ks : List Keyword} {items : List Value} (h : (of ks).Admits (.array items))
    {schema : Schema} (hk : .items schema ∈ ks) {item : Value} (hi : item ∈ items) :
    schema.Admits item := by
  obtain ⟨path, listed, h⟩ := h.keyword hk
  obtain ⟨i, hi⟩ := List.mem_iff_getElem?.mp hi
  unfold violationsOf at h
  exact ⟨_, List.flatMap_eq_nil_iff.mp h (item, i) (List.mk_mem_zipIdx_iff_getElem?.mpr hi)⟩

lemma violationsAt_of_propertyViolations {path : List Text} {m : Members}
    {members : List (String × Schema)} (h : propertyViolations path m members = []) {key : String}
    {schema : Schema} (hm : (key, schema) ∈ members) {v : Value} (hv : Members.get? m key = some v) :
    schema.violationsAt (path ++ [key.toList]) v = [] := by
  induction members with
  | nil => simp at hm
  | cons p members ih =>
    rw [propertyViolations, List.append_eq_nil_iff] at h
    rcases List.mem_cons.mp hm with rfl | hm
    · simpa [hv] using h.1
    · exact ih h.2 hm

lemma Admits.property {ks : List Keyword} {m : Members} (h : (of ks).Admits (.object m))
    {members : List (String × Schema)} (hk : .properties members ∈ ks) {key : String}
    {schema : Schema} (hm : (key, schema) ∈ members) {v : Value} (hv : Members.get? m key = some v) :
    schema.Admits v := by
  obtain ⟨path, listed, h⟩ := h.keyword hk
  unfold violationsOf at h
  exact ⟨_, violationsAt_of_propertyViolations h hm hv⟩

lemma Admits.sections {m : Members} (h : templateSettings.Admits (.object m)) {v : Value}
    (hv : Members.get? m "sections" = some v) :
    ∃ items, v = .array items ∧ ∀ item ∈ items, ∀ s, item.str? = some s →
      Pattern.name.accepts s.toList = true := by
  have hlist := h.property (.tail _ (.tail _ (.tail _ (.head _)))) (.head _) hv
  have htype := hlist.type (.head _)
  cases v with
  | scalar s => cases s <;> simp [JsonType.holds] at htype
  | object m' => simp [JsonType.holds] at htype
  | array items =>
    refine ⟨items, rfl, fun item hi s hs => ?_⟩
    have hitem := hlist.item (.tail _ (.tail _ (.tail _ (.head _)))) hi
    obtain rfl := Value.eq_of_str? hs
    exact hitem.pattern (.tail _ (.head _))

lemma Admits.version {m : Members} (h : templateSettings.Admits (.object m)) {s : String}
    (hv : Members.get? m "format_version_key" = some (.str s)) :
    Pattern.name.accepts s.toList = true := by
  have hkey := h.property (.tail _ (.tail _ (.tail _ (.head _)))) (.tail _ (.tail _ (.head _))) hv
  exact hkey.pattern (.tail _ (.head _))

end Schema

namespace Settings

/-- The template settings of settings that satisfy the schema satisfy theirs, if there are any. -/
lemma group_eq_ok {settings : Value} (h : Schema.settings.Admits settings) {m : Members}
    (hm : group settings "template" = .ok m) : m = [] ∨ Schema.templateSettings.Admits (.object m) := by
  unfold group at hm
  cases settings with
  | scalar s => simp at hm
  | array items => simp at hm
  | object members =>
    cases hv : Members.get? members "template" with
    | none =>
      simp only [hv, Option.getD_none] at hm
      cases hm
      exact .inl rfl
    | some v =>
      have hadmits : Schema.templateSettings.Admits v :=
        h.property (.tail _ (.tail _ (.tail _ (.tail _ (.head _))))) (.head _) hv
      simp only [hv, Option.getD_some] at hm
      split_ifs at hm
      · cases v with
        | object m' =>
          cases hm
          exact .inr hadmits
        | scalar s => simp at hm
        | array items => simp at hm
      · cases hm
        exact .inl rfl

lemma givenOr_eq (m : Members) (key : String) (default : Value) :
    givenOr m key default = default ∨ Members.get? m key = some (givenOr m key default) := by
  unfold givenOr
  cases hv : Members.get? m key with
  | none => exact .inl rfl
  | some v =>
    by_cases hg : v.isGiven = true
    · exact .inr (by simp [hg])
    · exact .inl (by simp [hg])

lemma accepts_of_listed {m : Members} (h : m = [] ∨ Schema.templateSettings.Admits (.object m))
    {names : List Value} (hn : listed (givenOr m "sections" (.strings defaultSections)) = .ok names) :
    ∀ v ∈ names, ∀ s, v.str? = some s → Pattern.name.accepts s.toList = true := by
  rcases givenOr_eq m "sections" (.strings defaultSections) with hv | hv
  · rw [hv] at hn
    cases hn
    have hdefault : ∀ s ∈ defaultSections, Pattern.name.accepts s.toList = true := by
      decide +kernel
    intro v hv s hs
    obtain ⟨s', hs', rfl⟩ := List.mem_map.mp hv
    cases hs
    exact hdefault _ hs'
  · rcases h with rfl | h
    · simp [Members.get?] at hv
    · obtain ⟨items, hitems, haccepts⟩ := h.sections hv
      rw [hitems] at hn
      cases hn
      exact haccepts

lemma accepts_of_version {m : Members} (h : m = [] ∨ Schema.templateSettings.Admits (.object m))
    {s : String} (hs : (givenOr m "format_version_key" (.str formatVersionName)).str? = some s) :
    Pattern.name.accepts s.toList = true := by
  rcases givenOr_eq m "format_version_key" (.str formatVersionName) with hv | hv
  · rw [hv] at hs
    cases hs
    decide +kernel
  · rcases h with rfl | h
    · simp [Members.get?] at hv
    · exact h.version (hv.trans (congrArg some (Value.eq_of_str? hs)))

/-- The section names of settings: those that are listed, perhaps with the one for the format version in
front. -/
lemma exists_of_ofSettings {settings : Value} {fields : TemplateFields}
    (h : TemplateFields.ofSettings settings = .ok fields) :
    ∃ m names, group settings "template" = .ok m ∧
      listed (givenOr m "sections" (.strings defaultSections)) = .ok names ∧
      (fields.sections = names ∨
        fields.sections = givenOr m "format_version_key" (.str formatVersionName) :: names) := by
  unfold TemplateFields.ofSettings at h
  cases hg : group settings "template" with
  | error e =>
    rw [hg] at h
    cases h
  | ok m =>
    rw [hg] at h
    cases hn : listed (givenOr m "sections" (.strings defaultSections)) with
    | error e =>
      change (listed _ >>= _) = _ at h
      rw [hn] at h
      cases h
    | ok names =>
      change (listed _ >>= _) = _ at h
      rw [hn] at h
      cases h
      refine ⟨m, names, rfl, hn, ?_⟩
      dsimp only
      split_ifs
      · exact .inr rfl
      · exact .inl rfl

/-- Every name that settings give is a name, if the settings satisfy the schema. -/
theorem accepts_of_ofSettings {settings : Value} (h : Schema.settings.Admits settings)
    {fields : TemplateFields} (hf : TemplateFields.ofSettings settings = .ok fields) :
    ∀ v ∈ fields.sections, ∀ s, v.str? = some s → Pattern.name.accepts s.toList = true := by
  obtain ⟨m, names, hg, hn, hsections⟩ := exists_of_ofSettings hf
  have hadmits := group_eq_ok h hg
  have hnames := accepts_of_listed hadmits hn
  rcases hsections with hs | hs
  · exact hs ▸ hnames
  · rw [hs]
    exact List.forall_mem_cons.mpr ⟨fun s hs => accepts_of_version hadmits hs, hnames⟩

lemma listed_ne_nil {v : Value} {items : List Value} (h : listed v = .ok items)
    (hv : v.isGiven = true) : items ≠ [] := by
  unfold listed at h
  split at h
  · obtain rfl := Except.ok.inj h
    simpa [Value.isGiven] using hv
  · obtain rfl := Except.ok.inj h
    simpa [Value.isGiven] using hv
  · obtain rfl := Except.ok.inj h
    simpa [Value.isGiven, Scalar.isGiven] using hv
  · cases h

/-- Settings always name some sections. -/
theorem sections_ne_nil {settings : Value} {fields : TemplateFields}
    (h : TemplateFields.ofSettings settings = .ok fields) : fields.sections ≠ [] := by
  obtain ⟨m, names, _, hn, hsections⟩ := exists_of_ofSettings h
  have hgiven : (givenOr m "sections" (.strings defaultSections)).isGiven = true := by
    unfold givenOr
    dsimp only
    split_ifs with hv
    · exact hv
    · rfl
  rcases hsections with hs | hs
  · exact hs ▸ listed_ne_nil hn hgiven
  · simp [hs]

lemma mapM_ne_nil {α β : Type} {f : α → Option β} {l : List α} {l' : List β} (hl : l ≠ [])
    (h : l.mapM f = some l') : l' ≠ [] := by
  obtain ⟨a, r, rfl⟩ := List.exists_cons_of_ne_nil hl
  simp only [List.mapM_cons, Option.bind_eq_bind, Option.bind_eq_some_iff, Option.pure_def,
    Option.some.injEq] at h
  obtain ⟨b, _, bs, _, rfl⟩ := h
  exact List.cons_ne_nil b bs

/-- A merge under settings has sections to look for. -/
lemma texts_sections_ne_nil {settings : Value} {fields : TemplateFields}
    (h : TemplateFields.ofSettings settings = .ok fields) :
    (fields.texts?.getD .default).sections ≠ [] := by
  cases ht : fields.texts? with
  | none => decide
  | some template =>
    unfold TemplateFields.texts? at ht
    simp only [Option.bind_eq_bind, Option.bind_eq_some_iff, Option.some.injEq] at ht
    obtain ⟨sections, hsections, _, _, _, _, _, _, rfl⟩ := ht
    simpa using mapM_ne_nil (sections_ne_nil h) hsections

lemma exists_of_mem_mapM {α β : Type} {f : α → Option β} {l : List α} {l' : List β}
    (h : l.mapM f = some l') : ∀ b ∈ l', ∃ a ∈ l, f a = some b := by
  induction l generalizing l' with
  | nil =>
    cases h
    simp
  | cons a l ih =>
    simp only [List.mapM_cons, Option.bind_eq_bind, Option.bind_eq_some_iff, Option.pure_def,
      Option.some.injEq] at h
    obtain ⟨b, hb, bs, hbs, rfl⟩ := h
    refine List.forall_mem_cons.mpr ⟨⟨a, List.mem_cons_self, hb⟩, fun b' hb' => ?_⟩
    obtain ⟨a', ha', hfa'⟩ := ih hbs b' hb'
    exact ⟨a', List.mem_cons_of_mem a ha', hfa'⟩

/-- Every section name of a merge under settings that satisfy the schema is a name. -/
theorem accepts_of_texts? {settings : Value} (h : Schema.settings.Admits settings)
    {fields : TemplateFields} (hf : TemplateFields.ofSettings settings = .ok fields) :
    ∀ name ∈ (fields.texts?.getD .default).sections, Pattern.name.accepts name = true := by
  cases ht : fields.texts? with
  | none =>
    change ∀ name ∈ Template.default.sections, _
    decide +kernel
  | some template =>
    unfold TemplateFields.texts? at ht
    simp only [Option.bind_eq_bind, Option.bind_eq_some_iff, Option.some.injEq] at ht
    obtain ⟨sections, hsections, _, _, _, _, _, _, rfl⟩ := ht
    intro name hname
    obtain ⟨s, hs, rfl⟩ := List.mem_map.mp hname
    obtain ⟨v, hv, hvs⟩ := exists_of_mem_mapM hsections s hs
    exact accepts_of_ofSettings h hf v hv s hvs

end Settings

end TemplateSplice
