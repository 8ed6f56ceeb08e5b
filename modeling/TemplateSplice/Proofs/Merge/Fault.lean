import TemplateSplice.Proofs.Marker.Reference
import TemplateSplice.Proofs.Merge.Splice
import TemplateSplice.Proofs.Merge.WholeFile
import TemplateSplice.Proofs.Section.Place

/-! The steps of a merge over a shelf that fail. A pass over markers fails at the first of them that
cannot be used, for a reason that is its own, and reads what the markers before it lead to. Adding
sections to a body is never what fails. -/
namespace TemplateSplice

namespace Merge

/-- Why a whole-file marker of a template cannot be used. -/
inductive WholeFileFault (s : Shelf) (rules : Rules) (root : Template) (marker : Marker) :
    Problem → Prop
  | blank (blank : marker.resource.strip = []) : WholeFileFault s rules root marker
      (.badReference .emptyPath marker.resource rules.style.delimiter (some root.path.text))
  | missing (named : marker.resource.strip ≠ [])
      (gone : s.get? (root.target marker.resource.strip) = none) :
      WholeFileFault s rules root marker (.importMissing marker.resource.strip
        (root.target marker.resource.strip) root.path.text)

/-- An inline marker of a template leads to a path: its resource has two parts, there is a template
at the path of the first, and the second is the name of a section there. -/
def Follows (s : Shelf) (rules : Rules) (d : Char) (root : Template) (marker : Marker) (p : Path) :
    Prop :=
  ∃ path name, TwoParts d marker.resource path name ∧ p = root.target path ∧
    (s.get? p).isSome = true ∧ name ∈ rules.allowed.sections (s.text p)

/-- Why an inline marker of a template cannot be used, and what is read before that turns out. -/
inductive InlineFault (s : Shelf) (rules : Rules) (d : Char) (root : Template) (marker : Marker) :
    Problem → List Path → Prop
  | malformed {fault : ReferenceFault} (misread : Misread d marker.resource fault) :
      InlineFault s rules d root marker
        (.badReference fault marker.resource rules.style.delimiter (some root.path.text)) []
  | missing {path name : Text} (parts : TwoParts d marker.resource path name)
      (gone : s.get? (root.target path) = none) : InlineFault s rules d root marker
        (.importMissing path (root.target path) root.path.text) []
  | noSection {path name : Text} (parts : TwoParts d marker.resource path name)
      (here : (s.get? (root.target path)).isSome = true)
      (absent : name ∉ rules.allowed.sections (s.text (root.target path))) :
      InlineFault s rules d root marker
        (.sectionMissing name (some (root.target path).text)) [root.target path]

/-- A computation over a shelf fails with a problem and leads from one trail to another. -/
def Fails {α : Type} (x : ExceptT Problem (StateM Trail) α) (before : Trail) (e : Problem)
    (after : Trail) : Prop := outcome x before = (.error e, after)

section Fails

variable {α β : Type} {t t' : Trail} {e : Problem}

@[simp] lemma not_fails_pure (a : α) : ¬ Fails (pure a) t e t' := by
  intro h
  cases h

@[simp] lemma fails_throw (p : Problem) :
    Fails (throw p : ExceptT Problem (StateM Trail) α) t e t' ↔ p = e ∧ t = t' := by
  constructor
  · intro h
    cases h
    exact ⟨rfl, rfl⟩
  · rintro ⟨rfl, rfl⟩
    rfl

@[simp] lemma fails_lift (r : Except Problem α) :
    Fails (lift r) t e t' ↔ r = .error e ∧ t = t' := by
  constructor
  · intro h
    cases h
    exact ⟨rfl, rfl⟩
  · rintro ⟨rfl, rfl⟩
    rfl

/-- A sequence fails if its first step does, or if that succeeds and the rest fails. -/
@[simp] lemma fails_bind {x : ExceptT Problem (StateM Trail) α}
    {f : α → ExceptT Problem (StateM Trail) β} :
    Fails (x >>= f) t e t' ↔ Fails x t e t' ∨ ∃ a u, Gives x t a u ∧ Fails (f a) u e t' := by
  unfold Fails Gives
  rw [outcome_bind]
  cases outcome x t with
  | mk r u =>
    cases r with
    | error e' => simp
    | ok a => simp

end Fails

variable {s : Shelf} {rules : Rules} {d : Char} {root : Template} {t t' : Trail} {e : Problem}

@[simp] lemma not_fails_holds (p : Path) : ¬ Fails (s.access.holds p) t e t' := not_fails_pure _

@[simp] lemma not_fails_read (p : Path) : ¬ Fails (s.access.read p) t e t' := by
  intro h
  cases h

@[simp] lemma not_fails_note (r : Record) : ¬ Fails (liftM (s.access.note r)) t e t' := by
  intro h
  cases h

lemma fails_load {resource : Text} (h : Fails (s.access.load root resource) t e t') :
    s.get? (root.target resource) = none ∧
      e = .importMissing resource (root.target resource) root.path.text ∧ t' = t := by
  unfold Access.load Access.resolve Access.noteResolved at h
  simp only [fails_bind, not_fails_read, not_fails_pure, gives_holds, not_fails_holds,
    false_or, and_false, exists_false, or_false] at h
  obtain ⟨there, u, ⟨rfl, rfl⟩, h⟩ := h
  change Fails (if (s.get? (root.target resource)).isSome = true then _ else _) _ e t' at h
  split_ifs at h with hs
  · simp only [fails_bind, not_fails_note, not_fails_pure, and_false, exists_false, or_false] at h
  · rw [fails_throw] at h
    obtain ⟨rfl, rfl⟩ := h
    exact ⟨by simpa using hs, rfl, rfl⟩

lemma fails_openTemplate {name : TemplateName} (h : Fails (s.access.openTemplate name) t e t') :
    (name.isBlank = true ∧ e = .blankTemplate ∨
      ¬ name.isBlank = true ∧ s.get? name.normal = none ∧
        e = .templateMissing name.shown name.normal) ∧ t' = t := by
  unfold Access.openTemplate at h
  split_ifs at h with hblank
  · obtain ⟨rfl, rfl⟩ := (fails_throw _).mp h
    exact ⟨.inl ⟨hblank, rfl⟩, rfl⟩
  · simp only [fails_bind, gives_holds, not_fails_holds, false_or] at h
    obtain ⟨there, u, ⟨rfl, rfl⟩, h⟩ := h
    split_ifs at h with hs
    · simp only [fails_bind, not_fails_read, not_fails_pure, and_false, exists_false,
        or_false] at h
    · obtain ⟨rfl, rfl⟩ := (fails_throw _).mp h
      exact ⟨.inr ⟨hblank, by simpa using hs, rfl⟩, rfl⟩

lemma insertAll?_cons {allowed : AllowList} (body : Text) (c : Text × Text)
    (cs : List (Text × Text)) :
    allowed.insertAll? body (c :: cs) =
      (allowed.insert? body c.1 c.2).bind fun body => allowed.insertAll? body cs := rfl

/-- Insertions under allowed names never fail. -/
lemma exists_insertAll? {allowed : AllowList} (hf : allowed.Findable) (body : Text)
    (cs : List (Text × Text)) (hcs : ∀ c ∈ cs, c.1 ∈ allowed.names) :
    ∃ body', allowed.insertAll? body cs = some body' := by
  induction cs generalizing body with
  | nil => exact ⟨body, rfl⟩
  | cons c cs ih =>
    obtain ⟨body₁, h₁⟩ := AllowList.exists_insert? hf body c.2 (hcs c List.mem_cons_self)
    obtain ⟨body', h'⟩ := ih body₁ fun d hd => hcs d (List.mem_cons_of_mem c hd)
    exact ⟨body', by rw [insertAll?_cons, h₁, Option.bind_some, h']⟩

/-- Adding the sections of a template to a body never fails. -/
lemma exists_addSections (hf : rules.allowed.Findable) (imported : Template) (body : Text) :
    ∃ body', addSections rules.allowed imported body (rules.allowed.sections imported.body) =
      .ok body' := by
  obtain ⟨body', h⟩ := exists_insertAll? hf body (rules.allowed.contributions imported.body)
    fun c hc => by
      obtain ⟨name, hn, rfl⟩ := List.mem_map.mp hc
      exact AllowList.mem_names_of_mem_sections hn
  exact ⟨body', addSections_of_insertAll? (fun _ hn => hn) h⟩

lemma wholeFilePath_eq_error {style : MarkerStyle} {resource : Text} {source : Option Text}
    (h : wholeFilePath style resource source = .error e) :
    resource.strip = [] ∧ e = .badReference .emptyPath resource style.delimiter source := by
  unfold wholeFilePath MarkerStyle.wholeFilePath at h
  cases hp : resource.strip with
  | nil =>
    rw [hp] at h
    cases h
    exact ⟨rfl, rfl⟩
  | cons c r =>
    rw [hp] at h
    cases h

/-- The whole-file pass fails at the first of its markers that cannot be used. -/
theorem fails_wholeFilePass (hf : rules.allowed.Findable) {body : Text} {markers : List Marker}
    (h : Fails (wholeFilePass s.access rules root body markers) t e t') :
    ∃ earlier marker later, markers = earlier ++ marker :: later ∧
      (∀ m ∈ earlier, Refers s root m) ∧ WholeFileFault s rules root marker e ∧
      t'.reads = t.reads ++ earlier.map fun m => root.target m.resource.strip := by
  induction markers generalizing body t with
  | nil => exact absurd h (not_fails_pure _)
  | cons marker markers ih =>
    simp only [wholeFilePass, fails_bind, fails_lift, gives_lift, gives_note, not_fails_note,
      not_fails_pure, and_false, exists_false, or_false, false_or] at h
    rcases h with ⟨hp, rfl⟩ | ⟨path, _, ⟨hp, rfl⟩, h⟩
    · obtain ⟨hblank, rfl⟩ := wholeFilePath_eq_error hp
      exact ⟨[], marker, markers, rfl, by simp, .blank hblank, by simp⟩
    obtain ⟨rfl, hstrip⟩ := wholeFilePath_eq_ok hp
    rcases h with h | ⟨imported, u, hload, h⟩
    · obtain ⟨hgone, rfl, rfl⟩ := fails_load h
      exact ⟨[], marker, markers, rfl, by simp, .missing hstrip hgone, by simp⟩
    obtain ⟨rfl, hthere, hu⟩ := gives_load hload
    obtain ⟨body₁, hadd⟩ := exists_addSections hf ⟨_, root.target marker.resource.strip⟩ body
    rcases h with ⟨hbad, _⟩ | ⟨_, _, ⟨_, rfl⟩, _, _, rfl, h⟩
    · rw [hadd] at hbad
      cases hbad
    obtain ⟨earlier, bad, later, rfl, hgood, hfault, hreads⟩ := ih h
    refine ⟨marker :: earlier, bad, later, rfl,
      List.forall_mem_cons.mpr ⟨⟨hstrip, hthere⟩, hgood⟩, hfault, ?_⟩
    simp [hreads, hu]

lemma isSome_get?_of_mem_sections {allowed : AllowList} {p : Path} {name : Text}
    (h : name ∈ allowed.sections (s.text p)) : (s.get? p).isSome = true := by
  by_contra hn
  have hs : s.text p = [] := by
    rw [Shelf.text, Option.not_isSome_iff_eq_none.mp hn]
    rfl
  rw [hs] at h
  simp [AllowList.sections, AllowList.headers, AllowList.headersFrom] at h

/-- What an inline marker brings in it leads to. -/
lemma InlineImport.follows (hd : rules.style.delimiter = [d]) {marker : Marker} {i : AppliedImport}
    (h : InlineImport s rules root marker i) : Follows s rules d root marker i.path := by
  obtain ⟨path, name, hparts, hsome, rfl⟩ := h
  have hm := AllowList.isSome_section?_iff.mp hsome
  exact ⟨path, name, (MarkerStyle.inlineParts_eq_ok_iff hd).mp hparts, rfl,
    isSome_get?_of_mem_sections hm, hm⟩

lemma inlineParts_eq_error {style : MarkerStyle} {resource : Text} {source : Option Text}
    (h : inlineParts style resource source = .error e) :
    ∃ fault, style.inlineParts resource = .error fault ∧
      e = .badReference fault resource style.delimiter source := by
  unfold inlineParts at h
  cases hp : style.inlineParts resource with
  | error fault =>
    rw [hp] at h
    cases h
    exact ⟨fault, rfl, rfl⟩
  | ok p =>
    rw [hp] at h
    cases h

lemma sectionOf_eq_error {allowed : AllowList} {imported : Template} {name : Text}
    (h : sectionOf allowed imported name = .error e) :
    name ∉ allowed.sections imported.body ∧
      e = .sectionMissing name (some imported.path.text) := by
  unfold sectionOf at h
  split at h
  · cases h
  · next hnone =>
    cases h
    exact ⟨fun hm => by simpa [hnone] using AllowList.isSome_section?_iff.mpr hm, rfl⟩

/-- The inline pass fails at the first of its markers that cannot be used. -/
theorem fails_inlinePass (hd : rules.style.delimiter = [d]) {body : Text} {markers : List Marker}
    (h : Fails (inlinePass s.access rules root body markers) t e t') :
    ∃ earlier targets marker later tried, markers = earlier ++ marker :: later ∧
      List.Forall₂ (Follows s rules d root) earlier targets ∧
      InlineFault s rules d root marker e tried ∧ t'.reads = t.reads ++ (targets ++ tried) := by
  induction markers generalizing t with
  | nil => exact absurd h (not_fails_pure _)
  | cons marker markers ih =>
    simp only [inlinePass, fails_bind, fails_lift, gives_lift, not_fails_pure, and_false,
      exists_false, or_false, Prod.exists] at h
    rcases h with ⟨hp, rfl⟩ | ⟨path, name, _, ⟨hp, rfl⟩, h⟩
    · obtain ⟨fault, hfault, rfl⟩ := inlineParts_eq_error hp
      exact ⟨[], [], marker, markers, [], rfl, .nil,
        .malformed ((MarkerStyle.inlineParts_eq_error_iff hd).mp hfault), by simp⟩
    have hparts := (MarkerStyle.inlineParts_eq_ok_iff hd).mp (inlineParts_eq_ok hp)
    rcases h with h | ⟨imported, u, hload, h⟩
    · obtain ⟨hgone, rfl, rfl⟩ := fails_load h
      exact ⟨[], [], marker, markers, [], rfl, .nil, .missing hparts hgone, by simp⟩
    obtain ⟨rfl, hthere, hu⟩ := gives_load hload
    rcases h with ⟨hbad, rfl⟩ | ⟨contents, _, ⟨hc, rfl⟩, h⟩
    · obtain ⟨habsent, rfl⟩ := sectionOf_eq_error hbad
      exact ⟨[], [], marker, markers, _, rfl, .nil, .noSection hparts hthere habsent, by simp [hu]⟩
    obtain ⟨earlier, targets, bad, later, tried, rfl, hgood, hfault, hreads⟩ := ih h
    have hm : name ∈ rules.allowed.sections (s.text (root.target path)) :=
      AllowList.isSome_section?_iff.mp (by rw [sectionOf_eq_ok.mp hc]; rfl)
    refine ⟨marker :: earlier, root.target path :: targets, bad, later, tried, rfl,
      .cons ⟨path, name, hparts, rfl, hthere, hm⟩ hgood, hfault, ?_⟩
    simp [hreads, hu]

lemma WholeFileFault.not_refers {marker : Marker} (h : WholeFileFault s rules root marker e) :
    ¬ Refers s root marker := by
  rintro ⟨hnamed, hhere⟩
  cases h with
  | blank blank => exact hnamed blank
  | missing _ gone => simp [gone] at hhere

lemma WholeFileFault.unique {marker : Marker} {e' : Problem}
    (h : WholeFileFault s rules root marker e) (h' : WholeFileFault s rules root marker e') :
    e = e' := by
  cases h with
  | blank blank =>
    cases h' with
    | blank _ => rfl
    | missing named _ => exact absurd blank named
  | missing named _ =>
    cases h' with
    | blank blank => exact absurd blank named
    | missing _ _ => rfl

lemma Follows.unique {marker : Marker} {p p' : Path} (h : Follows s rules d root marker p)
    (h' : Follows s rules d root marker p') : p = p' := by
  obtain ⟨path, name, hparts, rfl, _⟩ := h
  obtain ⟨path', name', hparts', rfl, _⟩ := h'
  rw [(hparts.unique hparts').1]

lemma InlineFault.not_follows {marker : Marker} {tried : List Path}
    (h : InlineFault s rules d root marker e tried) (p : Path) :
    ¬ Follows s rules d root marker p := by
  rintro ⟨path, name, hparts, rfl, hhere, hmem⟩
  cases h with
  | malformed misread => exact hparts.not_misread misread
  | missing parts gone =>
    obtain ⟨rfl, rfl⟩ := hparts.unique parts
    simp [gone] at hhere
  | noSection parts _ absent =>
    obtain ⟨rfl, rfl⟩ := hparts.unique parts
    exact absent hmem

lemma InlineFault.unique {marker : Marker} {tried tried' : List Path} {e' : Problem}
    (h : InlineFault s rules d root marker e tried)
    (h' : InlineFault s rules d root marker e' tried') : e = e' ∧ tried = tried' := by
  cases h with
  | malformed misread =>
    cases h' with
    | malformed misread' => exact ⟨by rw [misread.unique misread'], rfl⟩
    | missing parts _ => exact absurd misread parts.not_misread
    | noSection parts _ _ => exact absurd misread parts.not_misread
  | missing parts gone =>
    cases h' with
    | malformed misread => exact absurd misread parts.not_misread
    | missing parts' _ =>
      obtain ⟨rfl, rfl⟩ := parts.unique parts'
      exact ⟨rfl, rfl⟩
    | noSection parts' here _ =>
      obtain ⟨rfl, rfl⟩ := parts.unique parts'
      simp [gone] at here
  | noSection parts here _ =>
    cases h' with
    | malformed misread => exact absurd misread parts.not_misread
    | missing parts' gone =>
      obtain ⟨rfl, rfl⟩ := parts.unique parts'
      simp [gone] at here
    | noSection parts' _ _ =>
      obtain ⟨rfl, rfl⟩ := parts.unique parts'
      exact ⟨rfl, rfl⟩

end Merge
end TemplateSplice
