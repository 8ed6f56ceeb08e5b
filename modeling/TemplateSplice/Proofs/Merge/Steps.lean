import Mathlib.Data.List.Forall2
import Mathlib.Tactic.Lemma
import TemplateSplice.Merge.Shelf

/-! The steps of a merge over a shelf: what each of them gives when it succeeds, and which templates
it reads. A merge that succeeds splits into the opening of its root, the whole-file pass and the
inline pass. -/
namespace TemplateSplice

/-- The text at a path of a shelf, empty if there is none. -/
def Shelf.text (s : Shelf) (p : Path) : Text := (s.get? p).getD []

/-- The path that a resource means in a template. -/
def Template.target (root : Template) (resource : Text) : Path :=
  (Path.ofText root.path.text).resolve (Path.ofText resource)

/-- Bodies with texts inserted one after the other, each into the section of its name. -/
def AllowList.insertAll? (allowed : AllowList) (body : Text) (insertions : List (Text × Text)) :
    Option Text :=
  insertions.foldlM (fun body (name, contents) => allowed.insert? body name contents) body

/-- What a template adds to others, in order: for each of its headers the first text of that
name. -/
def AllowList.contributions (allowed : AllowList) (document : Text) : List (Text × Text) :=
  (allowed.sections document).map fun name =>
    (name, (allowed.section? document name).getD [])

namespace Merge

/-- The result of a computation over a shelf, and the trail that it leaves. -/
def outcome {α : Type} (x : ExceptT Problem (StateM Trail) α) (before : Trail) :
    Except Problem α × Trail := x.run.run before

/-- A computation over a shelf succeeds with a value and leads from one trail to another. -/
def Gives {α : Type} (x : ExceptT Problem (StateM Trail) α) (before : Trail) (a : α)
    (after : Trail) : Prop := outcome x before = (.ok a, after)

section Gives

variable {α β : Type} {t t' : Trail}

lemma outcome_bind (x : ExceptT Problem (StateM Trail) α)
    (f : α → ExceptT Problem (StateM Trail) β) (t : Trail) :
    outcome (x >>= f) t =
      match outcome x t with
      | (.ok a, u) => outcome (f a) u
      | (.error e, u) => (.error e, u) := by
  change (match x.run.run t with | (r, u) => ExceptT.bindCont f r u) = _
  unfold outcome
  cases x.run.run t with
  | mk r u => cases r <;> rfl

@[simp] lemma gives_pure (a b : α) : Gives (pure a) t b t' ↔ a = b ∧ t = t' := by
  constructor
  · intro h
    cases h
    exact ⟨rfl, rfl⟩
  · rintro ⟨rfl, rfl⟩
    rfl

@[simp] lemma gives_bind {x : ExceptT Problem (StateM Trail) α}
    {f : α → ExceptT Problem (StateM Trail) β} {b : β} :
    Gives (x >>= f) t b t' ↔ ∃ a u, Gives x t a u ∧ Gives (f a) u b t' := by
  unfold Gives
  rw [outcome_bind]
  cases outcome x t with
  | mk r u =>
    cases r with
    | error e =>
      constructor
      · intro h
        cases h
      · rintro ⟨_, _, h, _⟩
        cases h
    | ok a =>
      constructor
      · exact fun h => ⟨a, u, rfl, h⟩
      · rintro ⟨_, _, h, hf⟩
        cases h
        exact hf

/-- A computation gives a value if its first step succeeds and then the rest gives it. -/
lemma gives_of_steps {x : ExceptT Problem (StateM Trail) α}
    {f : α → ExceptT Problem (StateM Trail) β} {a : α} {b : β} {u : Trail} (hx : Gives x t a u)
    (hf : ∃ t', Gives (f a) u b t') : ∃ t', Gives (x >>= f) t b t' := by
  obtain ⟨t', hb⟩ := hf
  exact ⟨t', gives_bind.mpr ⟨a, u, hx, hb⟩⟩

/-- A computation succeeds if its first step does and then the rest. -/
lemma exists_gives_bind {x : ExceptT Problem (StateM Trail) α}
    {f : α → ExceptT Problem (StateM Trail) β} {a : α} {u : Trail} (hx : Gives x t a u)
    (hf : ∃ b t', Gives (f a) u b t') : ∃ b t', Gives (x >>= f) t b t' := by
  obtain ⟨b, hb⟩ := hf
  exact ⟨b, gives_of_steps hx hb⟩

@[simp] lemma gives_throw (e : Problem) (a : α) : ¬ Gives (throw e) t a t' := by
  intro h
  cases h

@[simp] lemma gives_lift (r : Except Problem α) (a : α) :
    Gives (lift r) t a t' ↔ r = .ok a ∧ t = t' := by
  constructor
  · intro h
    cases h
    exact ⟨rfl, rfl⟩
  · rintro ⟨rfl, rfl⟩
    rfl

end Gives

variable {s : Shelf} {rules : Rules} {t t' : Trail}

@[simp] lemma gives_holds (p : Path) (b : Bool) :
    Gives (s.access.holds p) t b t' ↔ (s.get? p).isSome = b ∧ t = t' := gives_pure _ _

@[simp] lemma gives_read (p : Path) (text : Text) :
    Gives (s.access.read p) t text t' ↔
      s.text p = text ∧ { t with reads := t.reads ++ [p] } = t' := by
  constructor
  · intro h
    cases h
    exact ⟨rfl, rfl⟩
  · rintro ⟨rfl, rfl⟩
    rfl

@[simp] lemma gives_note (r : Record) (u : Unit) :
    Gives (liftM (s.access.note r)) t u t' ↔ { t with records := t.records ++ [r] } = t' := by
  constructor
  · intro h
    cases h
    rfl
  · rintro rfl
    rfl

lemma gives_load {root imported : Template} {resource : Text}
    (h : Gives (s.access.load root resource) t imported t') :
    imported = ⟨s.text (root.target resource), root.target resource⟩ ∧
      (s.get? (root.target resource)).isSome = true ∧
      t'.reads = t.reads ++ [root.target resource] := by
  unfold Access.load Access.resolve Access.noteResolved at h
  simp only [gives_bind, gives_holds, gives_read, gives_pure] at h
  obtain ⟨path, u, ⟨there, v, ⟨rfl, rfl⟩, hr⟩, body, w, ⟨rfl, rfl⟩, rfl, rfl⟩ := h
  change Gives (if (s.get? (root.target resource)).isSome = true then _ else _) _ path u at hr
  split_ifs at hr with hs
  · simp only [gives_bind, gives_note, gives_pure] at hr
    obtain ⟨_, v, rfl, rfl, rfl⟩ := hr
    exact ⟨rfl, hs, rfl⟩
  · simp at hr

lemma gives_openTemplate {name : TemplateName} {root : Template}
    (h : Gives (s.access.openTemplate name) t root t') :
    ¬ name.isBlank = true ∧ (s.get? name.normal).isSome = true ∧
      root = ⟨s.text name.normal, name.normal⟩ ∧ t'.reads = t.reads ++ [name.normal] := by
  unfold Access.openTemplate at h
  split_ifs at h with hblank
  · simp at h
  · simp only [gives_bind, gives_holds] at h
    obtain ⟨there, u, ⟨rfl, rfl⟩, h⟩ := h
    split_ifs at h with hs
    · simp only [gives_bind, gives_read, gives_pure] at h
      obtain ⟨body, u, ⟨rfl, rfl⟩, rfl, rfl⟩ := h
      exact ⟨hblank, hs, rfl, rfl⟩
    · simp at h

lemma sectionOf_eq_ok {allowed : AllowList} {imported : Template} {name contents : Text} :
    sectionOf allowed imported name = .ok contents ↔
      allowed.section? imported.body name = some contents := by
  unfold sectionOf
  split <;> simp_all

lemma addTo_eq_ok {allowed : AllowList} {body name contents body' : Text} :
    addTo allowed body name contents = .ok body' ↔
      allowed.insert? body name contents = some body' := by
  unfold addTo
  split <;> simp_all

/-- Adding sections of a template is inserting the first text of each name. -/
lemma addSections_eq_ok {allowed : AllowList} {imported : Template} {body body' : Text}
    {names : List Text} (h : addSections allowed imported body names = .ok body') :
    allowed.insertAll? body (names.map fun name =>
      (name, (allowed.section? imported.body name).getD [])) = some body' := by
  induction names generalizing body with
  | nil =>
    cases h
    rfl
  | cons name names ih =>
    rw [addSections] at h
    cases hc : sectionOf allowed imported name with
    | error e =>
      rw [hc] at h
      cases h
    | ok contents =>
      rw [hc] at h
      cases ha : addTo allowed body name contents with
      | error e =>
        change (addTo allowed body name contents >>= _) = _ at h
        rw [ha] at h
        cases h
      | ok body₁ =>
        change (addTo allowed body name contents >>= _) = _ at h
        rw [ha] at h
        rw [List.map_cons, sectionOf_eq_ok.mp hc]
        change (allowed.insert? body name contents).bind _ = _
        rw [addTo_eq_ok.mp ha]
        exact ih h

/-- A whole-file marker refers to a template of the shelf. -/
def Refers (s : Shelf) (root : Template) (marker : Marker) : Prop :=
  marker.resource.strip ≠ [] ∧ (s.get? (root.target marker.resource.strip)).isSome = true

/-- What a whole-file marker of a template brings in. -/
def wholeImport (s : Shelf) (rules : Rules) (root : Template) (marker : Marker) : AppliedImport :=
  let path := root.target marker.resource.strip
  ⟨.wholeFile, marker.resource, path, rules.allowed.sections (s.text path)⟩

lemma wholeFilePath_eq_ok {style : MarkerStyle} {resource path : Text} {source : Option Text}
    (h : wholeFilePath style resource source = .ok path) :
    path = resource.strip ∧ resource.strip ≠ [] := by
  unfold wholeFilePath MarkerStyle.wholeFilePath at h
  cases hp : resource.strip with
  | nil =>
    rw [hp] at h
    cases h
  | cons c r =>
    rw [hp] at h
    cases h
    exact ⟨rfl, List.cons_ne_nil c r⟩

/-- The whole-file pass follows its markers in order and inserts what their templates add. -/
theorem gives_wholeFilePass {root : Template} {body body' : Text} {markers : List Marker}
    {imports : List AppliedImport}
    (h : Gives (wholeFilePass s.access rules root body markers) t (body', imports) t') :
    imports = markers.map (wholeImport s rules root) ∧
      t'.reads = t.reads ++ imports.map AppliedImport.path ∧
      rules.allowed.insertAll? body
        (imports.flatMap fun i => rules.allowed.contributions (s.text i.path)) = some body' ∧
      ∀ marker ∈ markers, Refers s root marker := by
  induction markers generalizing body imports t with
  | nil =>
    simp only [wholeFilePass, gives_pure, Prod.mk.injEq] at h
    obtain ⟨⟨rfl, rfl⟩, rfl⟩ := h
    simp [AllowList.insertAll?]
  | cons marker markers ih =>
    simp only [wholeFilePass, gives_bind, gives_lift, gives_note, gives_pure, Prod.exists,
      Prod.mk.injEq] at h
    obtain ⟨path, _, ⟨hp, rfl⟩, imported, u, hl, body₁, _, ⟨ha, rfl⟩, _, _, rfl, body₂, imports₂, v,
      hr, ⟨rfl, rfl⟩, rfl⟩ := h
    obtain ⟨rfl, hstrip⟩ := wholeFilePath_eq_ok hp
    obtain ⟨rfl, hthere, hu⟩ := gives_load hl
    obtain ⟨hi₂, hv, hb, hm⟩ := ih hr
    refine ⟨?_, ?_, ?_, List.forall_mem_cons.mpr ⟨⟨hstrip, hthere⟩, hm⟩⟩
    · rw [List.map_cons, ← hi₂]
      rfl
    · rw [hv, hu]
      simp
    · rw [List.flatMap_cons, AllowList.insertAll?, List.foldlM_append]
      have := addSections_eq_ok ha
      unfold AllowList.insertAll? at this hb
      unfold AllowList.contributions
      rw [this]
      exact hb

/-- An import that an inline marker of a template brings in. -/
def InlineImport (s : Shelf) (rules : Rules) (root : Template) (marker : Marker)
    (i : AppliedImport) : Prop :=
  ∃ path name, rules.style.inlineParts marker.resource = .ok (path, name) ∧
    (rules.allowed.section? (s.text (root.target path)) name).isSome = true ∧
    i = ⟨.inline, marker.resource, root.target path, [name]⟩

/-- A replacement that an inline marker of a body calls for: the section that it names, in place of
what it gives up. -/
def InlineReplacement (s : Shelf) (rules : Rules) (root : Template) (body : Text) (marker : Marker)
    (r : Replacement) : Prop :=
  ∃ path name, rules.style.inlineParts marker.resource = .ok (path, name) ∧
    rules.allowed.section? (s.text (root.target path)) name = some r.text ∧
    r.start = replacedFrom body marker ∧ r.stop = marker.stop

lemma inlineParts_eq_ok {style : MarkerStyle} {resource path name : Text} {source : Option Text}
    (h : inlineParts style resource source = .ok (path, name)) :
    style.inlineParts resource = .ok (path, name) := by
  unfold inlineParts at h
  cases hp : style.inlineParts resource with
  | error e => rw [hp] at h; cases h
  | ok p => rw [hp] at h; cases h; rfl

/-- The inline pass follows its markers in order and gives each its replacement. -/
theorem gives_inlinePass {root : Template} {body : Text} {markers : List Marker}
    {replacements : List Replacement} {imports : List AppliedImport}
    (h : Gives (inlinePass s.access rules root body markers) t (replacements, imports) t') :
    List.Forall₂ (InlineReplacement s rules root body) markers replacements ∧
      List.Forall₂ (InlineImport s rules root) markers imports ∧
      t'.reads = t.reads ++ imports.map AppliedImport.path := by
  induction markers generalizing replacements imports t with
  | nil =>
    simp only [inlinePass, gives_pure, Prod.mk.injEq] at h
    obtain ⟨⟨rfl, rfl⟩, rfl⟩ := h
    simp
  | cons marker markers ih =>
    simp only [inlinePass, gives_bind, gives_lift, gives_pure, Prod.exists, Prod.mk.injEq,
      sectionOf_eq_ok] at h
    obtain ⟨path, name, _, ⟨hp, rfl⟩, imported, u, hl, contents, _, ⟨hc, rfl⟩, replacements₂,
      imports₂, v, hr, ⟨rfl, rfl⟩, rfl⟩ := h
    obtain ⟨rfl, _, hu⟩ := gives_load hl
    obtain ⟨hr₂, hi₂, hv⟩ := ih hr
    have hp := inlineParts_eq_ok hp
    refine ⟨.cons ⟨path, name, hp, hc, rfl, rfl⟩ hr₂, .cons ⟨path, name, hp, ?_, rfl⟩ hi₂, ?_⟩
    · simp [hc]
    · rw [hv, hu]
      simp

/-- The inline pass puts the replacements of all markers into the body. -/
theorem gives_inlines {root : Template} {body content : Text} {imports : List AppliedImport}
    (h : Gives (inlines s.access rules root body) t (content, imports) t') :
    ∃ replacements, List.Forall₂ (InlineReplacement s rules root body)
        (rules.style.inlineMarkers body) replacements ∧
      List.Forall₂ (InlineImport s rules root) (rules.style.inlineMarkers body) imports ∧
      content = replaceAll body replacements ∧
      t'.reads = t.reads ++ imports.map AppliedImport.path := by
  simp only [inlines, gives_bind, gives_pure, Prod.exists, Prod.mk.injEq] at h
  obtain ⟨replacements, imports, u, hp, ⟨rfl, rfl⟩, rfl⟩ := h
  obtain ⟨hr, hi, hu⟩ := gives_inlinePass hp
  exact ⟨replacements, hr, hi, rfl, hu⟩

/-- The record of a change of stage. -/
def stageRecord (before after : Stage) : Record where
  level := Level.debug
  logger := loggerName "merger"
  message := "Merge state ".toList ++ before.name.toList ++ " -> ".toList ++ after.name.toList

/-- A stage of a merge does its work and notes the change to the next stage, or to failure. -/
lemma run_during_eq {α β : Type} (stage next : Stage) (work : ExceptT Problem (StateM Trail) α)
    (rest : α → StateM Trail (Except Problem β)) (t : Trail) :
    (during s.access stage next work rest).run t =
      match outcome work t with
      | (.ok a, u) => (rest a).run { u with records := u.records ++ [stageRecord stage next] }
      | (.error e, u) => (.error e, { u with records := u.records ++ [stageRecord stage .failed] }) := by
  unfold during outcome
  rw [StateT.run_bind]
  cases work.run.run t with
  | mk r u => cases r <;> rfl

/-- A stage of a merge that succeeds has done its work, and what comes after it has succeeded. -/
lemma run_during {α β : Type} {stage next : Stage} {work : ExceptT Problem (StateM Trail) α}
    {rest : α → StateM Trail (Except Problem β)} {b : β}
    (h : (during s.access stage next work rest).run t = (.ok b, t')) :
    ∃ a u, Gives work t a u ∧
      (rest a).run { u with records := u.records ++ [stageRecord stage next] } = (.ok b, t') := by
  rw [run_during_eq] at h
  cases ho : outcome work t with
  | mk r u =>
    rw [ho] at h
    cases r with
    | error e => cases h
    | ok a => exact ⟨a, u, ho, h⟩

/-- A stage succeeds if its work does, and then what comes after it. -/
lemma run_of_stage {α β : Type} {stage next : Stage} {work : ExceptT Problem (StateM Trail) α}
    {rest : α → StateM Trail (Except Problem β)} {a : α} {b : β} {u : Trail} (hw : Gives work t a u)
    (hr : ∃ t', (rest a).run { u with records := u.records ++ [stageRecord stage next] } =
      (.ok b, t')) :
    ∃ t', (during s.access stage next work rest).run t = (.ok b, t') := by
  rw [run_during_eq, show outcome work t = (.ok a, u) from hw]
  exact hr

/-- A merge that succeeds opens its root, adds whole templates to it and replaces the inline markers
of the body that comes of that. -/
theorem run_merge {before : Stage} {name : TemplateName} {result : Merged}
    (h : (merge s.access rules before name).run t = (.ok result, t')) :
    ∃ body whole inline t₁ t₂ t₃ t₄,
      Gives (wholeFiles s.access rules ⟨s.text name.normal, name.normal⟩) t₁ (body, whole) t₂ ∧
      Gives (inlines s.access rules ⟨s.text name.normal, name.normal⟩ body) t₃
        (result.content, inline) t₄ ∧
      result.root = name.normal ∧ result.imports = whole ++ inline ∧
      t₁.reads = t.reads ++ [name.normal] ∧ t₃.reads = t₂.reads ∧ t'.reads = t₄.reads := by
  change (during s.access .init .wholeFileMerge _ _).run
    { t with records := t.records ++ [stageRecord before .init] } = _ at h
  obtain ⟨root, t₁, ho, h⟩ := run_during h
  obtain ⟨_, _, rfl, hr⟩ := gives_openTemplate ho
  obtain ⟨⟨body, whole⟩, t₂, hw, h⟩ := run_during h
  obtain ⟨⟨content, inline⟩, t₄, hi, h⟩ := run_during h
  cases h
  exact ⟨body, whole, inline, _, t₂, _, t₄, hw, hi, rfl, rfl, hr, rfl, rfl⟩

/-- A merge that succeeds has a template for its name. -/
lemma opens_of_run_merge {before : Stage} {name : TemplateName} {result : Merged}
    (h : (merge s.access rules before name).run t = (.ok result, t')) :
    ¬ name.isBlank = true ∧ (s.get? name.normal).isSome = true := by
  change (during s.access .init .wholeFileMerge _ _).run
    { t with records := t.records ++ [stageRecord before .init] } = _ at h
  obtain ⟨root, t₁, ho, _⟩ := run_during h
  obtain ⟨hblank, hthere, _⟩ := gives_openTemplate ho
  exact ⟨hblank, hthere⟩

lemma run_of_toOption {α : Type} {x : StateM Trail (Except Problem α)} {t : Trail} {a : α}
    (h : (x.run t).1.toOption = some a) : ∃ t', x.run t = (.ok a, t') := by
  cases hx : x.run t with
  | mk r u =>
    rw [hx] at h
    cases r with
    | error e => cases h
    | ok b =>
      cases h
      exact ⟨u, rfl⟩

lemma exists_gives_of_toOption {α : Type} {x : ExceptT Problem (StateM Trail) α} {t : Trail} {a : α}
    (h : (outcome x t).1.toOption = some a) : ∃ t', Gives x t a t' := run_of_toOption h

end Merge

namespace Access

variable {m : Type → Type} [Monad m]

/-- A way to tell what actions come to: a sequence comes to what its steps come to one after the
other. -/
structure Outcome (access : Access m) where
  Is {α : Type} : ExceptT Problem m α → α → Prop
  pure {α : Type} (a : α) : Is (pure a) a
  bind {α β : Type} {x : ExceptT Problem m α} {f : α → ExceptT Problem m β} {a : α} {b : β} :
    Is x a → Is (f a) b → Is (x >>= f) b
  note (r : Record) : Is (liftM (access.note r)) ()

namespace Outcome

variable {access : Access m} (o : access.Outcome)

lemma resolve {document resource : Text}
    (h : o.Is (access.holds ((Path.ofText document).resolve (.ofText resource))) true) :
    o.Is (access.resolve document resource) ((Path.ofText document).resolve (.ofText resource)) :=
  o.bind h (o.bind (o.note _) (o.pure _))

lemma load {document : Template} {resource body : Text}
    (h : o.Is (access.holds (document.target resource)) true)
    (hread : o.Is (access.read (document.target resource)) body) :
    o.Is (access.load document resource) ⟨body, document.target resource⟩ :=
  o.bind (o.resolve h) (o.bind hread (o.pure _))

end Outcome
end Access

/-- What actions come to over a shelf, wherever its trail starts. -/
def Shelf.outcome (s : Shelf) : s.access.Outcome where
  Is x a := ∀ t, ∃ t', Merge.Gives x t a t'
  pure a t := ⟨t, rfl⟩
  bind hx hf t := by
    obtain ⟨u, hu⟩ := hx t
    exact Merge.gives_of_steps hu (hf u)
  note r t := ⟨_, (Merge.gives_note r ()).mpr rfl⟩

lemma Shelf.outcome_holds {s : Shelf} {p : Path} (h : (s.get? p).isSome = true) :
    s.outcome.Is (s.access.holds p) true := fun t => ⟨t, (Merge.gives_holds p true).mpr ⟨h, rfl⟩⟩

lemma Shelf.outcome_read (s : Shelf) (p : Path) : s.outcome.Is (s.access.read p) (s.text p) :=
  fun _ => ⟨_, (Merge.gives_read p _).mpr ⟨rfl, rfl⟩⟩

/-- The rules that come with the program. -/
def Rules.standard : Rules where
  allowed := ⟨Settings.Template.default.sections, by decide⟩
  style := Settings.Template.default.style

/-- The settings of the sample runs. -/
def Rules.sample : Rules where
  allowed := ⟨["P".toList, "Q".toList, "R".toList], by simp⟩
  style := ⟨"# @import".toList, "#".toList⟩

/-- A template that takes in another one as a whole and, in place of a line, one section of it; its
last line is a bare header. -/
def Shelf.sample : Shelf :=
  .ofList [("/a".toList, "# @import b\nR:\n  x: 1\n  # @import b#Q\nP:".toList),
    ("/b".toList, "Q: 2\nP: y\n".toList)]

/-- What comes of the sample template. -/
def Merged.sample : Merged where
  content := "# @import b\nR:\n  x: 1 2\n\nP: y\n\nQ: 2\n".toList
  root := .ofText "/a".toList
  imports :=
    [⟨.wholeFile, "b".toList, .ofText "/b".toList, ["Q".toList, "P".toList]⟩,
      ⟨.inline, "b#Q".toList, .ofText "/b".toList, ["Q".toList]⟩]

lemma merge_sample :
    ∃ t, (merge Shelf.sample.access Rules.sample .init (.text "/a".toList)).run .empty =
      (.ok Merged.sample, t) :=
  Merge.run_of_toOption (by decide +kernel)

end TemplateSplice
