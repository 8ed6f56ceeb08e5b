import TemplateSplice.Proofs.Command.Requested
import TemplateSplice.Proofs.Merge.Markers

/-! A listing of a template next to a merge of it. Where the merge succeeds, every marker of the template
leads somewhere: a whole-file marker since it was followed, and an inline marker since it was still there
when inline markers were looked for. So nothing in the listing is broken, and it tells of imports that
took place. -/
namespace TemplateSplice

namespace Command

/-- What a listing prints. -/
def listing (output : Output) (path : Path) (names : List Text) (imports : List ListedImport) : Text :=
  if output.asJson then
    output.json (.object
      [("path", .str path.render),
       ("sections", .strings (names.map String.ofList)),
       ("imports", .array (imports.map ListedImport.json))])
  else
    let list := if names = [] then "(none)".toList else Text.joinWith [',', ' '] names
    let lines := [path.text, "Sections: ".toList ++ list] ++
      (if imports.isEmpty then ["Imports: (none)".toList] else imports.map ListedImport.text)
    lines.flatMap (· ++ ['\n'])

lemma printListing_eq {m : Type → Type} [Monad m] (host : Host m) (output : Output)
    (template : Template) (names : List Text) (imports : List ListedImport) :
    printListing host output template names imports =
      print host (listing output template.path names imports) := by
  unfold printListing listing
  split_ifs <;> rfl

/-- A marker of a template is listed as an import that leads to a path. -/
def ListedAs (style : MarkerStyle) (root : Template) (marker : Marker) (i : ListedImport) : Prop :=
  ∃ path name, referenced style marker root.path.text = .ok (path, name) ∧
    i = ⟨lineNumber root.body marker.start, marker.kind, marker.resource, name,
      .ok (root.target path)⟩

/-- A listing agrees with what a merge did: none of its imports is broken, the whole-file ones are those
of the merge, and the inline ones are among those of the merge, in the same order. -/
structure Agrees (listed : List ListedImport) (applied : List AppliedImport) : Prop where
  sound : ∀ i ∈ listed, i.isBroken = false
  wholeFile : (listed.filter (·.kind = .wholeFile)).map (fun i => (i.resource, i.target)) =
    (applied.filter (·.kind = .wholeFile)).map fun i => (i.resource, .ok i.path)
  inline : ((listed.filter (·.kind = .inline)).map fun i => (i.resource, i.target, i.name.toList)).Sublist
    ((applied.filter (·.kind = .inline)).map fun i => (i.resource, .ok i.path, i.sections))

variable {style : MarkerStyle} {root : Template} {marker : Marker} {i : ListedImport}

lemma ListedAs.kind (h : ListedAs style root marker i) : i.kind = marker.kind := by
  obtain ⟨_, _, _, rfl⟩ := h
  rfl

lemma ListedAs.sound (h : ListedAs style root marker i) : i.isBroken = false := by
  obtain ⟨_, _, _, rfl⟩ := h
  rfl

lemma referenced_wholeFile (hk : marker.kind = .wholeFile) (hn : marker.resource.strip ≠ [])
    (source : Text) :
    referenced style marker source = .ok (marker.resource.strip, none) := by
  unfold referenced Merge.wholeFilePath MarkerStyle.wholeFilePath
  rw [hk]
  dsimp only
  split
  · contradiction
  · rfl

lemma referenced_inline (hk : marker.kind = .inline) {path name : Text}
    (hp : style.inlineParts marker.resource = .ok (path, name)) (source : Text) :
    referenced style marker source = .ok (path, some name) := by
  unfold referenced Merge.inlineParts
  rw [hk, hp]
  rfl

lemma inlineParts_of_referenced (hk : marker.kind = .inline) {source path : Text} {name : Option Text}
    (h : referenced style marker source = .ok (path, name)) :
    ∃ name', style.inlineParts marker.resource = .ok (path, name') ∧ name = some name' := by
  unfold referenced at h
  rw [hk] at h
  dsimp only at h
  cases hp : Merge.inlineParts style marker.resource (some source) with
  | error e =>
    rw [hp] at h
    cases h
  | ok p =>
    rw [hp] at h
    cases h
    exact ⟨p.2, Merge.inlineParts_eq_ok hp, rfl⟩

/-- An inline resource of a template tells of an import: the resource, the path and the section. -/
def TellsOf (style : MarkerStyle) (root : Template) (resource : Text)
    (told : Text × Except String Path × List Text) : Prop :=
  ∃ path name, style.inlineParts resource = .ok (path, name) ∧
    told = (resource, .ok (root.target path), [name])

lemma rightUnique_tellsOf : Relator.RightUnique (TellsOf style root) := by
  rintro resource _ _ ⟨path, name, h, rfl⟩ ⟨path', name', h', rfl⟩
  cases h.symm.trans h'
  rfl

lemma ListedAs.tellsOf (h : ListedAs style root marker i) (hk : marker.kind = .inline) :
    TellsOf style root marker.resource (i.resource, i.target, i.name.toList) := by
  obtain ⟨path, _, hr, rfl⟩ := h
  obtain ⟨name, hp, rfl⟩ := inlineParts_of_referenced hk hr
  exact ⟨path, name, hp, rfl⟩

/-- Inline markers are listed as imports that their resources tell of. -/
lemma tellsOf_listed {markers : List Marker} {listed : List ListedImport}
    (hl : List.Forall₂ (ListedAs style root) markers listed)
    (hk : ∀ marker ∈ markers, marker.kind = .inline) :
    List.Forall₂ (TellsOf style root) (markers.map Marker.resource)
      (listed.map fun i => (i.resource, i.target, i.name.toList)) := by
  induction hl with
  | nil => exact .nil
  | cons h _ ih =>
    obtain ⟨hkind, hk⟩ := List.forall_mem_cons.mp hk
    exact .cons (h.tellsOf hkind) (ih hk)

/-- Whole-file markers that refer to templates are listed as the imports that they bring in. -/
lemma map_listed {s : Shelf} (rules : Rules) {markers : List Marker} {listed : List ListedImport}
    (hl : List.Forall₂ (ListedAs style root) markers listed)
    (hk : ∀ marker ∈ markers, marker.kind = .wholeFile)
    (hr : ∀ marker ∈ markers, Merge.Refers s root marker) :
    listed.map (fun i => (i.resource, i.target)) =
      (markers.map (Merge.wholeImport s rules root)).map fun i => (i.resource, .ok i.path) := by
  induction hl with
  | nil => rfl
  | cons h _ ih =>
    obtain ⟨hkind, hk⟩ := List.forall_mem_cons.mp hk
    obtain ⟨⟨hn, _⟩, hr⟩ := List.forall_mem_cons.mp hr
    obtain ⟨_, _, href, rfl⟩ := h
    rw [referenced_wholeFile hkind hn] at href
    cases href
    rw [List.map_cons, List.map_cons, List.map_cons, ih hk hr]
    rfl

end Command

namespace Merge

open Command

variable {s : Shelf} {rules : Rules} {d : Char} {root : Template} {body content : Text}
  {whole inline : List AppliedImport} {t t' u u' : Trail}

/-- A merge that succeeds has a template for every marker of its root, and reports it. -/
theorem exists_referenced (hs : rules.style.StartsWith d) (hd : rules.style.delimiter = [d])
    (hc : rules.allowed.Clear d)
    (hw : Gives (wholeFiles s.access rules root) t (body, whole) t')
    (hi : Gives (inlines s.access rules root body) u (content, inline) u') :
    ∀ marker ∈ rules.style.markers root.body, ∃ path name,
      referenced rules.style marker root.path.text = .ok (path, name) ∧
        (s.get? (root.target path)).isSome = true ∧
        root.target path ∈ (whole ++ inline).map AppliedImport.path := by
  intro marker hm
  cases hk : marker.kind with
  | wholeFile =>
    obtain ⟨himports, _, _, hrefers⟩ := gives_wholeFilePass hw
    have hmarker : marker ∈ rules.style.wholeFileMarkers root.body :=
      List.mem_filter.mpr ⟨hm, by simp [hk]⟩
    obtain ⟨hn, hthere⟩ := hrefers marker hmarker
    have himport : wholeImport s rules root marker ∈ whole ++ inline :=
      List.mem_append_left _ (himports ▸ List.mem_map_of_mem hmarker)
    exact ⟨_, _, referenced_wholeFile hk hn _, hthere, List.mem_map_of_mem himport⟩
  | inline =>
    -- The marker itself need not be followed, but one with its resource is.
    have hmem : marker.resource ∈ rules.style.inlineResources root.body :=
      List.mem_map_of_mem (List.mem_filter.mpr ⟨hm, by simp [hk]⟩)
    obtain ⟨marker', hm', hr⟩ := List.mem_map.mp ((sublist_inlineResources hs hd hc hw hi).mem hmem)
    obtain ⟨_, _, himports, _⟩ := gives_inlines hi
    obtain ⟨i, himem, himport⟩ : ∃ i ∈ inline, InlineImport s rules root marker' i :=
      exists_of_mem_forall₂ himports.flip hm'
    obtain ⟨path, name, hparts, hp, hthere, _⟩ := himport.follows hd
    rw [hr] at hparts
    exact ⟨path, some name,
      referenced_inline hk (MarkerStyle.inlineParts_of_twoParts hd hparts) _, hp ▸ hthere,
      hp ▸ List.mem_map_of_mem (List.mem_append_right _ himem)⟩

/-- The listing of a template agrees with a merge of it that succeeds. -/
theorem agrees_of_gives (hs : rules.style.StartsWith d) (hd : rules.style.delimiter = [d])
    (hc : rules.allowed.Clear d)
    (hw : Gives (wholeFiles s.access rules root) t (body, whole) t')
    (hi : Gives (inlines s.access rules root body) u (content, inline) u')
    {listed : List ListedImport}
    (hl : List.Forall₂ (ListedAs rules.style root) (rules.style.markers root.body) listed) :
    Agrees listed (whole ++ inline) := by
  obtain ⟨rfl, _, _, hrefers⟩ := gives_wholeFilePass hw
  obtain ⟨_, _, himports, _⟩ := gives_inlines hi
  have hkind : ∀ kind : MarkerKind,
      ∀ marker ∈ (rules.style.markers root.body).filter (·.kind = kind), marker.kind = kind :=
    fun kind marker hm => by simpa using (List.mem_filter.mp hm).2
  have hfiltered : ∀ kind : MarkerKind, List.Forall₂ (ListedAs rules.style root)
      ((rules.style.markers root.body).filter (·.kind = kind)) (listed.filter (·.kind = kind)) :=
    fun kind => List.rel_filter (fun marker i h => by simp [h.kind]) hl
  refine ⟨fun i hm => ?_, ?_, ?_⟩
  · obtain ⟨_, _, h⟩ := exists_of_mem_forall₂ hl hm
    exact h.sound
  · rw [filter_wholeFile himports]
    exact map_listed rules (hfiltered .wholeFile) (hkind .wholeFile) hrefers
  · rw [filter_inline himports]
    refine sublist_of_forall₂ rightUnique_tellsOf (sublist_inlineResources hs hd hc hw hi)
      (tellsOf_listed (hfiltered .inline) (hkind .inline))
      (List.forall₂_map_left_iff.mpr (List.forall₂_map_right_iff.mpr (himports.imp ?_)))
    rintro marker i ⟨path, name, hp, _, rfl⟩
    exact ⟨path, name, hp, rfl⟩

end Merge

/-- The names that settings allow hold no number sign, if the settings satisfy the schema. -/
lemma Rules.clear_of_ofSettings {settings : Value} (hs : Schema.settings.Admits settings)
    {fields : Settings.TemplateFields} (hf : Settings.TemplateFields.ofSettings settings = .ok fields)
    {rules : Rules} (hr : Rules.ofSettings (fields.texts?.getD .default) = .ok rules) :
    rules.allowed.Clear '#' ∧ rules.style = (fields.texts?.getD .default).style := by
  unfold Rules.ofSettings AllowList.ofList? at hr
  split_ifs at hr with hn
  cases hr
  refine ⟨fun name hname hmem => ?_, rfl⟩
  have hmem : '#' ∈ name := by simpa [AllowList.headerText] using hmem
  exact absurd (Pattern.isAlphanum_or_of_accepts_name (Settings.accepts_of_texts? hs hf name hname) _ hmem)
    (by decide)

/-- The paths of the templates that a merge has read. -/
def Merged.templates (result : Merged) : List Path := result.root :: result.imports.map AppliedImport.path

namespace Machine

open Command

variable {machine : Machine} {equipment : Equipment} {S : States} {encoding : Text} {root : Template}
  {style : MarkerStyle}

/-- A marker that refers to a file is listed as an import of it. -/
lemma answers_listImport (hframe : Frame equipment S) {marker : Marker} {path : Text} {name : Option Text}
    (hr : referenced style marker root.path.text = .ok (path, name))
    (hthere : AnswersIn S (host.holdsFile (root.target path)) (.ok true)) :
    ∃ i, ListedAs style root marker i ∧
      AnswersIn S (listImport (host.templates encoding) style root marker) (.ok i) := by
  have hresolve : AnswersIn S ((host.templates encoding).resolve root.path.text path)
      (.ok (root.target path)) := (hframe.outcome encoding).resolve hthere
  refine ⟨_, ⟨path, name, hr, rfl⟩, ?_⟩
  unfold listImport
  dsimp only
  rw [hr]
  exact (answers_observe hresolve).bind (answers_pure _)

lemma answers_listImports (hframe : Frame equipment S) (encoding : Text) (style : MarkerStyle)
    (root : Template) (markers : List Marker)
    (h : ∀ marker ∈ markers, ∃ path name, referenced style marker root.path.text = .ok (path, name) ∧
      AnswersIn S (host.holdsFile (root.target path)) (.ok true)) :
    ∃ listed, List.Forall₂ (ListedAs style root) markers listed ∧
      AnswersIn S (markers.mapM (listImport (host.templates encoding) style root)) (.ok listed) := by
  induction markers with
  | nil => exact ⟨[], .nil, answers_pure _⟩
  | cons marker markers ih =>
    obtain ⟨⟨path, name, hr, hthere⟩, hrest⟩ := List.forall_mem_cons.mp h
    obtain ⟨i, hi, hanswer⟩ := answers_listImport hframe hr hthere
    obtain ⟨listed, hl, hanswers⟩ := ih hrest
    refine ⟨i :: listed, .cons hi hl, ?_⟩
    rw [List.mapM_cons]
    exact hanswer.bind (hanswers.bind (answers_pure _))

variable {request : Request}

/-- The template of a request is opened, if it is offered while the log is kept. -/
lemma answers_openRequested (hopens : ∀ p, givenPath request.logFile = some p → machine.OpensLog p)
    {settings : Value} {fields : Settings.TemplateFields} {text : Text}
    (hs : Answers machine (Command.loadSettings host request) (.ok settings))
    (hf : Settings.TemplateFields.ofSettings settings = .ok fields)
    (hnamed : ¬ (templateNameIn machine.cwd (request.file.getD [])).isBlank = true)
    (h : OffersIn (Logged machine request) (fields.texts?.getD .default).encoding
      (templateNameIn machine.cwd (request.file.getD [])).normal text) :
    AnswersFrom (At machine) (Logged machine request) (openRequested host request)
      (.ok (fields.texts?.getD .default, ⟨text, (templateNameIn machine.cwd (request.file.getD [])).normal⟩)) :=
  hs.bind ((answers_configure_logged hopens settings).bind ((answers_templateSettings hf).bind
    ((answers_templateName (fun _ _ hs => hs.since.still.cwd) _).bind
      ((answers_openTemplate hnamed h).bind (answers_pure _)))))

/-- The command prints its listing and ends with zero, if nothing in the listing is broken and the output takes
it. -/
lemma prints_runInspect {template : Settings.Template} {rules : Rules} {listed : List ListedImport}
    (hopen : AnswersFrom (At machine) (Logged machine request) (openRequested host request)
      (.ok (template, root)))
    (hr : Rules.ofSettings template = .ok rules)
    (hl : AnswersIn (Logged machine request) ((rules.style.markers root.body).mapM
      (listImport (host.templates template.encoding) rules.style root)) (.ok listed))
    (hsound : ∀ i ∈ listed, i.isBroken = false)
    (htaken : machine.equipment.outputLimit machine.output (listing (.ofMode request.asJson) root.path
      (rules.allowed.sections root.body) listed) = none) :
    PrintsFrom (At machine) (Logged machine request) (runInspect host request) 0
      (listing (.ofMode request.asJson) root.path (rules.allowed.sections root.body) listed) := by
  have hcode : (if listed.any ListedImport.isBroken then 1 else 0) = 0 := by simpa using hsound
  unfold runInspect reporting
  refine (answers_observe hopen).prints_bind ?_
  dsimp only
  refine AnswersFrom.prints_bind (hr ▸ answers_liftExcept _) (hl.prints_bind ?_)
  rw [printListing_eq, hcode]
  refine prints_print (fun _ _ hs => ?_) _
  have hstill := hs.since.still
  rw [hstill.equipment, hstill.output, htaken]

end Machine

/-- Inspecting a template and merging it agree, on every machine, for the default token and delimiter, if the log
files are none of the templates and the second one can be opened. If the merge succeeds, the command that lists
ends with zero; it lists every marker of the template, and that agrees with what the merge reports. Where the
merge keeps a log the tree is grounded, since opening the log may make directories. -/
theorem inspect_agrees_with_merge (machine : Machine) (merging inspecting : Command.Request)
    (settings : Value) (template : Settings.Template) (result : Merged)
    (hfile : inspecting.file = merging.file) (hsettings : inspecting.settings = merging.settings)
    (hlog : Machine.LogsApart machine merging result.templates)
    (hlog' : Machine.LogsApart machine inspecting result.templates)
    (hground : (Command.givenPath merging.logFile).isSome = true → machine.tree.Grounded)
    (hopens : ∀ p, Command.givenPath inspecting.logFile = some p → machine.OpensLog p)
    (hstyle : template.style = Settings.Template.default.style)
    (h : Machine.Yields machine (Command.mergeRequested Machine.host merging)
      (settings, template, result)) :
    ∃ body names listed,
      Machine.Offers machine template.encoding result.root body ∧
      List.Forall₂ (Command.ListedAs template.style ⟨body, result.root⟩)
        (template.style.markers body) listed ∧
      (machine.equipment.outputLimit machine.output
          (Command.listing (.ofMode inspecting.asJson) result.root names listed) = none →
        Machine.PrintsFrom (Machine.At machine) (Machine.Logged machine inspecting)
          (Command.runInspect Machine.host inspecting) 0
          (Command.listing (.ofMode inspecting.asJson) result.root names listed)) ∧
      Command.Agrees listed result.imports := by
  obtain ⟨fields, rules, hs, hf, htemplate, hr, hmerge⟩ := Machine.gets_of_mergeRequested h
  obtain ⟨hclear, hrules⟩ := Rules.clear_of_ofSettings
    (Machine.admits_of_requestedSettings hs.yields) hf (htemplate.symm ▸ hr)
  rw [htemplate] at hrules
  have hstarts : rules.style.StartsWith '#' := hrules.trans hstyle ▸ startsWith_standard
  have hdelimiter : rules.style.delimiter = ['#'] := by rw [hrules, hstyle]; rfl
  obtain ⟨s, hstocks, hrun⟩ := Machine.exists_shelf_of_gets_merge (Machine.frame_logged machine merging)
    Machine.isPlace_normal_templateNameIn hmerge (Machine.faithful_logged hlog hground)
  obtain ⟨t', hrun⟩ := hrun .empty
  obtain ⟨hnamed, hthere⟩ := Merge.opens_of_run_merge hrun
  obtain ⟨body, whole, inline, _, _, _, _, hw, hi, hroot, himports, _⟩ := Merge.run_merge hrun
  have hplace := Machine.isPlace_normal_templateNameIn hnamed
  rw [← hfile] at hnamed hthere hplace hw hi hroot
  obtain ⟨listed, hl, hanswers⟩ := Machine.answers_listImports (Machine.frame_logged machine inspecting)
    template.encoding rules.style ⟨s.text _, _⟩ (rules.style.markers (s.text _)) fun marker hm => by
      obtain ⟨path, section?, href, htarget, hmem⟩ :=
        Merge.exists_referenced hstarts hdelimiter hclear hw hi marker hm
      rw [← himports] at hmem
      exact ⟨path, section?, href, (Machine.offersIn_logged hlog' (List.mem_cons_of_mem _ hmem)
        (Template.isPlace_target hplace path) (hstocks.offers htarget)).holds⟩
  have hload : Command.loadSettings Machine.host inspecting =
      Command.loadSettings Machine.host merging := by
    unfold Command.loadSettings
    rw [hsettings]
  rw [← hload] at hs
  have hoffers := hstocks.offers hthere
  have hopen := Machine.answers_openRequested hopens hs hf hnamed
    (Machine.offersIn_logged hlog' (hroot ▸ List.mem_cons_self) hplace (htemplate.symm ▸ hoffers))
  rw [htemplate] at hopen
  have hagrees := Merge.agrees_of_gives hstarts hdelimiter hclear hw hi hl
  have hprints := Machine.prints_runInspect hopen hr hanswers hagrees.sound
  rw [hrules] at hl
  rw [hroot, himports]
  exact ⟨_, _, listed, hoffers, hl, hprints, hagrees⟩

/-- A machine with a template that refers to another one as a whole and for a section. -/
def Machine.paired : Machine where
  tree :=
    ⟨[(["a".toList], .file (Utf8.encode "# @import b\nOutputs:\n# @import b#Resources\n".toList)),
      (["b".toList], .file (Utf8.encode "Resources:\n".toList))]⟩
  cwd := []
  temporary := []
  environment := []
  freshNames := 0
  output := []
  errors := []
  equipment := .standard

/-- The request for the template that refers to the other one. -/
def Command.Request.paired : Command.Request := { empty with file := some "a".toList }

/-- What comes of that template. -/
def Merged.paired : Merged where
  content := "# @import b\nOutputs:\n\nResources:\n".toList
  root := .ofText "/a".toList
  imports :=
    [⟨.wholeFile, "b".toList, .ofText "/b".toList, ["Resources".toList]⟩,
      ⟨.inline, "b#Resources".toList, .ofText "/b".toList, ["Resources".toList]⟩]

lemma answers_paired : Machine.Answers .paired (Command.mergeRequested Machine.host .paired)
    (.ok (Settings.bundled, .default, .paired)) := by
  have hname : Machine.Yields .paired (Command.templateName Machine.host "a".toList)
      (.text "/a".toList) := Machine.yields_of_toOption (by decide +kernel)
  have hmerge : Machine.Yields .paired (ExceptT.mk (merge
      (Machine.host.templates Settings.Template.default.encoding) .standard .init (.text "/a".toList)))
      .paired := Machine.yields_of_toOption (by decide +kernel)
  exact Machine.answers_mergeRequested rfl (Machine.answers_requestedSettings rfl rfl)
    (Machine.answers_pure _) rfl (hname.answers (Machine.looks_templateName _))
    (hmerge.answers (Machine.looks_merge _ _ _ _ _))

/-- The request to list its imports, with a log beside it. -/
def Command.Request.listed : Command.Request :=
  { paired with asJson := true, logFile := some "log".toList }

lemma logReady_paired : Machine.LogReady .paired (.ofText "log".toList) where
  clean := by decide
  parent := rfl
  file := ⟨_, rfl⟩

theorem inspect_agrees_with_merge_paired :
    ∃ body names listed,
      Machine.Offers .paired "utf-8".toList (.ofText "/a".toList) body ∧
      List.Forall₂ (Command.ListedAs Rules.standard.style ⟨body, .ofText "/a".toList⟩)
        (Rules.standard.style.markers body) listed ∧
      Machine.PrintsFrom (Machine.At .paired) (Machine.Logged .paired .listed)
        (Command.runInspect Machine.host .listed) 0
        (Command.listing (.ofMode true) (.ofText "/a".toList) names listed) ∧
      Command.Agrees listed Merged.paired.imports := by
  have hlog : Machine.LogsApart .paired .paired Merged.paired.templates := by
    rintro _ ⟨_, hp, _⟩
    cases hp
  have hlog' : Machine.LogsApart .paired .listed Merged.paired.templates := by
    rintro _ ⟨_, hp, rfl⟩
    cases hp
    decide
  obtain ⟨body, names, listed, hoffers, hl, hprints, hagrees⟩ :=
    inspect_agrees_with_merge .paired .paired .listed Settings.bundled .default .paired rfl rfl hlog hlog'
      nofun (fun _ hp => Option.some.inj hp ▸ logReady_paired.opensLog) rfl answers_paired.yields
  exact ⟨body, names, listed, hoffers, hl, hprints rfl, hagrees⟩

end TemplateSplice
