import TemplateSplice.Proofs.Command.Copied
import TemplateSplice.Proofs.Host.Loading
import TemplateSplice.Proofs.Host.MergeFailing
import TemplateSplice.Proofs.Settings.View

/-! Exit codes. A command does its work, and where that fails it prints the problem and ends with one,
if it is a problem of its own or of the system. What escapes has few reasons: settings that cannot be
loaded, an encoding that there is not or whose codec fails, a null character in a name, an import in a
listing whose name is too long to be asked for, and an output that does not take what is printed. -/
namespace TemplateSplice

open Machine Command

namespace Command

variable {m : Type → Type} [Monad m]

/-- Lists a template; the answer is one if an import leads nowhere. -/
def listTemplate (host : Host m) (output : Output) (settings : Settings.Template)
    (template : Template) : Action m Nat := do
  let rules ← Host.liftExcept (Rules.ofSettings settings)
  let imports ← (rules.style.markers template.body).mapM
    (listImport (host.templates settings.encoding) rules.style template)
  printListing host output template (rules.allowed.sections template.body) imports
  pure (if imports.any ListedImport.isBroken then 1 else 0)

/-- The work of a command, with nothing told of what goes wrong. -/
def work (host : Host m) (call : Call) : Action m Nat :=
  let request := call.request
  let output := Output.ofMode request.asJson
  match call.verb with
  | .merge => do
    let (settings, template, result) ← mergeRequested host request
    writeMerged host request output settings template.encoding result
    pure 0
  | .inspect => do
    let (settings, template) ← openRequested host request
    listTemplate host output settings template

lemma runInspect_eq (host : Host m) (request : Request) :
    runInspect host request = reporting host (.ofMode request.asJson)
      (failureWord? "inspect_error" "read_error") (openRequested host request)
      fun (settings, template) => listTemplate host (.ofMode request.asJson) settings template := rfl

/-- The problems that have a word are those that are printed. -/
lemma isSome_failureWord? (own system : String) {e : Problem} :
    (failureWord? own system e.report.kind).isSome = true ↔ e.IsPrinted := by
  unfold failureWord? Problem.IsPrinted
  split_ifs with hown hsystem <;> simp [*]

end Command

namespace Command

/-- A null character that a command gets into the name of a file. -/
inductive NullGiven (machine : Machine) (request : Request) : Prop
  | logFile {p : Path} (given : givenPath request.logFile = some p) (null : p.HasNull) :
      NullGiven machine request
  | output {p : Path} (given : givenPath request.output = some p) (null : p.HasNull) :
      NullGiven machine request
  | workingDirectory (null : machine.workingPath.HasNull) : NullGiven machine request
  | temporaryDirectory (null : machine.temporaryPath.HasNull) : NullGiven machine request
  /-- The settings have it in what temporary files start or end with. -/
  | temporaryName {settings : Value} {start stop : Text}
      (loads : Answers machine (loadSettings host request) (.ok settings))
      (parts : Answers machine (temporaryParts settings) (.ok (start, stop)))
      (null : '\x00' ∈ start ∨ '\x00' ∈ stop) : NullGiven machine request

/-- Why a command ends with a problem that it does not print. -/
inductive Escapes (machine : Machine) (call : Call) : Problem → Prop
  /-- The settings cannot be loaded, and this is no problem of the settings. -/
  | settings {e : Problem} (unloadable :
      Unloadable machine machine.environment (givenPath call.request.settings) e) :
      Escapes machine call e
  /-- There is no encoding of the name that the settings give. -/
  | unknownEncoding {settings : Value} {template : Settings.Template}
      (loads : Answers machine (loadSettings host call.request) (.ok settings))
      (view : Answers machine (templateSettings settings) (.ok template))
      (unknown : machine.equipment.codecOf? template.encoding = none) :
      Escapes machine call (.unknownEncoding template.encoding)
  | nullInEncoding {settings : Value} {template : Settings.Template}
      (loads : Answers machine (loadSettings host call.request) (.ok settings))
      (view : Answers machine (templateSettings settings) (.ok template))
      (null : '\x00' ∈ template.encoding) : Escapes machine call .nullInEncoding
  /-- A codec cannot read some bytes, and does not call them undecodable. -/
  | unreadable {settings : Value} {template : Settings.Template} {codec : Codec} {bytes : Bytes}
      {fault : Foreign} (loads : Answers machine (loadSettings host call.request) (.ok settings))
      (view : Answers machine (templateSettings settings) (.ok template))
      (named : machine.equipment.codecOf? template.encoding = some codec)
      (fails : codec.decode bytes = .error (.foreign fault)) : Escapes machine call (.foreign fault)
  /-- A codec cannot write the result, though it has read all of it. No encoding of the program's own is
  like that. -/
  | unwritable {settings : Value} {template : Settings.Template} {result : Merged} {codec : Codec}
      {fault : CodecFault EncodeFault} (merges : call.verb = .merge)
      (merged : (ending (mergeRequested host call.request) .fresh machine).1.1 =
        .ok (settings, template, result))
      (foreign : Encoding.ofName? template.encoding = none)
      (named : machine.equipment.codecOf? template.encoding = some codec)
      (fails : codec.stream [result.content] = .error fault) :
      Escapes machine call (Host.encodeProblem fault)
  | nullInName (given : NullGiven machine call.request) : Escapes machine call (.disk .nullInName)
  /-- A template that is listed refers to a name that is too long. -/
  | target {template : Settings.Template} {root : Template} {marker : Marker} {path : Text}
      {name : Option Text} (lists : call.verb = .inspect)
      (opens : (ending (openRequested host call.request) .fresh machine).1.1 = .ok (template, root))
      (marked : marker ∈ template.style.markers root.body)
      (refers : referenced template.style marker root.path.text = .ok (path, name))
      (long : FileTree.TooLong (root.target path).text) :
      Escapes machine call (.disk (.refused .nameTooLong (root.target path).text none))
  /-- The output has no characters for what is to be told of a result. -/
  | notice {settings : Value} {template : Settings.Template} {result : Merged} {place : Option Path}
      {count : Nat} {fault : EncodeFault} (merges : call.verb = .merge)
      (merged : (ending (mergeRequested host call.request) .fresh machine).1.1 =
        .ok (settings, template, result))
      (refused : machine.equipment.outputLimit machine.output
        (notice call.request (.ofMode call.request.asJson) result place) =
          some (count, .unencodable fault)) :
      Escapes machine call (.stream (.unencodable fault))
  /-- The output does not take a listing. -/
  | listing {template : Settings.Template} {root : Template} {names : List Text}
      {imports : List ListedImport} {count : Nat} {fault : StreamFault} (lists : call.verb = .inspect)
      (opens : (ending (openRequested host call.request) .fresh machine).1.1 = .ok (template, root))
      (refused : machine.equipment.outputLimit machine.output
        (listing (.ofMode call.request.asJson) root.path names imports) = some (count, fault)) :
      Escapes machine call (.stream fault)

/-- How a command ends, next to how its work ends. -/
inductive Exits (machine : Machine) (call : Call) :
    (Except Problem Nat × Journal) × Machine → (Except Problem Nat × Journal) × Machine → Prop
  /-- What is done has its own answer, which is one only for a listing with an import that leads
  nowhere. -/
  | done {code : Nat} {journal : Journal} {u : Machine}
      (known : code = 0 ∨ code = 1 ∧ call.verb = .inspect) :
      Exits machine call ((.ok code, journal), u) ((.ok code, journal), u)
  /-- A problem is printed. -/
  | printed {e : Problem} {journal : Journal} {u : Machine} (printed : e.IsPrinted) (word : String) :
      Exits machine call ((.error e, journal), u) ((.ok 1, journal), { u with
        errors := u.errors ++ (Output.ofMode call.request.asJson).failure e.report none word })
  /-- A problem is to be printed, and the stream of the errors does not take it. -/
  | unprinted {e : Problem} {journal : Journal} {u : Machine} (printed : e.IsPrinted) (word : String)
      {count : Nat} {fault : StreamFault}
      (refused : u.equipment.errorLimit u.errors
        ((Output.ofMode call.request.asJson).failure e.report none word) = some (count, fault)) :
      Exits machine call ((.error e, journal), u) ((.error (.stream fault), journal), { u with
        errors := u.errors ++
          ((Output.ofMode call.request.asJson).failure e.report none word).take count })
  | escaped {e : Problem} {journal : Journal} {u : Machine} (escapes : Escapes machine call e) :
      Exits machine call ((.error e, journal), u) ((.error e, journal), u)

end Command

section

variable {machine : Machine} {call : Call} {settings : Value} {e : Problem}

lemma Problem.OfDisk.printed_or_escapes {P : Prop} (h : Problem.OfDisk P e)
    (hnull : P → NullGiven machine call.request) : e.IsPrinted ∨ Escapes machine call e := by
  cases h with
  | system system => exact .inl (.inr system)
  | nullInName null => exact .inr (.nullInName (hnull null))

lemma Problem.OfTemplate.printed_or_escapes {template : Settings.Template}
    (h : Problem.OfTemplate machine.equipment template.encoding e)
    (hloads : Answers machine (Command.loadSettings host call.request) (.ok settings))
    (hview : Answers machine (templateSettings settings) (.ok template)) :
    e.IsPrinted ∨ Escapes machine call e := by
  cases h with
  | printed printed => exact .inl printed
  | unknownEncoding unknown => exact .inr (.unknownEncoding hloads hview unknown)
  | nullInEncoding null => exact .inr (.nullInEncoding hloads hview null)
  | codec named fails => exact .inr (.unreadable hloads hview named fails)

end

namespace Machine

variable {α β : Type} {machine u : Machine} {journal j : Journal} {call : Call} {settings : Value}

section Preparing

/-- Loading the settings of a command has an answer, and a problem that it ends with is printed or
escapes. -/
lemma exists_answer_requestedSettings (machine : Machine) (call : Call) :
    ∃ result, Answers machine (Command.loadSettings host call.request) result ∧
      ∀ e, result = .error e → e.IsPrinted ∨ Escapes machine call e := by
  obtain ⟨result, hanswer, hloaded⟩ :=
    exists_loaded machine machine.environment (givenPath call.request.settings)
  refine ⟨result, answers_environment.bind hanswer, fun e he => ?_⟩
  refine (hloaded.reported e he).imp (fun hkind => .inl ?_) .settings
  rw [hkind]
  rfl

lemma ensures_configure_error (request : Request) (settings : Value) :
    Ensures journal machine (configure host request settings) fun r _ _ => ∀ e, r = .error e →
      Problem.OfDisk (∃ p, givenPath request.logFile = some p ∧
        (p.HasNull ∨ machine.workingPath.HasNull)) e := by
  unfold configure
  dsimp only
  split
  · exact (ensures_modify _).imp fun r _ _ hr e he => by cases hr.1.symm.trans he
  · exact ensures_configureJournal_error _ _

/-- Under the settings of a command there are rules to merge by, and they have a delimiter. -/
lemma exists_rules_of_loads {template : Settings.Template}
    (hloads : Answers machine (Command.loadSettings host call.request) (.ok settings))
    (hview : Answers machine (templateSettings settings) (.ok template)) :
    ∃ rules,
      (Host.liftExcept (Rules.ofSettings template) : Action (StateM Machine) Rules) = pure rules ∧
      rules.style = template.style ∧ template.style.delimiter ≠ [] := by
  obtain ⟨rules, hrules, hstyle⟩ := exists_rules_of_templateSettings hview
  obtain ⟨fields, hfields, rfl⟩ := exists_of_templateSettings hview.yields
  rw [hrules]
  exact ⟨rules, rfl, hstyle,
    Settings.delimiter_ne_nil (admits_of_requestedSettings hloads.yields) hfields⟩

/-- What holds of how a command deals with a template holds of the command, if it holds of problems that
are printed or escape. -/
lemma ensures_prepared {f : Value → Settings.Template → Action (StateM Machine) α}
    {R : Except Problem α → Prop}
    (hf : ∀ settings template j u, Since (IsLog machine call.request) machine j u →
      Answers machine (Command.loadSettings host call.request) (.ok settings) →
      Answers machine (templateSettings settings) (.ok template) →
        Ensures j u (f settings template) fun r _ _ => R r)
    (herror : ∀ e, e.IsPrinted ∨ Escapes machine call e → R (.error e)) :
    Ensures .fresh machine (Command.loadSettings host call.request >>= fun settings =>
      configure host call.request settings >>= fun _ => templateSettings settings >>= f settings)
      fun r _ _ => R r := by
  obtain ⟨result, hanswer, hfail⟩ := exists_answer_requestedSettings machine call
  obtain ⟨j, errors, hending⟩ := hanswer.exists_ending
  cases result with
  | error e =>
    unfold Ensures
    rw [ending_bind, hending]
    exact herror e (hfail e rfl)
  | ok settings =>
    have hsince : Since (IsLog machine call.request) machine j { machine with errors := errors } := by
      have hs := (looks_requestedSettings call.request).ensures (at_fresh machine)
      unfold Ensures at hs
      rw [hending] at hs
      exact ⟨hs.1.within, hs.2.1, .refl _ _⟩
    refine ensures_bind_of_ok hending ?_
    refine ((ensures_configure_error call.request settings).and
      (leaves_configure machine settings j _ hsince)).bind (fun _ j' u' h => ?_)
        fun e j' u' h => herror e ((h.1 e rfl).printed_or_escapes ?_)
    · obtain ⟨fields, hfields⟩ :=
        Settings.exists_templateFields (admits_of_requestedSettings hanswer.yields)
      have hpure : templateSettings settings =
          (pure (fields.texts?.getD .default) : Action (StateM Machine) Settings.Template) := by
        unfold templateSettings
        rw [hfields]
      rw [hpure, pure_bind]
      exact hf settings _ j' u' h.2.1 hanswer (hpure ▸ answers_pure _)
    · rintro ⟨p, hp, hnull | hnull⟩
      · exact .logFile hp hnull
      · exact .workingDirectory hnull

/-- What a sequence gives is what its last step gives. -/
lemma ensures_bind_ok {x : Action (StateM Machine) α} {f : α → Action (StateM Machine) β} {Q : β → Prop}
    (hf : ∀ a j u, Ensures j u (f a) fun r _ _ => ∀ b, r = .ok b → Q b) :
    Ensures journal machine (x >>= f) fun r _ _ => ∀ b, r = .ok b → Q b :=
  Ensures.bind (Q := fun _ _ _ => True) trivial (fun a j u _ => hf a j u) fun _ _ _ _ => nofun

/-- Merging fails with a problem that is printed or escapes, and succeeds under settings that were
loaded. -/
lemma ensures_mergeRequested_cases (machine : Machine) (call : Call) :
    Ensures .fresh machine (mergeRequested host call.request) fun r _ _ =>
      (∀ e, r = .error e → e.IsPrinted ∨ Escapes machine call e) ∧
        ∀ parts, r = .ok parts →
          Answers machine (Command.loadSettings host call.request) (.ok parts.1) := by
  unfold mergeRequested
  refine ensures_prepared (R := fun r => (∀ e, r = .error e → _) ∧ ∀ parts, r = .ok parts → _)
    (fun settings template j u hs hloads hview => Ensures.and ?_ ?_) fun e he => ⟨?_, nofun⟩
  · obtain ⟨rules, hrules, hstyle, hdelimiter⟩ := exists_rules_of_loads hloads hview
    rw [← hstyle] at hdelimiter
    rw [hrules, pure_bind]
    have hmerge : Keeps (Since (IsLog machine call.request) machine)
        (templateName host (call.request.file.getD []) >>= fun name =>
          ExceptT.lift (merge (host.templates template.encoding) rules .init name) >>= fun outcome =>
            Host.liftExcept outcome >>= fun result => pure (settings, template, result))
        (fun _ => True) (Problem.OfTemplate machine.equipment template.encoding) := by
      refine (keeps_templateName _).bind fun name _ => ?_
      rw [lift_bind_liftExcept]
      exact ((keeps_merge (frame_since _ _) .init name).imp_error fun _ he => he hdelimiter).bind
        fun _ _ => keeps_pure trivial
    exact (hmerge j u hs).imp fun r _ _ h e he => (h.2.2 e he).printed_or_escapes hloads hview
  · refine ensures_bind_ok fun _ _ _ => ensures_bind_ok fun _ _ _ => ensures_bind_ok fun _ _ _ =>
      ensures_bind_ok fun _ _ _ => ensures_pure ?_
    rintro _ ⟨⟩
    exact hloads
  · rintro _ ⟨⟩
    exact he

/-- Opening a template fails with a problem that is printed or escapes, and succeeds under settings that
were loaded. -/
lemma ensures_openRequested_cases (machine : Machine) (call : Call) :
    Ensures .fresh machine (openRequested host call.request) fun r _ _ =>
      (∀ e, r = .error e → e.IsPrinted ∨ Escapes machine call e) ∧
        ∀ parts, r = .ok parts → ∃ settings,
          Answers machine (Command.loadSettings host call.request) (.ok settings) ∧
            Answers machine (templateSettings settings) (.ok parts.1) := by
  unfold openRequested
  refine ensures_prepared (R := fun r => (∀ e, r = .error e → _) ∧ ∀ parts, r = .ok parts → _)
    (fun settings template j u hs hloads hview => Ensures.and ?_ ?_) fun e he => ⟨?_, nofun⟩
  · have hopen : Keeps (Since (IsLog machine call.request) machine)
        (templateName host (call.request.file.getD []) >>= fun name =>
          (host.templates template.encoding).openTemplate name >>= fun root => pure (template, root))
        (fun _ => True) (Problem.OfTemplate machine.equipment template.encoding) :=
      (keeps_templateName _).bind fun name _ =>
        (keeps_openTemplate (frame_since _ _) name).bind fun _ _ => keeps_pure trivial
    exact (hopen j u hs).imp fun r _ _ h e he => (h.2.2 e he).printed_or_escapes hloads hview
  · refine ensures_bind_ok fun _ _ _ => ensures_bind_ok fun _ _ _ => ensures_pure ?_
    rintro _ ⟨⟩
    exact ⟨settings, hloads, hview⟩
  · rintro _ ⟨⟩
    exact he

end Preparing

section Writing

variable {template : Settings.Template} {result : Merged} {free : Location → Prop}

/-- Writing the result of a merge fails because the system refuses it, or it escapes. -/
lemma ensures_writeMerged_cases (hsince : Since free machine j u) (hmerges : call.verb = .merge)
    (hmerged : (ending (mergeRequested host call.request) .fresh machine).1.1 =
      .ok (settings, template, result)) :
    Ensures j u (writeMerged host call.request (.ofMode call.request.asJson) settings template.encoding
      result) fun r _ _ => ∀ e, r = .error e →
        e.report.kind.isSystem = true ∨ Escapes machine call e := by
  have hloads := (ensures_mergeRequested_cases machine call).2 _ hmerged
  obtain ⟨⟨hnull, _, hknown⟩, honly⟩ := (ensures_mergeRequested machine call.request).2 _ hmerged
  have hworking : u.workingPath = machine.workingPath := by
    unfold workingPath
    rw [hsince.still.cwd]
  have htemporary : u.temporaryPath = machine.temporaryPath := by
    unfold temporaryPath
    rw [hsince.still.temporary]
  refine (ensures_writeMerged_error (P := NullGiven machine call.request) _ result
    (fun p hp hnull => .output hp hnull) (fun hnull => .workingDirectory (hworking ▸ hnull))
    (fun hnull => .temporaryDirectory (htemporary ▸ hnull))
    fun start stop hparts hnull => .temporaryName hloads (hparts ▸ answers_pure _) hnull).imp
      fun r _ _ h e he => ?_
  rw [hsince.still.equipment, hsince.still.output] at h
  rcases h e he with hstoring | ⟨place, count, fault, hrefused, rfl⟩
  · cases hstoring with
    | view view =>
      obtain ⟨fields, hfields⟩ :=
        Settings.exists_outputFields (admits_of_requestedSettings hloads.yields)
      cases hfields.symm.trans view
    | writing writing =>
      cases writing with
      | disk disk =>
        cases disk with
        | system system => exact .inl system
        | nullInName null => exact .inr (.nullInName null)
      | nullInEncoding null => exact absurd null hnull
      | unknownEncoding unknown => cases hknown.symm.trans unknown
      | codec named fails =>
        have hforeign := ofName?_eq_none_of_stream honly named fails
        exact .inr (.unwritable hmerges hmerged hforeign named fails)
  · cases fault with
    | refused kind => exact .inl rfl
    | unencodable fault => exact .inr (.notice hmerges hmerged hrefused)

end Writing

section Listing

variable {template : Settings.Template} {root : Template} {marker : Marker} {style : MarkerStyle}
  {encoding : Text}

/-- A marker that refers to nothing is a problem of the program's own. -/
lemma isOwn_of_referenced (hdelimiter : style.delimiter ≠ []) {source : Text} {e : Problem}
    (h : referenced style marker source = .error e) : e.report.kind.isOwn = true := by
  unfold referenced at h
  split at h
  · cases hp : Merge.inlineParts style marker.resource (some source) with
    | error e' =>
      rw [hp] at h
      cases h
      exact Merge.isOwn_of_inlineParts hdelimiter hp
    | ok parts =>
      rw [hp] at h
      cases h
  · cases hp : Merge.wholeFilePath style marker.resource (some source) with
    | error e' =>
      rw [hp] at h
      cases h
      exact Merge.isOwn_of_wholeFilePath hp
    | ok path =>
      rw [hp] at h
      cases h

/-- Listing an import fails only if its name is too long. -/
lemma keeps_listImport {S : States} {equipment : Equipment} (hframe : Frame equipment S)
    (hdelimiter : style.delimiter ≠ []) (root : Template) (marker : Marker) :
    Keeps S (listImport (host.templates encoding) style root marker) (fun _ => True) fun e => ∃ path name,
      referenced style marker root.path.text = .ok (path, name) ∧
        e = .disk (.refused .nameTooLong (root.target path).text none) ∧
          FileTree.TooLong (root.target path).text := by
  unfold listImport
  dsimp only
  split
  · rename_i problem hproblem
    rw [if_pos (isOwn_of_referenced hdelimiter hproblem)]
    exact keeps_pure trivial
  · rename_i path name hrefers
    refine (keeps_resolve hframe root path).observe_bind (fun _ _ => keeps_pure trivial) fun e he => ?_
    dsimp only
    split_ifs with hown
    · exact keeps_pure trivial
    · obtain ⟨rfl, hlong⟩ := he.resolve_left hown
      exact keeps_throw ⟨path, name, hrefers, rfl, hlong⟩

/-- Listing a template ends with zero or one, or it escapes. -/
lemma ensures_listTemplate {free : Location → Prop} (hsince : Since free machine j u)
    (hlists : call.verb = .inspect)
    (hopens : (ending (openRequested host call.request) .fresh machine).1.1 = .ok (template, root)) :
    Ensures j u (listTemplate host (.ofMode call.request.asJson) template root) fun r _ _ =>
      (∀ code, r = .ok code → code = 0 ∨ code = 1) ∧ ∀ e, r = .error e → Escapes machine call e := by
  obtain ⟨settings, hloads, hview⟩ := (ensures_openRequested_cases machine call).2 _ hopens
  obtain ⟨rules, hrules, hstyle, hdelimiter⟩ := exists_rules_of_loads hloads hview
  rw [← hstyle] at hdelimiter
  have himports : Keeps (Since free machine) ((rules.style.markers root.body).mapM
      (listImport (host.templates template.encoding) rules.style root)) (fun _ => True)
      (Escapes machine call) := by
    refine keeps_mapM fun marker hmarker =>
      (keeps_listImport (frame_since _ _) hdelimiter root marker).imp_error ?_
    rintro _ ⟨path, name, hrefers, rfl, hlong⟩
    rw [hstyle] at hmarker hrefers
    exact .target hlists hopens hmarker hrefers hlong
  unfold listTemplate
  rw [hrules, pure_bind]
  refine (himports j u hsince).bind (fun imports j' u' h => ?_) fun e j' u' h =>
    ⟨nofun, fun e' he' => Except.error.inj he' ▸ h.2.2 e rfl⟩
  rw [printListing_eq]
  have hprint : Ensures j' u' (Command.print host (listing (.ofMode call.request.asJson) root.path
      (rules.allowed.sections root.body) imports)) _ := ensures_print_error _
  rw [h.1.still.equipment, h.1.still.output] at hprint
  refine hprint.bind (fun _ _ _ _ => ensures_pure ⟨?_, nofun⟩) fun e _ _ h => ⟨nofun, fun e' he' => ?_⟩
  · rintro _ ⟨⟩
    split_ifs
    · exact .inr rfl
    · exact .inl rfl
  · obtain ⟨count, fault, hrefused, rfl⟩ := h e rfl
    exact Except.error.inj he' ▸ .listing hlists hopens hrefused

end Listing

section Reporting

/-- Where problems are reported, an action that goes on ends next to one that does not report them. -/
lemma exits_reporting {x : Action (StateM Machine) α} {next work : α → Action (StateM Machine) Nat}
    {word? : ProblemKind → Option String}
    (herror : ∀ e, (ending x journal u).1.1 = .error e →
      match word? e.report.kind with
      | some _ => e.IsPrinted
      | none => Escapes machine call e)
    (hnext : ∀ a j v, ending x journal u = ((.ok a, j), v) →
      Exits machine call (ending (work a) j v) (ending (next a) j v)) :
    Exits machine call (ending (x >>= work) journal u)
      (ending (reporting host (.ofMode call.request.asJson) word? x next) journal u) := by
  obtain ⟨⟨⟨r, j⟩, v⟩, hx⟩ : ∃ end_, ending x journal u = end_ := ⟨_, rfl⟩
  unfold reporting
  rw [ending_bind, hx, ending_bind_of_ok (ending_observe hx)]
  cases r with
  | ok a => exact hnext a j v hx
  | error e =>
    have hword := herror e (by rw [hx])
    dsimp only
    split
    · rename_i word hsome
      rw [hsome] at hword
      have hprint := ending_printError ((Output.ofMode call.request.asJson).failure e.report none word) j v
      unfold Command.printError
      rw [ending_bind, hprint]
      cases hlimit : v.equipment.errorLimit v.errors
          ((Output.ofMode call.request.asJson).failure e.report none word) with
      | none => exact .printed hword word
      | some limit => exact .unprinted hword word hlimit
    · rename_i hnone
      rw [hnone] at hword
      exact .escaped hword

lemma printed_or_escapes_of_failureWord? {own system : String} {e : Problem}
    (h : e.IsPrinted ∨ Escapes machine call e) :
    match failureWord? own system e.report.kind with
    | some _ => e.IsPrinted
    | none => Escapes machine call e := by
  split
  · rename_i word hsome
    exact (isSome_failureWord? _ _).mp (Option.isSome_of_eq_some hsome)
  · rename_i hnone
    refine h.resolve_left fun hprinted => ?_
    rw [← isSome_failureWord? own system, hnone] at hprinted
    cases hprinted

lemma exits_runMerge (machine : Machine) (hmerges : call.verb = .merge) :
    Exits machine call (ending (work host call) .fresh machine)
      (ending (runMerge host call.request) .fresh machine) := by
  have hcases := ensures_mergeRequested_cases machine call
  have hresult := ensures_mergeRequested machine call.request
  unfold work runMerge
  rw [hmerges]
  refine exits_reporting (fun e he => printed_or_escapes_of_failureWord? (hcases.1 e he))
    fun parts j u hending => ?_
  obtain ⟨settings, template, result⟩ := parts
  have hmerged : (ending (mergeRequested host call.request) .fresh machine).1.1 =
      .ok (settings, template, result) := by rw [hending]
  unfold Ensures at hresult
  rw [hending] at hresult
  refine exits_reporting (fun e herror => ?_) fun _ _ _ _ => .done (.inl rfl)
  have hcases := ensures_writeMerged_cases hresult.1 hmerges hmerged e herror
  by_cases hsystem : e.report.kind.isSystem = true
  · rw [if_pos hsystem]
    exact .inr hsystem
  · rw [if_neg hsystem]
    exact hcases.resolve_left hsystem

lemma exits_runInspect (machine : Machine) (hlists : call.verb = .inspect) :
    Exits machine call (ending (work host call) .fresh machine)
      (ending (runInspect host call.request) .fresh machine) := by
  have hcases := ensures_openRequested_cases machine call
  unfold work
  rw [hlists, runInspect_eq]
  refine exits_reporting (fun e he => printed_or_escapes_of_failureWord? (hcases.1 e he))
    fun parts j u hending => ?_
  obtain ⟨template, root⟩ := parts
  have hsince := ensures_openRequested machine call.request
  have hopens : (ending (openRequested host call.request) .fresh machine).1.1 = .ok (template, root) := by
    rw [hending]
  unfold Ensures at hsince
  rw [hending] at hsince
  have hlisted := ensures_listTemplate hsince hlists hopens
  unfold Ensures at hlisted
  dsimp only
  obtain ⟨⟨⟨r, j'⟩, v⟩, hend⟩ : ∃ end_,
    ending (listTemplate host (.ofMode call.request.asJson) template root) j u = end_ := ⟨_, rfl⟩
  rw [hend] at hlisted ⊢
  cases r with
  | ok code => exact .done ((hlisted.1 code rfl).imp_right fun h => ⟨h, hlists⟩)
  | error e => exact .escaped (hlisted.2 e rfl)

end Reporting

section Loading

variable {e : Problem}

lemma Unloadable.not_isPrinted {environment : List (Text × Text)} {given : Option Path}
    (h : Unloadable machine environment given e) : ¬ e.IsPrinted := by
  unfold Problem.IsPrinted
  rw [h.kind.1, h.kind.2]
  nofun

lemma Unloadable.answers_work
    (h : Unloadable machine machine.environment (givenPath call.request.settings) e) :
    Answers machine (work host call) (.error e) := by
  have hloads : Answers machine (Command.loadSettings host call.request) (.error e) :=
    answers_environment.bind h.answers
  unfold work
  cases call.verb with
  | merge => exact AnswersFrom.bind_error (hloads.bind_error _) _
  | inspect => exact AnswersFrom.bind_error (hloads.bind_error _) _

end Loading

end Machine

/-- Exit codes. A command ends as its work does, with zero, or with one for a listing with an import
that leads nowhere. Where its work fails it prints the problem and ends with one, unless the problem
escapes for one of the known reasons; and settings that cannot be loaded for such a reason do make it
escape. -/
theorem run_exits (machine : Machine) (dialect : Dialect) (line : List Text) (call : Call)
    (hline : Call.ofLine dialect line = .ok call) :
    Exits machine call (ending (work host call) .fresh machine)
        (ending (run host dialect line) .fresh machine) ∧
      ∀ e, Unloadable machine machine.environment (givenPath call.request.settings) e →
        (ending (run host dialect line) .fresh machine).1.1 = .error e := by
  have hexits : Exits machine call (ending (work host call) .fresh machine)
      (ending (run host dialect line) .fresh machine) := by
    unfold run
    rw [hline]
    dsimp only
    cases hverb : call.verb with
    | merge => exact exits_runMerge machine hverb
    | inspect => exact exits_runInspect machine hverb
  refine ⟨hexits, fun e he => ?_⟩
  obtain ⟨j, errors, hending⟩ := he.answers_work.exists_ending
  rw [hending] at hexits
  generalize ending (run host dialect line) .fresh machine = final at hexits ⊢
  cases hexits with
  | printed printed => exact absurd printed he.not_isPrinted
  | unprinted printed => exact absurd printed he.not_isPrinted
  | escaped => rfl

/-- A template that is missing is reported. -/
theorem run_exits_missing :
    Exits (.single []) ⟨.merge, { Request.empty with file := some "b.yml".toList }, false⟩
        (ending (work host ⟨.merge, { Request.empty with file := some "b.yml".toList }, false⟩) .fresh
          (.single []))
        (ending (run host .late ["merge".toList, "b.yml".toList]) .fresh (.single [])) ∧
      (ending (run host .late ["merge".toList, "b.yml".toList]) .fresh (.single [])).1.1.toOption = some 1 ∧
      (ending (run host .late ["merge".toList, "b.yml".toList]) .fresh (.single [])).2.errors =
        "Error: Could not find '/b.yml' on disk\n".toList :=
  ⟨(run_exits (.single []) .late ["merge".toList, "b.yml".toList] _ rfl).1, by decide +kernel,
    by decide +kernel⟩

/-- A template that refers to a name of three hundred characters. -/
def Machine.lengthy : Machine :=
  .single (Utf8.encode ("# @import ".toList ++ List.replicate 300 'n' ++ ['\n']))

/-- Listing such a template ends without an exit code. -/
theorem not_run_exits_with_code :
    ¬ ∀ (machine : Machine) (dialect : Dialect) (line : List Text) (call : Call),
      Call.ofLine dialect line = .ok call →
      ∃ code, (ending (run host dialect line) .fresh machine).1.1 = .ok code ∧ (code = 0 ∨ code = 1) := by
  intro h
  obtain ⟨code, hcode, -⟩ := h .lengthy .late ["inspect".toList, "a.yml".toList] _ rfl
  have hnone : (ending (run host .late ["inspect".toList, "a.yml".toList]) .fresh
      .lengthy).1.1.toOption = none := by decide +kernel
  rw [hcode] at hnone
  cases hnone

end TemplateSplice
