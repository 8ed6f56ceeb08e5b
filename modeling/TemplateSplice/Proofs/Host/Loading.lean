import TemplateSplice.Proofs.Disk.Refusal
import TemplateSplice.Proofs.Host.Reading
import TemplateSplice.Proofs.Schema.Names

/-! Loading of settings. It ends with settings that satisfy the schema, with a problem of the settings,
or with one of the few problems that are none of the settings' own: bytes that cannot be decoded, a reader of
YAML that fails in a way of its own, numbers that cannot be computed or shown, and a home directory that is
not known. -/
namespace TemplateSplice.Machine

variable {machine : Machine} {environment : List (Text × Text)} {given : Option Path}

section Homes

/-- The home directory of a user, if it is known. The environment may name that of the user who runs the
program. -/
def homeOf (machine : Machine) (user : Text) : Except Problem (Option Text) :=
  match user, Host.valueIn? machine.environment Host.homeVariable with
  | [], some home => .ok (some home)
  | _, _ => if '\x00' ∈ user then .error (.disk .nullInName) else .ok (machine.equipment.home user)

/-- A path seen from a home directory if it starts with a tilde. -/
def expandHome (machine : Machine) (path : Path) : Except Problem Path :=
  match Host.tilde? path with
  | none => .ok path
  | some (user, segments) => machine.homeOf user >>= fun home => Host.fromHome home segments

/-- The settings file, if there is to be one. -/
def settingsFile (machine : Machine) (environment : List (Text × Text)) (given : Option Path) :
    Except Problem (Option Path) :=
  match Host.settingsPath? environment given with
  | none => .ok none
  | some path => (machine.expandHome path).map some

lemma answers_homeOf (machine : Machine) (user : Text) :
    Answers machine (host.homeOf user) (machine.homeOf user) := by
  have hknown : Answers machine
      (if '\x00' ∈ user then throw (.disk .nullInName) else Host.run (host.home user))
      (if '\x00' ∈ user then .error (.disk .nullInName) else .ok (machine.equipment.home user)) := by
    split_ifs
    · exact answers_throw _
    · exact answers_know (f := (·.equipment.home user)) fun _ => rfl
  unfold Host.homeOf homeOf
  refine answers_environment.bind ?_
  cases user with
  | cons c r => exact hknown
  | nil =>
    cases Host.valueIn? machine.environment Host.homeVariable with
    | some home => exact answers_pure (some home)
    | none => exact hknown

lemma answers_expandHome (machine : Machine) (path : Path) :
    Answers machine (host.expandHome path) (machine.expandHome path) := by
  unfold Host.expandHome expandHome
  cases Host.tilde? path with
  | none => exact answers_pure _
  | some start =>
    obtain ⟨user, segments⟩ := start
    have hhome := answers_homeOf machine user
    dsimp only
    cases hr : machine.homeOf user with
    | error problem =>
      rw [hr] at hhome
      exact hhome.bind_error _
    | ok home =>
      rw [hr] at hhome
      exact hhome.bind (answers_liftExcept _)

lemma answers_settingsFile (machine : Machine) (environment : List (Text × Text))
    (given : Option Path) :
    Answers machine (host.settingsFile environment given) (settingsFile machine environment given) := by
  unfold Host.settingsFile settingsFile
  cases Host.settingsPath? environment given with
  | none => exact answers_pure _
  | some path =>
    have hexpand := answers_expandHome machine path
    dsimp only
    cases hr : machine.expandHome path with
    | error problem =>
      rw [hr] at hexpand
      exact hexpand.bind_error _
    | ok path' =>
      rw [hr] at hexpand
      exact hexpand.bind (answers_pure _)

/-- What is wrong with the name of a settings file is a home directory that is not known, or a user who
can have none. -/
lemma settingsFile_eq_error {problem : Problem}
    (h : settingsFile machine environment given = .error problem) :
    problem = .noHome ∨ problem = .disk .nullInName := by
  unfold settingsFile at h
  split at h
  · cases h
  · unfold expandHome at h
    split at h
    · cases h
    · next user segments _ =>
      cases hr : machine.homeOf user with
      | error problem' =>
        rw [hr] at h
        obtain rfl : problem' = problem := Except.error.inj h
        unfold homeOf at hr
        split at hr
        · cases hr
        · split_ifs at hr
          exact .inr (Except.error.inj hr).symm
      | ok home =>
        rw [hr] at h
        change (Host.fromHome home segments).map some = _ at h
        unfold Host.fromHome at h
        split at h
        · exact .inl (Except.error.inj h).symm
        · exact .inl (Except.error.inj h).symm
        · cases h

end Homes

/-- The settings of the program under those of a file, before the environment is looked at. -/
inductive Layers (machine : Machine) : Option Path → Value → Prop
  | bundled : Layers machine none Settings.bundled
  | file {p : Path} {bytes : Bytes} {t : Text} {cut : Option DecodeFault} {v : Value}
      {members : Members} (reads : machine.tree.readFile machine.cwd p.text = .ok bytes)
      (decodes : Blocks.decode bytes = (t, cut)) (parses : machine.equipment.yaml t cut = .ok v)
      (mapping : v = .object members ∨ v = .null ∧ members = []) :
      Layers machine (some p) (Settings.layerValue Settings.bundled (.object members))

/-- Why the bytes of a settings file hold no settings, where this is not reported as a problem of the
settings. -/
inductive Unreadable (machine : Machine) (p : Path) : Problem → Prop
  /-- They are no text where the reader of YAML gets to. -/
  | undecodable {bytes : Bytes} {t : Text} {cut : Option DecodeFault} {fault : DecodeFault}
      (reads : machine.tree.readFile machine.cwd p.text = .ok bytes)
      (decodes : Blocks.decode bytes = (t, cut))
      (stops : machine.equipment.yaml t cut = .error (.undecodable fault)) :
      Unreadable machine p (.undecodable fault)
  /-- The reader of YAML fails, and does not call the text malformed. -/
  | foreign {bytes : Bytes} {t : Text} {cut : Option DecodeFault} {fault : Foreign}
      (reads : machine.tree.readFile machine.cwd p.text = .ok bytes)
      (decodes : Blocks.decode bytes = (t, cut))
      (stops : machine.equipment.yaml t cut = .error (.foreign fault)) :
      Unreadable machine p (.foreign fault)

/-- Such a problem is neither one of the program's own nor one of the system. -/
lemma Unreadable.kind {p : Path} {problem : Problem} (h : Unreadable machine p problem) :
    problem.report.kind.isOwn = false ∧ problem.report.kind.isSystem = false := by
  cases h with
  | undecodable => exact ⟨rfl, rfl⟩
  | @foreign _ _ _ fault => exact ⟨fault.not_own, fault.not_system⟩

/-- Why loading settings ends with a problem that is not reported as one of the settings. -/
inductive Unloadable (machine : Machine) (environment : List (Text × Text)) (given : Option Path) :
    Problem → Prop
  /-- Its name starts from a home directory that is not known. -/
  | noHome (path : settingsFile machine environment given = .error .noHome) :
      Unloadable machine environment given .noHome
  /-- Its name starts from the home directory of a user whose name holds a null character. -/
  | nullInName (path : settingsFile machine environment given = .error (.disk .nullInName)) :
      Unloadable machine environment given (.disk .nullInName)
  | file {p : Path} {problem : Problem}
      (path : settingsFile machine environment given = .ok (some p))
      (unreadable : Unreadable machine p problem) : Unloadable machine environment given problem
  /-- A variable that looks like a whole number gives none. -/
  | number {p : Option Path} {settings overridden : Value} {fault : Settings.NumberFault}
      (path : settingsFile machine environment given = .ok p) (layers : Layers machine p settings)
      (overrides : Settings.override settings environment = (overridden, some (.number fault))) :
      Unloadable machine environment given (.override (.number fault))
  /-- A number in a value that breaks the schema is too long to be shown. -/
  | unshowable {p : Option Path} {settings overridden : Value} {violation : Schema.Violation}
      (path : settingsFile machine environment given = .ok p) (layers : Layers machine p settings)
      (overrides : Settings.override settings environment = (overridden, none))
      (breaks : violation ∈ Schema.settings.violations overridden)
      (hidden : ¬ violation.isShowable = true) : Unloadable machine environment given .unshowable

lemma Unloadable.kind {problem : Problem} (h : Unloadable machine environment given problem) :
    problem.report.kind.isOwn = false ∧ problem.report.kind.isSystem = false := by
  cases h with
  | file _ unreadable => exact unreadable.kind
  | _ => exact ⟨rfl, rfl⟩

lemma Unloadable.kind_ne_config {problem : Problem}
    (h : Unloadable machine environment given problem) : problem.report.kind ≠ .config := by
  intro hconfig
  have hown := h.kind.1
  rw [hconfig] at hown
  cases hown

section File

variable {p : Path} {bytes : Bytes}

lemma answers_read (machine : Machine) (name : Text) : Answers machine (Host.attempt (host.read name))
    ((machine.tree.readFile machine.cwd name).mapError .disk) := by
  have hread := answers_look machine fun t cwd => t.readFile cwd name
  unfold Host.attempt
  cases hr : machine.tree.readFile machine.cwd name with
  | ok bytes => exact (hr ▸ hread).bind (answers_pure bytes)
  | error fault => exact (hr ▸ hread).bind (answers_throw _)

/-- A name that leads to an entry is there. -/
lemma answers_holds_of_lookup {entry : Entry} (h : machine.tree.lookup machine.cwd p.text = .ok entry) :
    Answers machine (host.holds p) (.ok true) := by
  have hlook := answers_look machine fun t cwd =>
    (t.lookup cwd p.text).map fun entry => decide (entry = Entry.directory)
  rw [h] at hlook
  have hdirectory : Answers machine (host.directory? p.text)
      (.ok (some (decide (entry = Entry.directory)))) := hlook.bind (answers_pure _)
  exact hdirectory.bind (answers_pure _)

/-- A name that leads to no entry is not there, unless the system refuses it for another reason. -/
lemma answers_holds_of_fault {fault : Fault}
    (h : machine.tree.lookup machine.cwd p.text = .error fault) :
    Answers machine (host.holds p)
      (if fault.isAbsence then .ok false else .error (.disk fault)) := by
  have hlook := answers_look machine fun t cwd =>
    (t.lookup cwd p.text).map fun entry => decide (entry = Entry.directory)
  rw [h] at hlook
  unfold Host.holds Host.directory?
  cases ha : fault.isAbsence with
  | true =>
    refine AnswersFrom.bind (a := none) (hlook.bind ?_) (answers_pure _)
    dsimp only [Except.map]
    rw [if_pos ha]
    exact answers_pure _
  | false =>
    refine AnswersFrom.bind_error (hlook.bind ?_) _
    dsimp only [Except.map]
    rw [if_neg (by simp [ha])]
    exact answers_throw _

section Yaml

variable {t : Text} {cut : Option DecodeFault}

/-- A file that is there is read as YAML by the reader that the machine is equipped with. -/
lemma answers_parseYaml (hreads : machine.tree.readFile machine.cwd p.text = .ok bytes)
    (hdecodes : Blocks.decode bytes = (t, cut)) :
    Answers machine (host.parseYaml p) ((machine.equipment.yaml t cut).mapError Host.yamlProblem) := by
  have hread := answers_read machine p.text
  rw [hreads] at hread
  have hyaml : Answers machine (Host.run (host.yaml t cut)) (.ok (machine.equipment.yaml t cut)) :=
    answers_know fun _ => rfl
  refine hread.bind ?_
  rw [hdecodes]
  refine hyaml.bind ?_
  cases machine.equipment.yaml t cut with
  | ok v => exact answers_pure v
  | error refusal => exact answers_throw _

lemma answers_readYaml_of_error {entry : Entry}
    (hl : machine.tree.lookup machine.cwd p.text = .ok entry) {problem : Problem}
    (h : Answers machine (host.parseYaml p) (.error problem)) (default : Value) :
    Answers machine (host.readYaml p default true) (.error problem) := by
  refine (answers_holds_of_lookup hl).bind ((answers_observe h).bind ?_)
  dsimp only
  rw [if_neg (by simp)]
  exact answers_throw problem

lemma answers_readYaml {entry : Entry} (hl : machine.tree.lookup machine.cwd p.text = .ok entry)
    {v : Value} (h : Answers machine (host.parseYaml p) (.ok v)) (default : Value) :
    Answers machine (host.readYaml p default true) (.ok (match v with | .null => default | v => v)) := by
  refine (answers_holds_of_lookup hl).bind ((answers_observe h).bind ?_)
  cases v with
  | scalar s => cases s <;> exact answers_pure _
  | array _ => exact answers_pure _
  | object _ => exact answers_pure _

end Yaml

lemma answers_readSettings {v : Value} {members : Members}
    (hreads : machine.tree.readFile machine.cwd p.text = .ok bytes) {t : Text}
    {cut : Option DecodeFault} (hdecodes : Blocks.decode bytes = (t, cut))
    (h : machine.equipment.yaml t cut = .ok v)
    (hv : v = .object members ∨ v = .null ∧ members = []) :
    Answers machine (host.readSettings p) (.ok members) := by
  have hparse := answers_parseYaml hreads hdecodes
  rw [h] at hparse
  have hread := answers_readYaml (FileTree.lookup_of_readFile hreads) hparse (.object [])
  refine (answers_observe hread).bind ?_
  rcases hv with rfl | ⟨rfl, rfl⟩
  · exact answers_pure members
  · exact answers_pure []

lemma answers_readSettings_of_error {problem : Problem}
    (h : Answers machine (host.readYaml p (.object []) true) (.error problem)) :
    Answers machine (host.readSettings p) (.error (Host.settingsProblem p problem)) :=
  (answers_observe h).bind (answers_throw _)

lemma answers_readSettings_of_yaml {t : Text} {cut : Option DecodeFault} {refusal : YamlRefusal}
    (hreads : machine.tree.readFile machine.cwd p.text = .ok bytes)
    (hdecodes : Blocks.decode bytes = (t, cut)) (h : machine.equipment.yaml t cut = .error refusal) :
    Answers machine (host.readSettings p)
      (.error (Host.settingsProblem p (Host.yamlProblem refusal))) := by
  have hparse := answers_parseYaml hreads hdecodes
  rw [h] at hparse
  exact answers_readSettings_of_error
    (answers_readYaml_of_error (FileTree.lookup_of_readFile hreads) hparse _)

/-- A value that is neither a mapping nor null is a problem of the settings. -/
lemma answers_readSettings_of_value {v : Value}
    (h : Answers machine (host.readYaml p (.object []) true) (.ok v)) (hv : v.members? = none) :
    Answers machine (host.readSettings p) (.error (.settingsNoMapping p v.typeName)) := by
  refine (answers_observe h).bind ?_
  cases v with
  | object members => cases hv
  | _ => exact answers_throw _

/-- Refusals of the system are reported as problems of the settings. -/
lemma kind_settingsProblem_refused (kind : FaultKind) (name : Text) (target : Option Text) :
    (Host.settingsProblem p (.disk (.refused kind name target))).report.kind = .config := by
  cases kind <;> rfl

lemma Unreadable.answers {problem : Problem} (h : Unreadable machine p problem) :
    Answers machine (host.readSettings p) (.error problem) := by
  cases h with
  | undecodable reads decodes stops => exact answers_readSettings_of_yaml reads decodes stops
  | foreign reads decodes stops => exact answers_readSettings_of_yaml reads decodes stops

/-- Where no file can be looked up, there is a problem of the settings. -/
lemma answers_readSettings_of_fault {fault : Fault}
    (hl : machine.tree.lookup machine.cwd p.text = .error fault) :
    ∃ problem, Answers machine (host.readSettings p) (.error problem) ∧
      problem.report.kind = .config := by
  have hholds := answers_holds_of_fault hl
  by_cases ha : fault.isAbsence = true
  · rw [if_pos ha] at hholds
    have hyaml : Answers machine (host.readYaml p (.object []) true) (.error (.yamlMissing p)) :=
      hholds.bind (answers_throw _)
    exact ⟨_, answers_readSettings_of_error hyaml, rfl⟩
  · rw [if_neg ha] at hholds
    have hyaml : Answers machine (host.readYaml p (.object []) true) (.error (.disk fault)) :=
      hholds.bind_error _
    refine ⟨_, answers_readSettings_of_error hyaml, ?_⟩
    cases FileTree.refuses_of_lookup hl with
    | null => exact absurd rfl ha
    | refused _ kind target => exact kind_settingsProblem_refused kind _ target

/-- The bytes of a settings file hold a mapping, or there is a problem of the settings, or they hold none
for another reason. -/
lemma answers_readSettings_of_bytes (hreads : machine.tree.readFile machine.cwd p.text = .ok bytes) :
    (∃ members, Answers machine (host.readSettings p) (.ok members) ∧
      Layers machine (some p) (Settings.layerValue Settings.bundled (.object members))) ∨
    ∃ problem, Answers machine (host.readSettings p) (.error problem) ∧
      (problem.report.kind = .config ∨ Unreadable machine p problem) := by
  obtain ⟨⟨t, cut⟩, hdecodes⟩ : ∃ r, Blocks.decode bytes = r := ⟨_, rfl⟩
  cases hyaml : machine.equipment.yaml t cut with
  | error refusal =>
    refine .inr ⟨_, answers_readSettings_of_yaml hreads hdecodes hyaml, ?_⟩
    cases refusal with
    | malformed name message => exact .inl rfl
    | undecodable fault => exact .inr (.undecodable hreads hdecodes hyaml)
    | foreign fault => exact .inr (.foreign hreads hdecodes hyaml)
  | ok v =>
    have hsettings : ∀ members, v = .object members ∨ v = .null ∧ members = [] →
        ∃ members, Answers machine (host.readSettings p) (.ok members) ∧
          Layers machine (some p) (Settings.layerValue Settings.bundled (.object members)) :=
      fun members hv => ⟨members, answers_readSettings hreads hdecodes hyaml hv,
        .file hreads hdecodes hyaml hv⟩
    have hparse := answers_parseYaml hreads hdecodes
    rw [hyaml] at hparse
    have hread := answers_readYaml (FileTree.lookup_of_readFile hreads) hparse (.object [])
    cases v with
    | object members => exact .inl (hsettings members (.inl rfl))
    | array items => exact .inr ⟨_, answers_readSettings_of_value hread rfl, .inl rfl⟩
    | scalar s =>
      cases s with
      | null => exact .inl (hsettings [] (.inr ⟨rfl, rfl⟩))
      | _ => exact .inr ⟨_, answers_readSettings_of_value hread rfl, .inl rfl⟩

/-- Reading a settings file gives the mapping in it, or a problem of the settings, unless its bytes hold
none for another reason. -/
theorem answers_readSettings_cases (machine : Machine) (p : Path) :
    (∃ members, Answers machine (host.readSettings p) (.ok members) ∧
      Layers machine (some p) (Settings.layerValue Settings.bundled (.object members))) ∨
    ∃ problem, Answers machine (host.readSettings p) (.error problem) ∧
      (problem.report.kind = .config ∨ Unreadable machine p problem) := by
  cases hl : machine.tree.lookup machine.cwd p.text with
  | error fault =>
    obtain ⟨problem, hread, hkind⟩ := answers_readSettings_of_fault hl
    exact .inr ⟨problem, hread, .inl hkind⟩
  | ok entry =>
    rcases FileTree.readFile_of_lookup hl with ⟨bytes, hreads⟩ | hdirectory
    · exact answers_readSettings_of_bytes hreads
    · have hread := answers_read machine p.text
      rw [hdirectory] at hread
      have hparse : Answers machine (host.parseYaml p)
          (.error (.disk (.refused .isDirectory p.text none))) := hread.bind_error _
      exact .inr ⟨_, answers_readSettings_of_error (answers_readYaml_of_error hl hparse _),
        .inl (kind_settingsProblem_refused ..)⟩

end File

section Loading

lemma Layers.answers {p : Option Path} {settings : Value} (h : Layers machine p settings) :
    Answers machine (host.layeredSettings p) (.ok settings) := by
  cases h with
  | bundled => exact answers_pure _
  | file reads decodes parses mapping =>
    exact (answers_readSettings reads decodes parses mapping).bind (answers_pure _)

/-- Layered settings under an environment, if they satisfy the schema. -/
def settled (environment : List (Text × Text)) (p : Option Path) (settings : Value) :
    Except Problem Value :=
  match Settings.override settings environment with
  | (_, some fault) => .error (.override fault)
  | (overridden, none) => Host.checkSettings overridden p

lemma answers_loadSettings {p : Option Path} {settings : Value}
    (hpath : settingsFile machine environment given = .ok p)
    (h : Answers machine (host.layeredSettings p) (.ok settings)) :
    Answers machine (host.loadSettings environment given true) (settled environment p settings) := by
  have hfile := answers_settingsFile machine environment given
  rw [hpath] at hfile
  refine hfile.bind (h.bind ?_)
  unfold settled
  obtain ⟨⟨overridden, fault⟩, ho⟩ : ∃ r, Settings.override settings environment = r := ⟨_, rfl⟩
  rw [ho]
  cases fault with
  | some fault => exact answers_throw _
  | none => exact answers_liftExcept _

lemma answers_loadSettings_of_layer {p : Option Path} {problem : Problem}
    (hpath : settingsFile machine environment given = .ok p)
    (h : Answers machine (host.layeredSettings p) (.error problem)) :
    Answers machine (host.loadSettings environment given true) (.error problem) := by
  have hfile := answers_settingsFile machine environment given
  rw [hpath] at hfile
  exact hfile.bind (h.bind_error _)

lemma answers_loadSettings_of_path {problem : Problem}
    (hpath : settingsFile machine environment given = .error problem) :
    Answers machine (host.loadSettings environment given true) (.error problem) := by
  have hfile := answers_settingsFile machine environment given
  rw [hpath] at hfile
  exact hfile.bind_error _

lemma checkSettings_eq_ok {overridden settings : Value} {p : Option Path}
    (h : Host.checkSettings overridden p = .ok settings) :
    settings = overridden ∧ Schema.settings.violations settings = [] := by
  unfold Host.checkSettings at h
  split at h
  · rename_i hnone
    cases h
    exact ⟨rfl, hnone⟩
  · cases h

/-- Settings that break the schema are a problem of the settings, unless it cannot be shown. -/
lemma checkSettings_eq_error {overridden : Value} {p : Option Path} {problem : Problem}
    (h : Host.checkSettings overridden p = .error problem) :
    problem.report.kind = .config ∨ problem = .unshowable ∧
      ∃ violation ∈ Schema.settings.violations overridden, ¬ violation.isShowable = true := by
  unfold Host.checkSettings at h
  split at h
  · cases h
  · cases h
    unfold Problem.ofViolations
    split_ifs with hall
    · exact .inl rfl
    · exact .inr ⟨rfl, by simpa only [List.all_eq_true, not_forall, exists_prop] using hall⟩

lemma checkSettings_of_hidden {overridden : Value} {violation : Schema.Violation}
    (hbreaks : violation ∈ Schema.settings.violations overridden)
    (hhidden : ¬ violation.isShowable = true) (p : Option Path) :
    Host.checkSettings overridden p = .error .unshowable := by
  unfold Host.checkSettings
  split
  · rename_i hnone
    rw [hnone] at hbreaks
    cases hbreaks
  · unfold Problem.ofViolations
    rw [if_neg fun hall => hhidden (List.all_eq_true.mp hall violation hbreaks)]

/-- A problem that is not one of the settings is what loading ends with. -/
lemma Unloadable.answers {problem : Problem} (h : Unloadable machine environment given problem) :
    Answers machine (host.loadSettings environment given true) (.error problem) := by
  cases h with
  | noHome path => exact answers_loadSettings_of_path path
  | nullInName path => exact answers_loadSettings_of_path path
  | file path unreadable =>
    exact answers_loadSettings_of_layer path (unreadable.answers.bind_error _)
  | number path layers overrides =>
    have := answers_loadSettings path layers.answers
    unfold settled at this
    rwa [overrides] at this
  | @unshowable p _ _ _ path layers overrides breaks hidden =>
    have := answers_loadSettings path layers.answers
    unfold settled at this
    rw [overrides] at this
    dsimp only at this
    rwa [checkSettings_of_hidden breaks hidden p] at this

/-- Settings that break no condition are a mapping that the schema accepts. -/
lemma accepts_of_violations {settings : Value} (h : Schema.settings.violations settings = []) :
    (∃ members, settings = .object members) ∧ Schema.settings.accepts settings = true := by
  constructor
  · have hobject : JsonType.object.holds settings = true :=
      (Schema.admits_of_violations h).type (.tail _ (.tail _ (.head _)))
    cases settings with
    | object members => exact ⟨members, rfl⟩
    | array items => cases hobject
    | scalar s => cases s <;> cases hobject
  · unfold Schema.accepts
    rw [List.isEmpty_iff, ← List.length_eq_zero_iff, ← List.length_mergeSort]
    unfold Schema.violations at h
    rw [h, List.length_nil]

/-- What loading settings may end with. -/
structure Loaded (machine : Machine) (environment : List (Text × Text)) (given : Option Path)
    (result : Except Problem Value) : Prop where
  accepted : ∀ settings, result = .ok settings →
    (∃ members, settings = .object members) ∧ Schema.settings.accepts settings = true
  reported : ∀ problem, result = .error problem →
    problem.report.kind = .config ∨ Unloadable machine environment given problem

lemma Loaded.of_error {problem : Problem}
    (h : problem.report.kind = .config ∨ Unloadable machine environment given problem) :
    Loaded machine environment given (.error problem) where
  accepted := nofun
  reported := by
    rintro _ ⟨⟩
    exact h

/-- Layered settings are settled under an environment, or there is a problem. -/
lemma loaded_settled {p : Option Path} {settings : Value}
    (hpath : settingsFile machine environment given = .ok p) (hlayers : Layers machine p settings) :
    Loaded machine environment given (settled environment p settings) := by
  unfold settled
  obtain ⟨⟨overridden, fault⟩, ho⟩ : ∃ r, Settings.override settings environment = r := ⟨_, rfl⟩
  rw [ho]
  cases fault with
  | some fault =>
    refine .of_error ?_
    cases fault with
    | number fault => exact .inr (.number hpath hlayers ho)
    | _ => exact .inl rfl
  | none =>
    dsimp only
    cases hcheck : Host.checkSettings overridden p with
    | ok settings =>
      refine ⟨?_, nofun⟩
      rintro _ ⟨⟩
      exact accepts_of_violations (checkSettings_eq_ok hcheck).2
    | error problem =>
      refine .of_error ((checkSettings_eq_error hcheck).imp_right ?_)
      rintro ⟨rfl, violation, hbreaks, hhidden⟩
      exact .unshowable hpath hlayers ho hbreaks hhidden

lemma exists_loaded (machine : Machine) (environment : List (Text × Text)) (given : Option Path) :
    ∃ result, Answers machine (host.loadSettings environment given true) result ∧
      Loaded machine environment given result := by
  cases hpath : settingsFile machine environment given with
  | error problem =>
    have hanswer := answers_loadSettings_of_path hpath
    refine ⟨_, hanswer, .of_error (.inr ?_)⟩
    rcases settingsFile_eq_error hpath with rfl | rfl
    · exact .noHome hpath
    · exact .nullInName hpath
  | ok p =>
    cases p with
    | none => exact ⟨_, answers_loadSettings hpath Layers.bundled.answers, loaded_settled hpath .bundled⟩
    | some p =>
      rcases answers_readSettings_cases machine p with ⟨members, -, hlayers⟩ | ⟨problem, hread, hkind⟩
      · exact ⟨_, answers_loadSettings hpath hlayers.answers, loaded_settled hpath hlayers⟩
      · exact ⟨_, answers_loadSettings_of_layer hpath (hread.bind_error _),
          .of_error (hkind.imp_right (.file hpath))⟩

/-- Loading settings gives a mapping that the schema accepts, or a problem of the settings, or one that
has another reason; and where there is another reason that is what it ends with. -/
theorem loadSettings_cases (machine : Machine) (environment : List (Text × Text))
    (given : Option Path) :
    ∃ result, Answers machine (host.loadSettings environment given true) result ∧
      Loaded machine environment given result ∧
      ∀ problem, Unloadable machine environment given problem →
        result = .error problem ∧ problem.report.kind ≠ .config := by
  obtain ⟨result, hanswer, hloaded⟩ := exists_loaded machine environment given
  exact ⟨result, hanswer, hloaded, fun problem hu => ⟨hanswer.unique hu.answers, hu.kind_ne_config⟩⟩

/-- A machine with a settings file of one byte, which starts no character. -/
def undecodable : Machine where
  tree := ⟨[(["c.yaml".toList], .file [0xFF])]⟩
  cwd := []
  temporary := []
  environment := []
  freshNames := 0
  output := []
  errors := []
  equipment := .standard

lemma unreadable_undecodable : Unreadable undecodable (.ofText "/c.yaml".toList)
    (.undecodable ⟨"utf-8", 0, 1, 0xFF, "invalid start byte"⟩) :=
  @Unreadable.undecodable _ _ [0xFF] [] _ _ rfl rfl rfl

/-- A settings file that is no text is not a problem of the settings. -/
theorem not_loadSettings_fails_closed :
    ¬ ∀ (machine : Machine) (environment : List (Text × Text)) (given : Option Path)
      (result : Except Problem Value),
      Answers machine (host.loadSettings environment given true) result →
      (∃ settings, result = .ok settings ∧ Schema.settings.accepts settings = true) ∨
        ∃ problem, result = .error problem ∧ problem.report.kind = .config := by
  intro h
  have hunloadable : Unloadable undecodable [] (some (.ofText "/c.yaml".toList))
      (.undecodable ⟨"utf-8", 0, 1, 0xFF, "invalid start byte"⟩) := .file rfl unreadable_undecodable
  rcases h _ _ _ _ hunloadable.answers with ⟨settings, hs, _⟩ | ⟨problem, hp, hkind⟩
  · cases hs
  · obtain rfl := Except.error.inj hp
    exact hunloadable.kind_ne_config hkind

end Loading

end TemplateSplice.Machine
