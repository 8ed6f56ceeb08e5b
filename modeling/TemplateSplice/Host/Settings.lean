import TemplateSplice.Host.Files
import TemplateSplice.Schema.Bundled
import TemplateSplice.Settings.Layer

/-! The settings in force: those that come with the program, under a settings file, under the
environment. They satisfy the schema of settings, or there are none. -/
namespace TemplateSplice.Host

variable {m : Type → Type} [Monad m]

/-- The home directory that an environment names. -/
def homeVariable : Text := "HOME".toList

/-- The value of an environment variable. -/
def valueIn? (environment : List (Text × Text)) (name : Text) : Option Text :=
  (environment.find? (·.1 = name)).map (·.2)

/-- The user whose home directory a path starts from, and the segments after it. A tilde in front stands
for the home directory; without a name after it, it is that of the user who runs the program. -/
def tilde? (path : Path) : Option (Text × List Text) :=
  match path.anchor, path.segments with
  | .here, ('~' :: user) :: rest => some (user, rest)
  | _, _ => none

/-- Segments seen from a home directory. -/
def fromHome (home : Option Text) (segments : List Text) : Except Problem Path :=
  match home.map (Text.trimRight (· == '/')) with
  | none => .error .noHome
  | some ('~' :: _) => .error .noHome
  | some home => .ok ((Path.ofText (if home = [] then ['/'] else home)).join ⟨.here, segments⟩)

/-- The home directory of a user. The environment may name that of the user who runs the program. -/
def homeOf (host : Host m) (user : Text) : Action m (Option Text) := do
  let own ← run host.environment
  match user, valueIn? own homeVariable with
  | [], some home => pure (some home)
  | _, _ => if '\x00' ∈ user then throw (.disk .nullInName) else run (host.home user)

/-- The path with a tilde in front replaced by the home directory. -/
def expandHome (host : Host m) (path : Path) : Action m Path :=
  match tilde? path with
  | none => pure path
  | some (user, segments) => do
    let home ← host.homeOf user
    liftExcept (fromHome home segments)

/-- The path of the settings file, if there is to be one: the given path, or that which the
environment names. -/
def settingsPath? (environment : List (Text × Text)) (path : Option Path) : Option Path :=
  match path, valueIn? environment Settings.fileVariable with
  | some p, _ => some p
  | none, some (c :: r) => some (Path.ofText (c :: r))
  | none, _ => none

/-- What is wrong with a settings file, given what is wrong with a YAML file. -/
def settingsProblem (path : Path) : Problem → Problem
  | .yamlMissing _ => .settingsMissing path
  | .disk fault =>
    match fault.kind? with
    | some .missing => .settingsMissing path
    | some _ => .settingsUnreadable path fault
    | none => .disk fault
  | .yamlMalformed _ message => .settingsMalformed path message
  | problem => problem

/-- The mapping in a settings file; an empty file holds an empty one. -/
def readSettings (host : Host m) (path : Path) : Action m Members := do
  match ← observe (host.readYaml path (.object []) true) with
  | .error problem => throw (settingsProblem path problem)
  | .ok (.object members) => pure members
  | .ok v => throw (.settingsNoMapping path v.typeName)

/-- Settings as they are, unless they break conditions of the schema. -/
def checkSettings (settings : Value) (path : Option Path) : Except Problem Value :=
  match Schema.settings.violations settings with
  | [] => .ok settings
  | list => .error (.ofViolations list (.settingsRejected Schema.settingsName · path))

/-- The settings of the program under those of a file. -/
def layeredSettings (host : Host m) : Option Path → Action m Value
  | none => pure Settings.bundled
  | some path => do
    let members ← host.readSettings path
    pure (Settings.layerValue Settings.bundled (.object members))

/-- The settings file under an environment, if there is to be one. -/
def settingsFile (host : Host m) (environment : List (Text × Text)) (path : Option Path) :
    Action m (Option Path) :=
  match settingsPath? environment path with
  | none => pure none
  | some path => do
    let path ← host.expandHome path
    pure (some path)

/-- The settings in force under an environment, which need not be that of the host. -/
def loadSettings (host : Host m) (environment : List (Text × Text)) (path : Option Path)
    (isChecked : Bool) : Action m Value := do
  let path ← host.settingsFile environment path
  let settings ← host.layeredSettings path
  match Settings.override settings environment with
  | (_, some fault) => throw (.override fault)
  | (settings, none) =>
    if isChecked then liftExcept (checkSettings settings path) else pure settings

end TemplateSplice.Host
