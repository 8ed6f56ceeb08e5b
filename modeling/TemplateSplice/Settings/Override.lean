import TemplateSplice.Settings.Coercion

/-! Overrides of settings by environment variables. The name of a variable gives the path of a key,
two underscores standing between its parts; keys are matched without regard to case, and mappings
that are missing on the way are made. Variables are applied in the order of their names. -/
namespace TemplateSplice.Settings

/-- What the names of variables start with. -/
def variablePrefix : Text := "CFNMERGE_".toList

/-- The variable that names the settings file; it overrides nothing. -/
def fileVariable : Text := "CFNMERGE_CONFIG".toList

/-- Why a variable overrides nothing. -/
inductive OverrideFault where
  /-- The name has no parts, or an empty one. -/
  | malformedName (name : Text)
  /-- The path leads through a value that is no mapping. -/
  | traverses (path : List Text)
  /-- The path ends in a value that is no mapping. -/
  | assignsInto (path : List Text)
  /-- The value looks like a whole number and is none. -/
  | number (fault : NumberFault)
  deriving DecidableEq, Repr

/-- The key that a part of a path means in a mapping: the last of its names that is the same in
small letters, or the part itself. -/
def keyFor (m : Members) (part : Text) : String :=
  let names := m.keys.filterMap Scalar.str?
  ((names.filter fun key => Text.lower key.toList = part).getLast?).getD (String.ofList part)

/-- The value with a path set in it, and why the path could not be set if that is so. -/
def setIn (value : Value) : List Text → Value → Value × Option (List Text → OverrideFault)
  | [], cur => (cur, some .assignsInto)
  | [part], cur =>
    match cur with
    | .object m => (.object (Members.insert (keyFor m part) value m), none)
    | _ => (cur, some .assignsInto)
  | part :: rest, cur =>
    match cur with
    | .object m =>
      let key := keyFor m part
      let (child, fault) := setIn value rest ((Members.get? m key).getD (.object []))
      (.object (Members.insert key child m), fault)
    | _ => (cur, some .traverses)

/-- The path that the name of a variable gives, in small letters. -/
def variablePath (name : Text) : Except OverrideFault (List Text) :=
  let parts := Text.splitOn "__".toList (name.drop variablePrefix.length)
  if parts.any List.isEmpty then .error (.malformedName name) else .ok (parts.map Text.lower)

/-- Whether a variable overrides a setting. -/
def isOverride (name : Text) : Bool := variablePrefix.isPrefixOf name && name != fileVariable

/-- The settings with one variable applied, and why it could not be if that is so. -/
def applyVariable (settings : Value) (name value : Text) : Value × Option OverrideFault :=
  match variablePath name with
  | .error fault => (settings, some fault)
  | .ok path =>
    match coerce value with
    | .error fault => (settings, some (.number fault))
    | .ok v =>
      let (settings, fault) := setIn v path settings
      (settings, fault.map (· path))

/-- Applies variables one after another up to the first that cannot be applied. -/
def applyVariables (settings : Value) : List (Text × Text) → Value × Option OverrideFault
  | [] => (settings, none)
  | (name, value) :: r =>
    match applyVariable settings name value with
    | (settings, none) => applyVariables settings r
    | (settings, some fault) => (settings, some fault)

/-- The variables that override settings, in the order of their names. -/
def overrides (environment : List (Text × Text)) : List (Text × Text) :=
  (environment.filter fun (name, _) => isOverride name).mergeSort fun a b => !decide (b.1 < a.1)

/-- The settings under an environment. -/
def override (settings : Value) (environment : List (Text × Text)) : Value × Option OverrideFault :=
  applyVariables settings (overrides environment)

end TemplateSplice.Settings
