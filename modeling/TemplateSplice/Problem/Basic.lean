import TemplateSplice.Library.Basic
import TemplateSplice.Marker.Reference
import TemplateSplice.Path.Basic
import TemplateSplice.Schema.Basic
import TemplateSplice.Settings.Override
import TemplateSplice.Settings.View

/-! Everything that can go wrong, by its cause, and the report of each cause. -/
namespace TemplateSplice

inductive Problem where
  /-- An allow-list without names. -/
  | noSections
  /-- The name of a template is blank. -/
  | blankTemplate
  /-- The template to start from is missing. -/
  | templateMissing (name : Text) (path : Path)
  /-- A template that another one refers to is missing. -/
  | importMissing (resource : Text) (path : Path) (document : Text)
  | sectionMissing (name : Text) (source : Option Text)
  /-- A resource refers to nothing. -/
  | badReference (fault : ReferenceFault) (resource delimiter : Text) (source : Option Text)
  /-- A template is not in its encoding. -/
  | templateUndecodable (path : Path) (encoding : Text) (fault : DecodeFault)
  | settingsMissing (path : Path)
  | settingsMalformed (path : Path) (message : String)
  | settingsUnreadable (path : Path) (fault : Fault)
  /-- A settings file holds a value that is no mapping. -/
  | settingsNoMapping (path : Path) (typeName : String)
  /-- A variable overrides nothing. -/
  | override (fault : Settings.OverrideFault)
  /-- A value breaks conditions of a schema. -/
  | violations (schemaName : Text) (violations : List Schema.Violation)
  /-- Settings break conditions of their schema. -/
  | settingsRejected (schemaName : Text) (violations : List Schema.Violation) (path : Option Path)
  | schemaMissing (name : Text)
  /-- Settings have a value of the wrong type. -/
  | view (fault : Settings.ViewFault)
  | disk (fault : Fault)
  | stream (fault : StreamFault)
  /-- A text file that is to be read is missing. -/
  | textMissing (path : Path)
  /-- A YAML file that is to be read is missing. -/
  | yamlMissing (path : Path)
  /-- A text is no YAML: the name of the fault, and what the reader says of it. -/
  | yamlMalformed (name message : String)
  | undecodable (fault : DecodeFault)
  | unencodable (fault : EncodeFault)
  | unknownEncoding (name : Text)
  /-- The name of an encoding holds the null character. -/
  | nullInEncoding
  /-- The text of a whole number writes none. -/
  | number (fault : Settings.NumberFault)
  /-- A message would have to show a whole number with too many digits. -/
  | unshowable
  /-- There is no home directory of a user. -/
  | noHome
  /-- A library fails. -/
  | foreign (fault : Foreign)
  /-- A problem of a caller's own. -/
  | reported (report : Report)
  deriving Repr

namespace Problem

/-- What messages call a template, given where it comes from. -/
def sourceName (source : Option Text) : String :=
  match source with
  | some (c :: r) => String.ofList (c :: r)
  | _ => "template"

/-- What is wrong with a resource. -/
def referenceMessage (fault : ReferenceFault) (resource delimiter : Text) (source : Option Text) :
    String :=
  let place := sourceName source
  let resource := String.ofList resource
  let delimiter := String.ofList delimiter
  match fault with
  | .emptyPath => s!"Import in {place} has an empty path"
  | .notTwoParts => s!"Import '{resource}' in {place} must look like 'path{delimiter}Section'"
  | .missingPath => s!"Import '{resource}' in {place} is missing a path"
  | .missingSection => s!"Import '{resource}' in {place} is missing a section name"
  | .emptyDelimiter => "empty separator"

/-- The number of characters of a literal that a message shows. -/
def literalLimit : Nat := 200

/-- What is wrong with a whole number with too many digits; their number is told if it is known. -/
def digitsMessage (count : Option Nat) : String :=
  let limit := digitLimit
  let known := match count with
    | some n => s!": value has {n} digits"
    | none => ""
  s!"Exceeds the limit ({limit} digits) for integer string conversion{known}; " ++
    "use sys.set_int_max_str_digits() to increase the limit"

def numberMessage : Settings.NumberFault → String
  | .tooManyDigits count => digitsMessage (some count)
  | .separator t =>
    let literal := String.ofList (t.quoted.take literalLimit)
    s!"invalid literal for int() with base 10: {literal}"

/-- The report of a variable that overrides nothing. -/
def overrideReport : Settings.OverrideFault → Report
  | .malformedName name =>
    let key := String.ofList name
    ⟨.config, s!"Malformed CFNMERGE_* key: '{key}'", [("env", .str key)]⟩
  | .traverses path =>
    let path := String.ofList (Text.joinWith ['.'] path)
    .plain .config s!"Path traverses non-dict container: {path}"
  | .assignsInto path =>
    let path := String.ofList (Text.joinWith ['.'] path)
    .plain .config s!"Key assignment requires dict: {path}"
  | .number fault => .plain .value (numberMessage fault)

def violationsMessage (schemaName : Text) (violations : List Schema.Violation) : String :=
  let name := String.ofList schemaName
  let list := String.ofList (Text.joinWith [';', ' '] (violations.map Schema.Violation.text))
  s!"Validation failed against schema '{name}': {list}"

/-- The report of a settings file at a path. -/
def settingsReport (path : Path) (message : String) : Report :=
  ⟨.config, message, [("path", .str path.render)]⟩

/-- The report of a failure of the disk. -/
def faultReport (fault : Fault) : Report :=
  match fault with
  | .refused kind _ _ => .plain (.system (some kind)) fault.message
  | .stopped kind => .plain (.system (some kind)) fault.message
  | .nullInName => .plain .value fault.message
  | .namesUsedUp => .plain (.system (some .alreadyExists)) fault.message

/-- The report of a stream that does not take a text. -/
def streamReport : StreamFault → Report
  | .refused kind => .plain (.system (some kind)) kind.message
  | .unencodable fault => .plain .encoding fault.message

/-- The problem with violations, unless one of them cannot be shown. -/
def ofViolations (list : List Schema.Violation) (problem : List Schema.Violation → Problem) :
    Problem :=
  if list.all Schema.Violation.isShowable then problem list else unshowable

/-- The report of a problem. -/
def report : Problem → Report
  | noSections => .plain .invalidArgument "Expected at least one section name"
  | blankTemplate => .plain .invalidArgument "Expected a template file path"
  | templateMissing name path =>
    let name := String.ofList name
    .templateNotFound s!"Could not find '{name}' on disk" (some path.render) none []
  | importMissing resource path document =>
    let resource := String.ofList resource
    let resolved := path.render
    .templateNotFound s!"Could not find '{resource}' on disk (resolved to {resolved})"
      (some resolved) (some resource) [("referenced_from", .str (String.ofList document))]
  | sectionMissing name source =>
    let place := sourceName source
    let name := String.ofList name
    .sectionNotFound s!"{place} does not have section: {name}" name (source.map String.ofList) []
  | badReference .emptyDelimiter resource delimiter source =>
    .plain .value (referenceMessage .emptyDelimiter resource delimiter source)
  | badReference fault resource delimiter source =>
    .malformedReference (referenceMessage fault resource delimiter source) (String.ofList resource)
      (source.map String.ofList) []
  | templateUndecodable path encoding fault =>
    let place := path.render
    let encoding := String.ofList encoding
    let reason := fault.reason
    let start := fault.start
    .templateRead s!"Could not decode {place} as {encoding}: {reason} at byte {start}" place
      (some encoding) []
  | settingsMissing path =>
    let place := path.render
    settingsReport path s!"Config file not found: {place}"
  | settingsMalformed path message =>
    let place := path.render
    settingsReport path s!"Could not parse config file {place}: {message}"
  | settingsUnreadable path fault =>
    let place := path.render
    let reason := fault.message
    settingsReport path s!"Could not parse config file {place}: {reason}"
  | settingsNoMapping path typeName =>
    let place := path.render
    settingsReport path s!"Config file {place} must contain a mapping, got {typeName}"
  | override fault => overrideReport fault
  | violations schemaName list => .plain .schema (violationsMessage schemaName list)
  | settingsRejected schemaName list path =>
    let context : Members := match path with
      | some path => [("path", .str path.render)]
      | none => []
    ⟨.config, violationsMessage schemaName list, context⟩
  | schemaMissing name =>
    let name := String.ofList name
    .plain (.system (some .missing)) s!"Schema not found: {name}"
  | view (.noMapping typeName) =>
    .plain .attribute s!"'{typeName}' object has no attribute 'get'"
  | view (.noList typeName) => .plain .type s!"'{typeName}' object is not iterable"
  | disk fault => faultReport fault
  | stream fault => streamReport fault
  | textMissing path =>
    let place := path.render
    .plain (.system (some .missing)) s!"Text file not found: {place}"
  | yamlMissing path =>
    let place := path.render
    .plain (.system (some .missing)) s!"File not found: {place}"
  | yamlMalformed _ message => .plain .value message
  | undecodable fault => .plain .decoding fault.message
  | unencodable fault => .plain .encoding fault.message
  | unknownEncoding name =>
    let name := String.ofList name
    .plain .lookup s!"unknown encoding: {name}"
  | nullInEncoding => .plain .value "embedded null character"
  | number fault => .plain .value (numberMessage fault)
  | unshowable => .plain .value (digitsMessage none)
  | noHome => .plain .runtime "Could not determine home directory."
  | foreign fault => .plain fault.kind fault.message
  | reported r => r

end Problem
end TemplateSplice
