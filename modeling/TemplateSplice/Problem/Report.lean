import TemplateSplice.Disk.Fault
import TemplateSplice.Value.Basic

/-! Reports of problems: what sort of thing went wrong, a message, and the values that it concerns.
What a kind of problem is about is set over the values that a caller gives. -/
namespace TemplateSplice

/-- What sort of thing went wrong. -/
inductive ProblemKind where
  | general
  | invalidArgument
  | templateNotFound
  | sectionNotFound
  | malformedReference
  | templateRead
  | config
  /-- A value that is not as it should be. -/
  | value
  | schema
  | decoding
  | encoding
  /-- A text or bytes that a codec refuses in another way. -/
  | unicode
  | type
  | attribute
  | lookup
  | runtime
  /-- A number beyond what a machine can hold. -/
  | overflow
  /-- A failure of the system, which may have a kind of its own. -/
  | system (fault : Option FaultKind)
  deriving DecidableEq, Repr

namespace ProblemKind

/-- The name that reports of the program's own kinds give. -/
def code? : ProblemKind → Option String
  | general => some "CfnMergeError"
  | invalidArgument => some "InvalidArgumentError"
  | templateNotFound => some "TemplateNotFoundError"
  | sectionNotFound => some "SectionNotFoundError"
  | malformedReference => some "MalformedReferenceError"
  | templateRead => some "TemplateReadError"
  | config => some "ConfigError"
  | _ => none

/-- Whether a kind is one of the program's own. -/
def isOwn (kind : ProblemKind) : Bool := kind.code?.isSome

/-- Whether a kind is about a value. -/
def isValue : ProblemKind → Bool
  | invalidArgument | malformedReference | templateRead | value | schema | decoding | encoding
  | unicode => true
  | _ => false

/-- Whether a kind is about a failed look-up. -/
def isLookup : ProblemKind → Bool
  | sectionNotFound | lookup => true
  | _ => false

/-- Whether a kind is about a missing file. -/
def isMissingFile : ProblemKind → Bool
  | templateNotFound | system (some .missing) => true
  | _ => false

/-- Whether a kind is about the system. -/
def isSystem : ProblemKind → Bool
  | system _ => true
  | kind => kind.isMissingFile

end ProblemKind

/-- What is told of a problem. -/
structure Report where
  kind : ProblemKind
  message : String
  context : Members
  deriving Repr

namespace Report

/-- A report without values. -/
def plain (kind : ProblemKind) (message : String) : Report := ⟨kind, message, []⟩

/-- The values with a text set, if there is one and it is not empty. -/
def setGiven (key : String) (text : Option String) (context : Members) : Members :=
  match text with
  | some s => if s = "" then context else Members.insert key (.str s) context
  | none => context

def setText (key text : String) (context : Members) : Members :=
  Members.insert key (.str text) context

/-- A template is missing at a path, or where a resource means. -/
def templateNotFound (message : String) (path resource : Option String) (context : Members) :
    Report :=
  ⟨.templateNotFound, message, setGiven "resource" resource (setGiven "path" path context)⟩

/-- A template has no section of a name. -/
def sectionNotFound (message section_ : String) (path : Option String) (context : Members) :
    Report :=
  ⟨.sectionNotFound, message, setGiven "path" path (setText "section" section_ context)⟩

/-- A resource is no reference. -/
def malformedReference (message resource : String) (path : Option String) (context : Members) :
    Report :=
  ⟨.malformedReference, message, setGiven "path" path (setText "resource" resource context)⟩

/-- A template cannot be decoded. -/
def templateRead (message path : String) (encoding : Option String) (context : Members) : Report :=
  ⟨.templateRead, message, setGiven "encoding" encoding (setText "path" path context)⟩

/-- A report as a mapping; kinds that are not the program's own have none. -/
def details? (r : Report) : Option Members :=
  r.kind.code?.map fun code =>
    [("message", .str r.message), ("code", .str code), ("context", .object r.context)]

end Report
end TemplateSplice
