import TemplateSplice.Command.Words

/-! What a command line asks for. -/
namespace TemplateSplice.Command

/-- What is to be done with a template. -/
inductive Verb where
  | merge
  | inspect
  deriving DecidableEq, Repr

namespace Verb

def name : Verb → String
  | merge => "merge"
  | inspect => "inspect"

def ofName? (t : Text) : Option Verb := [merge, inspect].find? (·.name.toList = t)

end Verb

/-- The options and the operand of a command. -/
structure Request where
  file : Option Text
  output : Option Text
  toTemporary : Bool
  asJson : Bool
  settings : Option Text
  isVerbose : Bool
  logFile : Option Text
  deriving DecidableEq, Repr

namespace Request

def empty : Request := ⟨none, none, false, false, none, false, none⟩

/-- An option that only is there or not. -/
def flag (names : List String) (apply : Request → Except Stop Request) : OptionSpec Request :=
  ⟨names.map String.toList, false, fun _ => apply⟩

/-- An option with a value. -/
def valued (names : List String) (apply : Text → Request → Except Stop Request) :
    OptionSpec Request :=
  ⟨names.map String.toList, true, apply⟩

def help : OptionSpec Request := flag ["-h", "--help"] fun _ => .error .help

/-- Where a merged template goes: to a file or to a temporary one, but not to both. -/
def destinations : List (OptionSpec Request) :=
  [valued ["--output", "-o"] fun value r =>
     if r.toTemporary then .error .misuse else .ok { r with output := some value },
   flag ["--temp"] fun r =>
     if r.output.isSome then .error .misuse else .ok { r with toTemporary := true }]

/-- The options of every command. -/
def standard : List (OptionSpec Request) :=
  [flag ["--json"] fun r => .ok { r with asJson := true },
   valued ["--config"] fun value r => .ok { r with settings := some value },
   flag ["--verbose", "-v"] fun r => .ok { r with isVerbose := true },
   valued ["--log-file"] fun value r => .ok { r with logFile := some value }]

/-- The usage of a command: one template, and options. -/
def usage (verb : Verb) : Usage Request where
  options := match verb with
    | .merge => help :: destinations ++ standard
    | .inspect => help :: standard
  operands := .one fun file r => .ok { r with file := some file }

/-- The request of the words after a command, and whether words were left that fit nothing. The
template must be given. -/
def ofWords (dialect : Dialect) (verb : Verb) (line : List Text) : Except Stop (Request × Bool) := do
  let r ← (usage verb).read dialect empty line
  if r.state.file.isNone then .error .misuse else .ok (r.state, r.hasSurplus)

end Request

/-- A command with its request. -/
structure Call where
  verb : Verb
  request : Request
  /-- Whether words were left that fit nothing. -/
  hasSurplus : Bool

namespace Call

/-- Reads the command that the words start with. -/
def ofWords (dialect : Dialect) : List Text → Except Stop Call
  | [] => .error .misuse
  | name :: line =>
    match Verb.ofName? name with
    | none => .error .misuse
    | some verb => do
      let (request, hasSurplus) ← Request.ofWords dialect verb line
      .ok ⟨verb, request, hasSurplus⟩

/-- The usage of the program: a command and its words, after options of the program's own. -/
def usage (dialect : Dialect) : Usage (Option Call) where
  options :=
    [⟨["-h".toList, "--help".toList], false, fun _ _ => .error .help⟩,
     ⟨["--version".toList], false, fun _ _ => .error .version⟩]
  operands := .rest fun line _ => (ofWords dialect line).map some

/-- The call of a command line. Without a command it asks for help. -/
def ofLine (dialect : Dialect) (line : List Text) : Except Stop Call := do
  let r ← (usage dialect).read dialect none line
  match r.state with
  | none => .error (if r.hasSurplus then .misuse else .help)
  | some call => if r.hasSurplus || call.hasSurplus then .error .misuse else .ok call

end Call
end TemplateSplice.Command
