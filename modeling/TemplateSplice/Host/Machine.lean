import TemplateSplice.Host.Basic
import TemplateSplice.Library.Idna
import TemplateSplice.Library.Yaml

/-! A host as a value: a tree of files, a working directory, an environment and two streams. What it is
equipped with stays as it is: its libraries, the homes of its users, and where it takes no more. -/
namespace TemplateSplice

/-- What a machine is equipped with. -/
structure Equipment where
  codec? : Text → Option Codec
  yaml : YamlReader
  home : Text → Option Text
  /-- How many of some bytes a file takes that has a name in a tree, and why no more of them; none if it takes
  them all. -/
  fileLimit : FileTree → Text → Bytes → Option (Nat × FaultKind)
  /-- How much of a text the output takes after what was printed before. -/
  outputLimit : Text → Text → Option (Nat × StreamFault)
  /-- The same for the text of the errors. -/
  errorLimit : Text → Text → Option (Nat × StreamFault)

/-- The libraries that come with the program, on a machine that takes everything. -/
def Equipment.standard : Equipment where
  codec? name := if Encoding.plainName name = "idna".toList then some Idna.codec else none
  yaml := Yaml.reader
  home _ := none
  fileLimit _ _ _ := none
  outputLimit _ _ := none
  errorLimit _ _ := none

structure Machine where
  tree : FileTree
  cwd : Location
  temporary : Location
  environment : List (Text × Text)
  /-- How many fresh names were given out. -/
  freshNames : Nat
  output : Text
  errors : Text
  equipment : Equipment

namespace Machine

/-- The text of a location. -/
def locationText (l : Location) : Text := (Path.mk .root l).text

/-- The fresh name of a number. -/
def freshName (n : Nat) : Text := "rand".toList ++ paddedDigits 4 n

/-- Changes the tree by an operation, unless that fails. -/
def change (op : FileTree → Location → Except Fault FileTree) : StateM Machine (Except Fault Unit) := do
  let machine ← get
  match op machine.tree machine.cwd with
  | .ok tree => do
    set { machine with tree }
    pure (.ok ())
  | .error fault => pure (.error fault)

/-- Looks something up in the tree. -/
def look {α : Type} (op : FileTree → Location → Except Fault α) :
    StateM Machine (Except Fault α) := do
  let machine ← get
  pure (op machine.tree machine.cwd)

/-- What is known of a machine. -/
def know {α : Type} (f : Machine → α) : StateM Machine α := do
  let machine ← get
  pure (f machine)

/-- Gives a file other bytes, as many of them as it takes. -/
def write (name : Text) (bytes : Bytes) : StateM Machine (Except Fault Unit) := do
  let machine ← get
  match machine.equipment.fileLimit machine.tree name bytes with
  | none => change fun t cwd => t.writeFile cwd name bytes
  | some (count, kind) => do
    match ← change fun t cwd => t.writeFile cwd name (bytes.take count) with
    | .ok () => pure (.error (.stopped kind))
    | .error fault => pure (.error fault)

/-- What a stream holds after a text, of which it takes all or no more than a limit, and whether it took
all. -/
def taken (before t : Text) : Option (Nat × StreamFault) → Text × Except StreamFault Unit
  | none => (before ++ t, .ok ())
  | some (count, fault) => (before ++ t.take count, .error fault)

def print (t : Text) : StateM Machine (Except StreamFault Unit) := do
  let machine ← get
  let (output, result) := taken machine.output t (machine.equipment.outputLimit machine.output t)
  set { machine with output }
  pure result

def printError (t : Text) : StateM Machine (Except StreamFault Unit) := do
  let machine ← get
  let (errors, result) := taken machine.errors t (machine.equipment.errorLimit machine.errors t)
  set { machine with errors }
  pure result

/-- The host whose state is a machine. -/
def host : Host (StateM Machine) where
  isDirectory name := look fun t cwd => (t.lookup cwd name).map (· = .directory)
  read name := look fun t cwd => t.readFile cwd name
  makeDirectory name := change fun t cwd => t.makeDirectory cwd name
  create name := change fun t cwd => t.createFile cwd name
  write := write
  append name bytes := change fun t cwd => t.appendFile cwd name bytes
  move name target := change fun t cwd => t.moveFile cwd name target
  remove name := change fun t cwd => t.removeFile cwd name
  workingDirectory := know fun machine => locationText machine.cwd
  temporaryDirectory := know fun machine => locationText machine.temporary
  environment := know environment
  home user := know (·.equipment.home user)
  freshName := do
    let machine ← get
    set { machine with freshNames := machine.freshNames + 1 }
    pure (freshName machine.freshNames)
  timeStamp := pure []
  print := print
  printError := printError
  codec? name := know (·.equipment.codec? name)
  yaml t fault := know (·.equipment.yaml t fault)

end Machine
end TemplateSplice
