import TemplateSplice.Disk.Tree
import TemplateSplice.Logging.Journal
import TemplateSplice.Problem.Basic

/-! What a program needs of the system that it runs on and of the libraries there, as operations of any
monad. Names are followed from the working directory. -/
namespace TemplateSplice

/-- A system to run on. -/
structure Host (m : Type → Type) where
  /-- The entry that a name leads to; of a file only that it is one. -/
  isDirectory : Text → m (Except Fault Bool)
  read : Text → m (Except Fault Bytes)
  makeDirectory : Text → m (Except Fault Unit)
  /-- Makes a file that must not be there. -/
  create : Text → m (Except Fault Unit)
  /-- Gives a file other bytes. -/
  write : Text → Bytes → m (Except Fault Unit)
  /-- Puts bytes at the end of a file, which is made if it is missing. -/
  append : Text → Bytes → m (Except Fault Unit)
  move : Text → Text → m (Except Fault Unit)
  remove : Text → m (Except Fault Unit)
  workingDirectory : m Text
  temporaryDirectory : m Text
  environment : m (List (Text × Text))
  /-- The home directory of a user, if it is known. The user without a name is the one who runs the
  program. -/
  home : Text → m (Option Text)
  /-- Characters that make a name that is not in use. -/
  freshName : m Text
  /-- What stands in front of a line of a log. -/
  timeStamp : m Text
  print : Text → m (Except StreamFault Unit)
  printError : Text → m (Except StreamFault Unit)
  /-- The codec of a name that is not among the names of the program's own encodings. -/
  codec? : Text → m (Option Codec)
  yaml : Text → Option DecodeFault → m (Except YamlRefusal Value)

/-- What a program does on a host: it keeps a journal, and it may fail. -/
abbrev Action (m : Type → Type) := ExceptT Problem (StateT Journal m)

namespace Host

variable {m : Type → Type} [Monad m]

/-- An operation of the host within an action. -/
def run {α : Type} (op : m α) : Action m α := ExceptT.lift (StateT.lift op)

/-- An operation of the host that may fail. -/
def attempt {α : Type} (op : m (Except Fault α)) : Action m α := do
  match ← run op with
  | .ok a => pure a
  | .error fault => throw (.disk fault)

/-- Prints something within an action. -/
def attemptPrint (op : m (Except StreamFault Unit)) : Action m Unit := do
  match ← run op with
  | .ok () => pure ()
  | .error fault => throw (.stream fault)

/-- A result within an action. -/
def liftExcept {α : Type} (result : Except Problem α) : Action m α :=
  match result with
  | .ok a => pure a
  | .error problem => throw problem

/-- Takes a text to a sink. It does not matter whether the sink takes it. -/
def deliver (host : Host m) : Sink × Text → m Unit
  | (.standardError, t) => do
    let _ ← host.printError t
  | (.file path, t) => do
    let _ ← host.append path.text (Utf8.encode t)
  | (.nothing, _) => pure ()

/-- Enters a record in the journal. -/
def log (host : Host m) (r : Record) : StateT Journal m Unit := do
  let journal ← get
  let stamp ← host.timeStamp
  for delivery in journal.deliver stamp r do
    host.deliver delivery

end Host
end TemplateSplice
