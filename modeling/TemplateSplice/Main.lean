import TemplateSplice.Command.Run
import TemplateSplice.Host.Machine

/-! The program on the system that it is started on. -/
namespace TemplateSplice

namespace Native

/-- The number that a system gives a failure, and its text. -/
def codeOf : IO.Error → Nat × String
  | .alreadyExists _ code text => (code.toNat, text)
  | .otherError code text => (code.toNat, text)
  | .resourceBusy code text => (code.toNat, text)
  | .resourceVanished code text => (code.toNat, text)
  | .unsupportedOperation code text => (code.toNat, text)
  | .hardwareFault code text => (code.toNat, text)
  | .unsatisfiedConstraints code text => (code.toNat, text)
  | .illegalOperation code text => (code.toNat, text)
  | .protocolError code text => (code.toNat, text)
  | .timeExpired code text => (code.toNat, text)
  | .interrupted _ code text => (code.toNat, text)
  | .noFileOrDirectory _ code text => (code.toNat, text)
  | .invalidArgument _ code text => (code.toNat, text)
  | .permissionDenied _ code text => (code.toNat, text)
  | .resourceExhausted _ code text => (code.toNat, text)
  | .inappropriateType _ code text => (code.toNat, text)
  | .noSuchThing _ code text => (code.toNat, text)
  | .unexpectedEof => (5, "Input/output error")
  | .userError text => (5, text)

/-- The kind of a failure. -/
def kindOf (e : IO.Error) : FaultKind :=
  let (number, text) := codeOf e
  let known : List FaultKind :=
    [.missing, .alreadyExists, .notDirectory, .isDirectory, .busy, .nameTooLong]
  (known.find? (·.number = number)).getD (.other number text)

/-- Runs an operation on a name, and gives its failure that name. -/
def attempt {α : Type} (name : Text) (target : Option Text) (op : IO α) : IO (Except Fault α) :=
  if '\x00' ∈ name ∨ target.any ('\x00' ∈ ·) then pure (.error .nullInName)
  else
    tryCatch (do
      let a ← op
      pure (.ok a))
      fun e => pure (.error (.refused (kindOf e) name target))

/-- Whether a directory is at a name. -/
def isDirectory (name : Text) : IO Bool := do
  let here ← IO.currentDir
  let data ← (here / String.ofList name).metadata
  match data.type with
  | .dir => pure true
  | _ => pure false

def readFile (name : Text) : IO Bytes := do
  let bytes ← IO.FS.readBinFile (String.ofList name)
  pure bytes.toList

/-- Opens a file and writes to it. -/
def writeAs (mode : IO.FS.Mode) (name : Text) (bytes : Bytes) : IO Unit :=
  IO.FS.withFile (String.ofList name) mode fun file => file.write ⟨bytes.toArray⟩

/-- The environment that the program was started with: a name, an equals sign and a value for every
variable, and the null character after it. -/
def environment : IO (List (Text × Text)) := do
  let bytes ← IO.FS.readBinFile "/proc/self/environ"
  let t := (String.fromUTF8? bytes).getD ""
  pure ((Text.splitOn ['\x00'] t.toList).filterMap fun entry =>
    match entry.span (· != '=') with
    | (name, _ :: value) => some (name, value)
    | _ => none)

/-- Eight letters and digits that nothing is known about. -/
def freshName : IO Text := do
  let bytes ← IO.getRandomBytes 8
  let letters := "abcdefghijklmnopqrstuvwxyz012345".toList
  pure (bytes.toList.map fun b => (letters[b.toNat % 32]?).getD 'a')

/-- The directory for temporary files. -/
def temporaryDirectory : IO Text := do
  let place ← IO.getEnv "TMPDIR"
  match place with
  | some s => pure (if s = "" then "/tmp".toList else s.toList)
  | none => pure "/tmp".toList

/-- The text of a file of the system's own, which is empty if there is none. -/
def systemText (name : String) : IO Text :=
  tryCatch (do
    let bytes ← IO.FS.readBinFile name
    pure ((String.fromUTF8? bytes).getD "").toList)
    fun _ => pure []

/-- The home directory of a user, from the list of all users. A user has a line there, with the name in
front, the number third and the home directory sixth. -/
def home (user : Text) : IO (Option Text) := do
  let users ← systemText "/etc/passwd"
  let status ← systemText "/proc/self/status"
  let number? := (Text.lines status).findSome? fun line =>
    match Text.splitOn ['\t'] line with
    | label :: number :: _ => if label = "Uid:".toList then some number else none
    | _ => none
  pure ((Text.lines users).findSome? fun line =>
    match Text.splitOn [':'] line with
    | name :: _ :: number :: _ :: _ :: place :: _ =>
      if (if user = [] then some number = number? else name = user) then some place else none
    | _ => none)

/-- Prints a text to a stream. -/
def printTo (stream : IO IO.FS.Stream) (t : Text) : IO (Except StreamFault Unit) :=
  tryCatch (do
    let stream ← stream
    stream.putStr (String.ofList t)
    stream.flush
    pure (.ok ()))
    fun e => pure (.error (.refused (kindOf e)))

/-- The system as a host. -/
def host : Host IO where
  isDirectory name := attempt name none (isDirectory name)
  read name := attempt name none (readFile name)
  makeDirectory name := attempt name none (IO.FS.createDir (String.ofList name))
  create name := attempt name none (writeAs .writeNew name [])
  write name bytes := attempt name none (writeAs .write name bytes)
  append name bytes := attempt name none (writeAs .append name bytes)
  move name target :=
    attempt name (some target) (IO.FS.rename (String.ofList name) (String.ofList target))
  remove name := attempt name none (IO.FS.removeFile (String.ofList name))
  workingDirectory := do
    let here ← IO.currentDir
    pure here.toString.toList
  temporaryDirectory := temporaryDirectory
  environment := environment
  freshName := freshName
  timeStamp := do
    let now ← IO.monoMsNow
    pure (decimalDigits now ++ [' '])
  home := home
  print t := printTo IO.getStdout t
  printError t := printTo IO.getStderr t
  codec? name := pure (Equipment.standard.codec? name)
  yaml t fault := pure (Equipment.standard.yaml t fault)

end Native
end TemplateSplice

/-- Runs the program; a problem that no command reports ends it with one. -/
def main (line : List String) : IO UInt32 := do
  let action := TemplateSplice.Command.run TemplateSplice.Native.host .late (line.map String.toList)
  let (result, _) ← action.run.run TemplateSplice.Journal.fresh
  match result with
  | .ok code => pure (UInt32.ofNat code)
  | .error problem => do
    let message := problem.report.message
    let _ ← TemplateSplice.Native.host.printError ("cfn-merge: ".toList ++ message.toList ++ ['\n'])
    pure 1
