import TemplateSplice.Encoding.Blocks
import TemplateSplice.Host.Basic
import TemplateSplice.Path.Normal

/-! Reading and writing of files. A file is replaced through a file beside it, which takes its place
when all is written and is removed when anything fails, so that nobody sees half a file. -/
namespace TemplateSplice.Host

variable {m : Type → Type} [Monad m]

/-- The outcome of an action as a value. -/
def observe {α : Type} (action : Action m α) : Action m (Except Problem α) :=
  ExceptT.lift action.run

/-- Asks for what is at a name: whether it is a directory, or none if nothing is there. -/
def directory? (host : Host m) (name : Text) : Action m (Option Bool) := do
  match ← run (host.isDirectory name) with
  | .ok answer => pure (some answer)
  | .error fault => if fault.isAbsence then pure none else throw (.disk fault)

def holds (host : Host m) (path : Path) : Action m Bool := do
  let answer ← host.directory? path.text
  pure answer.isSome

def holdsFile (host : Host m) (path : Path) : Action m Bool := do
  let answer ← host.directory? path.text
  pure (answer == some false)

def holdsDirectory (host : Host m) (path : Path) : Action m Bool := do
  let answer ← host.directory? path.text
  pure (answer == some true)

/-- Makes a directory whose parent is there; one that is there already will do. -/
def makeLastDirectory (host : Host m) (path : Path) (fault : Fault) : Action m Unit := do
  if fault.kind? = some .missing then throw (.disk fault)
  else if ← host.holdsDirectory path then pure ()
  else throw (.disk fault)

/-- Makes a directory and the directories above it, the last segment first. -/
def makeDirectories (host : Host m) (anchor : Anchor) : List Text → Action m Unit
  | [] => do
    let path : Path := ⟨anchor, []⟩
    match ← run (host.makeDirectory path.text) with
    | .ok () => pure ()
    | .error fault => host.makeLastDirectory path fault
  | s :: above => do
    let path : Path := ⟨anchor, (s :: above).reverse⟩
    match ← run (host.makeDirectory path.text) with
    | .ok () => pure ()
    | .error fault =>
      if fault.kind? = some .missing then do
        host.makeDirectories anchor above
        match ← run (host.makeDirectory path.text) with
        | .ok () => pure ()
        | .error fault => host.makeLastDirectory path fault
      else host.makeLastDirectory path fault

/-- Makes the directory that a path is in, if it is missing. -/
def ensureParent (host : Host m) (path : Path) : Action m Unit :=
  host.makeDirectories path.anchor path.parent.segments.reverse

/-- The normal form of a path seen from the working directory. -/
def absolute (host : Host m) (path : Path) : Action m Path := do
  let cwd ← run host.workingDirectory
  pure ((Path.ofText cwd).join path).normalize

/-- The name of something in a directory; an absolute name stands for itself. -/
def nameIn (directory : Path) (name : Text) : Text :=
  match name with
  | '/' :: _ => name
  | _ => if directory.segments = [] then directory.text ++ name else directory.text ++ '/' :: name

/-- The codec of a name. -/
def codecOf (host : Host m) (name : Text) : Action m Codec :=
  match Encoding.ofName? name with
  | some encoding => pure encoding.codec
  | none => do
    match ← run (host.codec? name) with
    | some codec => pure codec
    | none => throw (.unknownEncoding name)

/-- Refuses the name of an encoding that cannot even be looked up. -/
def checkEncodingName (name : Text) : Action m Unit :=
  if '\x00' ∈ name then throw .nullInEncoding else pure ()

/-- The problem of a codec that cannot write a text. -/
def encodeProblem : CodecFault EncodeFault → Problem
  | .usual fault => .unencodable fault
  | .foreign fault => .foreign fault

/-- The problem of a codec that cannot read bytes. -/
def decodeProblem : CodecFault DecodeFault → Problem
  | .usual fault => .undecodable fault
  | .foreign fault => .foreign fault

/-- The bytes of texts that are written one after another, in the encoding of a name. -/
def encoded (host : Host m) (name : Text) (parts : List Text) : Action m Bytes := do
  let codec ← host.codecOf name
  match codec.stream parts with
  | .ok bytes => pure bytes
  | .error fault => throw (encodeProblem fault)

/-- What a writer leaves: the texts that it wrote, one after another, and perhaps a problem that it met
after writing them. -/
structure Writing where
  parts : List Text
  problem : Option Problem

/-- The writer of a text. -/
def Writing.ofText (t : Text) : Writing := ⟨[t], none⟩

/-- The number of names that are tried for a new file. -/
def nameLimit : Nat := 10000

/-- Makes an empty file in a directory, its name made from fresh characters, and gives the name.
Names that are taken are passed over, but not without end. -/
def createFresh (host : Host m) (directory : Path) (nameOf : Text → Text) : Nat → Action m Text
  | 0 => throw (.disk .namesUsedUp)
  | tries + 1 => do
    let fresh ← run host.freshName
    let name := nameIn directory (nameOf fresh)
    match ← run (host.create name) with
    | .ok () => pure name
    | .error fault =>
      if fault.kind? = some .alreadyExists then host.createFresh directory nameOf tries
      else throw (.disk fault)

/-- Makes an empty file with a new name beside a path. -/
def createBeside (host : Host m) (path : Path) : Action m Text := do
  let directory ← host.absolute path.parent
  host.createFresh directory (fun fresh => '.' :: path.name ++ '.' :: fresh) nameLimit

/-- Writes to a new file and moves it to a path. -/
def fillAndMove (host : Host m) (name : Text) (path : Path) (writing : Writing) (encoding : Text) :
    Action m Unit := do
  let bytes ← host.encoded encoding writing.parts
  attempt (host.write name bytes)
  match writing.problem with
  | some problem => throw problem
  | none => attempt (host.move name path.text)

/-- Replaces the file at a path, or leaves everything as it was but for directories that were
missing. -/
def replaceFile (host : Host m) (path : Path) (writing : Writing) (encoding : Text) :
    Action m Unit := do
  host.ensureParent path
  checkEncodingName encoding
  let name ← host.createBeside path
  match ← observe (host.fillAndMove name path writing encoding) with
  | .ok () => pure ()
  | .error problem => do
    let _ ← run (host.remove name)
    throw problem

/-- Replaces the text of a file. -/
def writeText (host : Host m) (path : Path) (content encoding : Text) : Action m Unit :=
  host.replaceFile path (.ofText content) encoding

/-- Writes a text to a new file in the temporary directory, and gives its path. The file stays even if not
all of the text can be written to it. -/
def writeTemporary (host : Host m) (content start stop encoding : Text) : Action m Path := do
  let place ← run host.temporaryDirectory
  let directory ← host.absolute (Path.ofText place)
  let name ← host.createFresh directory (fun fresh => start ++ fresh ++ stop) nameLimit
  checkEncodingName encoding
  let bytes ← host.encoded encoding [content]
  attempt (host.write name bytes)
  pure (Path.ofText name)

/-- The text of a file, its line ends unified. -/
def readText (host : Host m) (path : Path) (encoding : Text) : Action m Text := do
  if !(← host.holds path) then throw (.textMissing path)
  else
    checkEncodingName encoding
    let bytes ← attempt (host.read path.text)
    let codec ← host.codecOf encoding
    match codec.decode bytes with
    | .ok t => pure t.unifyLineEnds
    | .error fault => throw (decodeProblem fault)

/-- The problem of a reader of YAML that gives no value. -/
def yamlProblem : YamlRefusal → Problem
  | .malformed name message => .yamlMalformed name message
  | .undecodable fault => .undecodable fault
  | .foreign fault => .foreign fault

/-- The value of a YAML file that is there. -/
def parseYaml (host : Host m) (path : Path) : Action m Value := do
  let bytes ← attempt (host.read path.text)
  let (t, decodeFault) := Blocks.decode bytes
  match ← run (host.yaml t decodeFault) with
  | .ok v => pure v
  | .error refusal => throw (yamlProblem refusal)

/-- Whether a problem says that a file cannot be read as YAML. -/
def isUnreadable : Problem → Bool
  | .disk fault => fault.kind?.isSome
  | .yamlMalformed _ _ => true
  | _ => false

/-- The value of a YAML file, or a default if it holds none. Where the reading is not strict the
default also stands for a file that is missing or cannot be read. -/
def readYaml (host : Host m) (path : Path) (default : Value) (isStrict : Bool) : Action m Value := do
  if !(← host.holds path) then
    if isStrict then throw (.yamlMissing path) else pure default
  else
    match ← observe (host.parseYaml path) with
    | .ok .null => pure default
    | .ok v => pure v
    | .error problem => if isUnreadable problem && !isStrict then pure default else throw problem

end TemplateSplice.Host
