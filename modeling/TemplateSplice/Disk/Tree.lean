import TemplateSplice.Disk.Fault
import TemplateSplice.Encoding.Utf8
import TemplateSplice.Path.Basic

/-! A tree of files and directories, and what the operations of a disk do to it. A name is followed
from the root or from a working directory. Every operation either gives a fault and leaves the tree
alone, or changes one location. -/
namespace TemplateSplice

inductive Entry where
  | directory
  | file (bytes : Bytes)
  deriving DecidableEq, Repr

/-- The segments from the root to an entry. -/
abbrev Location := List Text

/-- The entries of a disk by their locations. The root is always there and not listed. -/
structure FileTree where
  entries : List (Location × Entry)
  deriving DecidableEq, Repr

namespace FileTree

def empty : FileTree := ⟨[]⟩

def get? (t : FileTree) (l : Location) : Option Entry :=
  if l = [] then some .directory else (t.entries.find? (·.1 = l)).map (·.2)

/-- The bytes of the file at a location. -/
def file? (t : FileTree) (l : Location) : Option Bytes :=
  match t.get? l with
  | some (.file bytes) => some bytes
  | _ => none

def erase (t : FileTree) (l : Location) : FileTree := ⟨t.entries.filter (·.1 ≠ l)⟩

/-- The tree with an entry at a location, whatever was there. -/
def set (t : FileTree) (l : Location) (e : Entry) : FileTree := ⟨(t.erase l).entries ++ [(l, e)]⟩

@[simp] theorem get?_nil (t : FileTree) : t.get? [] = some .directory := by simp [get?]

theorem get?_set_self (t : FileTree) {l : Location} (h : l ≠ []) (e : Entry) :
    (t.set l e).get? l = some e := by
  have : (t.erase l).entries.find? (fun p => decide (p.1 = l)) = none := by
    rw [List.find?_eq_none]
    intro p hp
    simpa using (List.mem_filter.1 hp).2
  simp [get?, set, h, List.find?_append, this]

theorem get?_erase_of_ne (t : FileTree) {l k : Location} (h : k ≠ l) :
    (t.erase l).get? k = t.get? k := by
  by_cases hk : k = []
  · simp [get?, hk]
  · simp only [get?, hk, if_false, erase]
    congr 1
    induction t.entries with
    | nil => rfl
    | cons p r ih => by_cases hp : p.1 = l <;> by_cases hq : p.1 = k <;> simp_all

theorem get?_set_of_ne (t : FileTree) {l k : Location} (h : k ≠ l) (e : Entry) :
    (t.set l e).get? k = t.get? k := by
  rw [← get?_erase_of_ne t h]
  by_cases hk : k = []
  · simp [get?, hk]
  · simp [get?, hk, set, List.find?_append, Ne.symm h]

/-- The greatest number of bytes in a segment. -/
def segmentLimit : Nat := 255

/-- The number of bytes that a whole name stays below. -/
def nameLimit : Nat := 4096

/-- One step of a walk, to a directory. -/
def step (t : FileTree) (l : Location) (s : Text) : Except FaultKind Location :=
  if s = Path.dot then .ok l
  else if s = Path.dotDot then .ok l.dropLast
  else if segmentLimit < (Utf8.encode s).length then .error .nameTooLong
  else match t.get? (l ++ [s]) with
    | none => .error .missing
    | some (.file _) => .error .notDirectory
    | some .directory => .ok (l ++ [s])

/-- What a name leads to: the directory that its last segment is looked up in, that segment, and
whether slashes follow it. -/
structure Lead where
  directory : Location
  /-- The last segment; the name of the root has none. -/
  last : Option Text
  isSlashed : Bool

/-- Follows a name up to its last segment. -/
def follow (t : FileTree) (cwd : Location) (name : Text) : Except FaultKind Lead := do
  if name = [] then .error .missing
  else if nameLimit ≤ (Utf8.encode name).length then .error .nameTooLong
  else
    let start := if name.head? = some '/' then [] else cwd
    let segments := (Text.splitOn ['/'] name).filter (· ≠ [])
    let directory ← segments.dropLast.foldlM t.step start
    .ok ⟨directory, segments.getLast?, name.getLast? = some '/'⟩

/-- The location that a lead names itself, if it ends in a segment that is no dot or double dot. -/
def Lead.proper? (lead : Lead) : Option Location :=
  lead.last.bind fun s =>
    if s = Path.dot ∨ s = Path.dotDot then none else some (lead.directory ++ [s])

/-- The location that a lead ends at, whether anything is there or not. -/
def Lead.location (lead : Lead) : Location :=
  match lead.last with
  | none => lead.directory
  | some s =>
    if s = Path.dot then lead.directory
    else if s = Path.dotDot then lead.directory.dropLast
    else lead.directory ++ [s]

/-- Whether the last segment of a lead is too long. -/
def Lead.isTooLong (lead : Lead) : Bool :=
  lead.last.any fun s => segmentLimit < (Utf8.encode s).length

/-- Follows a name to its end, and gives faults their name. -/
def withLead {α : Type} (t : FileTree) (cwd : Location) (name : Text)
    (f : Lead → Except FaultKind α) : Except Fault α :=
  if '\x00' ∈ name then .error .nullInName
  else
    ((t.follow cwd name).bind fun lead => if lead.isTooLong then .error .nameTooLong else f lead).mapError
      fun kind => .refused kind name none

/-- The entry that a name leads to. -/
def lookup (t : FileTree) (cwd : Location) (name : Text) : Except Fault Entry :=
  t.withLead cwd name fun lead =>
    match t.get? lead.location with
    | none => .error .missing
    | some (.file bytes) => if lead.isSlashed then .error .notDirectory else .ok (.file bytes)
    | some .directory => .ok .directory

/-- The bytes of a file. -/
def readFile (t : FileTree) (cwd : Location) (name : Text) : Except Fault Bytes :=
  (t.lookup cwd name).bind fun
    | .file bytes => .ok bytes
    | .directory => .error (.refused .isDirectory name none)

/-- The tree with a new directory. -/
def makeDirectory (t : FileTree) (cwd : Location) (name : Text) : Except Fault FileTree :=
  t.withLead cwd name fun lead =>
    match lead.proper? with
    | none => .error .alreadyExists
    | some l => if (t.get? l).isSome then .error .alreadyExists else .ok (t.set l .directory)

/-- The tree with a new empty file. -/
def createFile (t : FileTree) (cwd : Location) (name : Text) : Except Fault FileTree :=
  t.withLead cwd name fun lead =>
    match lead.proper? with
    | none => .error .alreadyExists
    | some l =>
      if lead.isSlashed then .error .isDirectory
      else if (t.get? l).isSome then .error .alreadyExists
      else .ok (t.set l (.file []))

/-- The tree with bytes put at the end of a file, which is made if it is missing. -/
def appendFile (t : FileTree) (cwd : Location) (name : Text) (bytes : Bytes) :
    Except Fault FileTree :=
  t.withLead cwd name fun lead =>
    match lead.proper? with
    | none => .error .isDirectory
    | some l =>
      if lead.isSlashed then .error .isDirectory
      else match t.get? l with
        | some .directory => .error .isDirectory
        | some (.file before) => .ok (t.set l (.file (before ++ bytes)))
        | none => .ok (t.set l (.file bytes))

/-- The tree with other bytes in a file. -/
def writeFile (t : FileTree) (cwd : Location) (name : Text) (bytes : Bytes) :
    Except Fault FileTree :=
  t.withLead cwd name fun lead =>
    match t.get? lead.location with
    | none => .error .missing
    | some .directory => .error .isDirectory
    | some (.file _) => .ok (t.set lead.location (.file bytes))

/-- The tree without a file. -/
def removeFile (t : FileTree) (cwd : Location) (name : Text) : Except Fault FileTree :=
  t.withLead cwd name fun lead =>
    match t.get? lead.location with
    | none => .error .missing
    | some .directory => .error .isDirectory
    | some (.file _) => .ok (t.erase lead.location)

/-- The tree with a file moved to a name, where it takes the place of any file. -/
def moveFile (t : FileTree) (cwd : Location) (name target : Text) : Except Fault FileTree :=
  let fail {α : Type} (kind : FaultKind) : Except Fault α := .error (.refused kind name (some target))
  match t.readFile cwd name, t.withLead cwd name (.ok ·), t.withLead cwd target (.ok ·) with
  | .ok bytes, .ok source, .ok lead =>
    match lead.proper? with
    | none => fail .busy
    | some l =>
      match t.get? l with
      | some .directory => fail .isDirectory
      | _ => if lead.isSlashed then fail .notDirectory else .ok ((t.erase source.location).set l (.file bytes))
  | .error (.refused kind _ _), _, _ => fail kind
  | _, .error (.refused kind _ _), _ => fail kind
  | _, _, .error (.refused kind _ _) => fail kind
  | _, _, _ => .error .nullInName

end FileTree
end TemplateSplice
