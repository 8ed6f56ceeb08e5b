import TemplateSplice.Encoding.Codec

/-! What may go wrong on a disk, and where texts go to a stream. A fault of the disk tells the name that
was asked for, and for a move also the name to move to; where bytes go to a file that is open already, it
tells none. -/
namespace TemplateSplice

inductive FaultKind where
  | missing
  | alreadyExists
  | notDirectory
  | isDirectory
  | busy
  | nameTooLong
  /-- Any other failure, by its number and its text. -/
  | other (number : Nat) (text : String)
  deriving DecidableEq, Repr

namespace FaultKind

/-- The number that messages give. -/
def number : FaultKind → Nat
  | missing => 2
  | alreadyExists => 17
  | notDirectory => 20
  | isDirectory => 21
  | busy => 16
  | nameTooLong => 36
  | other number _ => number

def text : FaultKind → String
  | missing => "No such file or directory"
  | alreadyExists => "File exists"
  | notDirectory => "Not a directory"
  | isDirectory => "Is a directory"
  | busy => "Device or resource busy"
  | nameTooLong => "File name too long"
  | other _ text => text

/-- The message of a failure without a name. -/
def message (kind : FaultKind) : String :=
  let number := kind.number
  let text := kind.text
  s!"[Errno {number}] {text}"

end FaultKind

/-- A failure of the disk. -/
inductive Fault where
  | refused (kind : FaultKind) (name : Text) (target : Option Text)
  /-- Bytes that go to an open file are taken no longer. -/
  | stopped (kind : FaultKind)
  /-- A name that holds the null character names nothing at all. -/
  | nullInName
  /-- No name could be found that is not in use. -/
  | namesUsedUp
  deriving DecidableEq, Repr

namespace Fault

def message : Fault → String
  | refused kind name target =>
    let message := kind.message
    let name := quotedString (String.ofList name)
    match target with
    | none => s!"{message}: {name}"
    | some target =>
      let target := quotedString (String.ofList target)
      s!"{message}: {name} -> {target}"
  | stopped kind => kind.message
  | nullInName => "embedded null byte"
  | namesUsedUp =>
    let number := FaultKind.alreadyExists.number
    s!"[Errno {number}] No usable temporary file name found"

def kind? : Fault → Option FaultKind
  | refused kind _ _ => some kind
  | stopped kind => some kind
  | nullInName => none
  | namesUsedUp => some .alreadyExists

/-- Whether a fault only says that nothing is there. -/
def isAbsence (f : Fault) : Bool :=
  match f with
  | refused .missing _ _ => true
  | refused .notDirectory _ _ => true
  | nullInName => true
  | _ => false

end Fault

/-- Why a stream does not take a text. -/
inductive StreamFault where
  | refused (kind : FaultKind)
  /-- The encoding of the stream lacks a character. -/
  | unencodable (fault : EncodeFault)
  deriving DecidableEq, Repr

end TemplateSplice
