import TemplateSplice.Calendar.Basic

/-! Places in a YAML text, and what may be wrong there. A cursor holds the rest of the text and
knows the line and the column that the rest starts at. -/
namespace TemplateSplice.Yaml

/-- Why a scalar gives no value. -/
inductive ScalarFault where
  /-- A whole number in a base, without digits. -/
  | noDigits (base : Nat)
  /-- A whole number with more digits than numbers may have. -/
  | tooManyDigits (count : Nat)
  /-- A number in base sixty with a place beyond the doubles. -/
  | tooLarge
  /-- A day or a time that is none. -/
  | calendar (fault : CalendarFault)
  /-- The escape of a code that no character has. -/
  | noCharacter
  /-- The escape of a code that takes more than thirty-one bits. -/
  | noCode
  deriving DecidableEq, Repr

/-- Why a text is no YAML document. -/
inductive Reason where
  /-- The bytes of the text are no characters from somewhere on. -/
  | undecodable
  /-- A character that may not stand in a document at all. -/
  | unprintable
  /-- A character that starts nothing. -/
  | strayCharacter
  /-- A quoted scalar that the text ends in. -/
  | openQuote
  | unknownEscape
  /-- The mark of a document's bounds inside a quoted scalar. -/
  | documentMark
  /-- A key that must have a colon on its line and has none. -/
  | missingColon
  /-- An item, a key or a value where none may stand. -/
  | misplaced
  /-- A token that does not fit what is before it. -/
  | unexpectedToken
  /-- A second document. -/
  | secondDocument
  /-- A key that is a sequence or a mapping. -/
  | compoundKey
  /-- A merge of something that is no mapping. -/
  | badMerge
  /-- A plain scalar that only has a meaning as a key. -/
  | keyOnly
  /-- A scalar that gives no value. -/
  | scalar (fault : ScalarFault)
  deriving DecidableEq, Repr

namespace Reason

def message : Reason → String
  | undecodable => "bytes that are no text"
  | unprintable => "unprintable character"
  | strayCharacter => "a character that cannot start any token"
  | openQuote => "unclosed quoted scalar"
  | unknownEscape => "unknown escape"
  | documentMark => "document mark in a quoted scalar"
  | missingColon => "a key without a colon"
  | misplaced => "an item, key or value that is not allowed here"
  | unexpectedToken => "unexpected token"
  | secondDocument => "a second document"
  | compoundKey => "a sequence or mapping as a key"
  | badMerge => "a merge of something that is no mapping"
  | keyOnly => "a scalar that only has a meaning as a key"
  | scalar _ => "a scalar that gives no value"

end Reason

/-- What is wrong with a text, and the line where, counted from zero. -/
structure Fault where
  reason : Reason
  line : Nat
  deriving DecidableEq, Repr

/-- What the message of every fault starts with. -/
def faultOpening : String := "malformed YAML in line "

def Fault.message (f : Fault) : String :=
  faultOpening ++ toString (f.line + 1) ++ ": " ++ f.reason.message

/-- The characters that end a line. -/
def isLineEnd (c : Char) : Bool :=
  c == '\n' || c == '\r' || c == '\u0085' || c == '\u2028' || c == '\u2029'

/-- What may stand between tokens; the end of the text counts. -/
def isGap : Option Char → Bool
  | none => true
  | some c => c == ' ' || c == '\t' || isLineEnd c

/-- The characters that a document may hold. -/
def isAllowed (c : Char) : Bool :=
  let n := c.toNat
  n == 0x09 || n == 0x0A || n == 0x0D || (0x20 ≤ n && n ≤ 0x7E) || n == 0x85 ||
  (0xA0 ≤ n && n ≤ 0xD7FF) || (0xE000 ≤ n && n ≤ 0xFFFD) || 0x10000 ≤ n

/-- A place in a text. -/
structure Cursor where
  rest : Text
  line : Nat
  column : Nat
  /-- The number of characters before the place. -/
  index : Nat
  deriving Repr

namespace Cursor

def ofText (t : Text) : Cursor := ⟨t, 0, 0, 0⟩

def head? (c : Cursor) : Option Char := c.rest.head?

def at? (c : Cursor) (k : Nat) : Option Char := c.rest[k]?

/-- The place after one character. The signature character takes no column. -/
def next (c : Cursor) : Cursor :=
  match c.rest with
  | [] => c
  | ch :: r =>
    if isLineEnd ch && !(ch == '\r' && r.head? == some '\n') then ⟨r, c.line + 1, 0, c.index + 1⟩
    else if ch == '\uFEFF' then ⟨r, c.line, c.column, c.index + 1⟩
    else ⟨r, c.line, c.column + 1, c.index + 1⟩

/-- The place after so many characters. -/
def forward : Nat → Cursor → Cursor
  | 0, c => c
  | k + 1, c => forward k c.next

/-- The place after the characters of a class. -/
def skip (p : Char → Bool) (c : Cursor) : Cursor := forward (c.rest.takeWhile p).length c

/-- The characters of a class that stand here. -/
def run (p : Char → Bool) (c : Cursor) : Text := c.rest.takeWhile p

/-- The line end that stands here, as what it means in a scalar, and the place after it. -/
def lineEnd? (c : Cursor) : Option (Char × Cursor) :=
  match c.rest with
  | '\r' :: '\n' :: _ => some ('\n', c.next.next)
  | ch :: _ =>
    if isLineEnd ch then
      some (if ch == '\u2028' || ch == '\u2029' then ch else '\n', c.next)
    else none
  | [] => none

/-- Whether the mark of a document's start or end stands here, whatever the column. -/
def isMark (mark : Text) (c : Cursor) : Bool := mark.isPrefixOf c.rest && isGap (c.at? 3)

def startMark : Text := "---".toList

def endMark : Text := "...".toList

def isDocumentMark (c : Cursor) : Bool := c.isMark startMark || c.isMark endMark

def fault {α : Type} (c : Cursor) (reason : Reason) : Except Fault α := .error ⟨reason, c.line⟩

end Cursor
end TemplateSplice.Yaml
