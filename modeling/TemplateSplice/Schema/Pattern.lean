import TemplateSplice.Text.Blank

/-! Patterns of texts: a sequence of character classes, each once or any number of times, from the
start of the text to its end. One line feed may follow at the end. -/
namespace TemplateSplice

inductive CharClass where
  | letter
  | letterOrDigit
  | notLineFeed
  | notBlank
  deriving DecidableEq, Repr

/-- The letters and digits of the classes are the ASCII ones. -/
def CharClass.holds : CharClass → Char → Bool
  | letter, c => c.isAlpha
  | letterOrDigit, c => c.isAlphanum
  | notLineFeed, c => c != '\n'
  | notBlank, c => !isBlank c

namespace Pattern

/-- A part of a pattern. -/
inductive Item where
  | once (cls : CharClass)
  | many (cls : CharClass)
  deriving DecidableEq, Repr

/-- What may be left of a text when characters of a class are taken off its start. -/
def manyRests (cls : CharClass) : Text → List Text
  | [] => [[]]
  | c :: r => (c :: r) :: if cls.holds c then manyRests cls r else []

/-- What may be left of a text when an item is taken off its start. -/
def Item.rests : Item → Text → List Text
  | once cls, c :: r => if cls.holds c then [r] else []
  | once _, [] => []
  | many cls, t => manyRests cls t

end Pattern

/-- A pattern with the way it is written. -/
structure Pattern where
  source : String
  items : List Pattern.Item
  deriving DecidableEq, Repr

namespace Pattern

/-- What may be left of a text when all items are taken off its start. -/
def rests (p : Pattern) (t : Text) : List Text :=
  p.items.foldl (fun texts item => texts.flatMap item.rests) [t]

/-- Whether a text has the form of the pattern. -/
def accepts (p : Pattern) (t : Text) : Bool := (p.rests t).any fun r => r = [] ∨ r = ['\n']

/-- A letter, then letters and digits. -/
def name : Pattern := ⟨"^[A-Za-z][A-Za-z0-9]*$", [.once .letter, .many .letterOrDigit]⟩

/-- Characters of one line, the last of which is not blank. -/
def token : Pattern := ⟨"^[^\\n]*\\S$", [.many .notLineFeed, .once .notBlank]⟩

end Pattern
end TemplateSplice
