import TemplateSplice.Yaml.Cursor

/-! Sources of YAML documents. A text comes in windows, and a window is taken up as a whole: where
it holds something that may not be in a document, nothing of the window can be read. -/
namespace TemplateSplice.Yaml

/-- A text to read, and the reason why it ends where it does if that is not its proper end. -/
structure Source where
  text : Text
  cut : Option Reason
  deriving DecidableEq, Repr

namespace Source

/-- The number of characters in a window. -/
def windowSize : Nat := 4096

/-- The start of the window that a position is in. The first window is twice as long as the
others. -/
def windowStart (position : Nat) : Nat :=
  if position < 2 * windowSize then 0 else position - position % windowSize

/-- The source of a text. If the text is not whole, then what follows it cannot be decoded. -/
def ofText (t : Text) (isWhole : Bool) : Source :=
  let good := (t.takeWhile isAllowed).length
  let whole := if isWhole then none else some (windowStart t.length, Reason.undecodable)
  let clean := if good = t.length then none else some (windowStart good, Reason.unprintable)
  match whole, clean with
  | none, none => ⟨t, none⟩
  | none, some (stop, reason) => ⟨t.take stop, some reason⟩
  | some (stop, reason), none => ⟨t.take stop, some reason⟩
  | some (stop, reason), some (stop', reason') =>
    if stop' < stop then ⟨t.take stop', some reason'⟩ else ⟨t.take stop, some reason⟩

end Source
end TemplateSplice.Yaml
