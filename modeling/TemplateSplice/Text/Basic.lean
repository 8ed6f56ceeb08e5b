/-! Texts as lists of characters, and the cuts that templates are made of. Positions count
characters. Cutting a text at two positions and gluing the three parts gives the text back. -/
namespace TemplateSplice

/-- A text under edit; positions in it count characters. -/
abbrev Text := List Char

namespace Text

/-- The characters from position a up to position b. -/
def slice (t : Text) (a b : Nat) : Text := (t.take b).drop a

/-- The text with the characters between the two positions replaced. -/
def splice (t : Text) (a b : Nat) (new : Text) : Text := t.take a ++ new ++ t.drop b

@[simp] theorem slice_self (t : Text) (a : Nat) : t.slice a a = [] := by
  simp [slice]

/-- Parts joined with a separator between neighbours. -/
def joinWith (sep : Text) : List Text → Text
  | [] => []
  | [t] => t
  | t :: u :: r => t ++ sep ++ joinWith sep (u :: r)

/-- The parts of a text, with some characters of a separator still to be passed over. -/
def partsFrom (sep : Text) : Nat → Text → List Text
  | _, [] => [[]]
  | k + 1, _ :: r => partsFrom sep k r
  | 0, c :: r =>
    if sep.isPrefixOf (c :: r) then [] :: partsFrom sep (sep.length - 1) r
    else match partsFrom sep 0 r with
      | [] => [[c]]
      | part :: parts => (c :: part) :: parts

/-- The parts between the occurrences of a nonempty separator, found from the left; there is
always at least one part. -/
def splitOn (sep t : Text) : List Text := partsFrom sep 0 t

theorem partsFrom_ne_nil (sep : Text) (k : Nat) (t : Text) : partsFrom sep k t ≠ [] := by
  fun_induction partsFrom sep k t <;> simp_all

theorem splitOn_ne_nil (sep t : Text) : splitOn sep t ≠ [] := partsFrom_ne_nil sep 0 t

/-- The lines of a text: the parts between its line feeds. -/
def lines (t : Text) : List Text := splitOn ['\n'] t

end Text
end TemplateSplice
