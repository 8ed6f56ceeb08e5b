import TemplateSplice.Text.Basic

/-! Paths by their segments. Empty segments and single dots are dropped when a path is read, and
double dots are kept; two slashes in front are an anchor of their own. -/
namespace TemplateSplice

/-- Where a path starts. -/
inductive Anchor where
  /-- Wherever the path is used. -/
  | here
  | root
  /-- A root written with exactly two slashes. -/
  | doubleRoot
  deriving DecidableEq, Repr

namespace Anchor

def text : Anchor → Text
  | here => []
  | root => ['/']
  | doubleRoot => ['/', '/']

/-- The anchor that the slashes in front of a text make. -/
def ofSlashes : Nat → Anchor
  | 0 => here
  | 2 => doubleRoot
  | _ => root

end Anchor

/-- A path: where it starts, and the segments from there. -/
structure Path where
  anchor : Anchor
  segments : List Text
  deriving DecidableEq, Repr

namespace Path

def dot : Text := ['.']

def dotDot : Text := ['.', '.']

/-- The path of a text. -/
def ofText (t : Text) : Path :=
  { anchor := .ofSlashes (t.takeWhile (· == '/')).length
    segments := (Text.splitOn ['/'] t).filter fun s => s ≠ [] ∧ s ≠ dot }

/-- The text of a path; the path that stays where it is is a dot. -/
def text (p : Path) : Text :=
  match p.anchor, p.segments with
  | .here, [] => dot
  | a, s => a.text ++ Text.joinWith ['/'] s

/-- The text of a path as a string. -/
def render (p : Path) : String := String.ofList p.text

def ofString (s : String) : Path := ofText s.toList

def isAbsolute (p : Path) : Bool := p.anchor ≠ .here

/-- The path without its last segment. -/
def parent (p : Path) : Path := { p with segments := p.segments.dropLast }

/-- The last segment, empty if there is none. -/
def name (p : Path) : Text := p.segments.getLast?.getD []

/-- One path seen from another; an absolute path is the same from everywhere. -/
def join (p q : Path) : Path :=
  if q.isAbsolute then q else { p with segments := p.segments ++ q.segments }

/-- The parts that order paths: the anchor, if there is one, and the segments. -/
def parts (p : Path) : List Text :=
  match p.anchor with
  | .here => p.segments
  | a => a.text :: p.segments

end Path
end TemplateSplice
