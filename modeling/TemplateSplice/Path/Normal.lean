import TemplateSplice.Path.Basic

/-! Normal form of paths: double dots are taken back with the segment before them. Above an anchor
there is nothing, so there they fall away; without an anchor they stay in front. -/
namespace TemplateSplice.Path

/-- One more segment on a stack of segments, the last one on top. -/
def push (anchor : Anchor) (stack : List Text) (s : Text) : List Text :=
  if s ≠ dotDot then s :: stack
  else match stack with
    | [] => if anchor = .here then [dotDot] else []
    | top :: below => if top = dotDot then dotDot :: stack else below

/-- The path with every double dot taken back that can be. -/
def normalize (p : Path) : Path :=
  { p with segments := (p.segments.foldl (push p.anchor) []).reverse }

/-- A segment that names something. -/
def Ordinary (s : Text) : Prop := s ≠ [] ∧ s ≠ dot ∧ s ≠ dotDot ∧ '/' ∉ s

/-- A path whose double dots stand in front, and only where there is no anchor. -/
def IsNormal (p : Path) : Prop :=
  ∃ ups rest, p.segments = List.replicate ups dotDot ++ rest ∧ (∀ s ∈ rest, Ordinary s) ∧
    (p.anchor ≠ .here → ups = 0)

/-- The path that a reference means in the document at another path: from the directory of that
document, unless it is absolute. -/
def resolve (document reference : Path) : Path := (document.parent.join reference).normalize

end TemplateSplice.Path
