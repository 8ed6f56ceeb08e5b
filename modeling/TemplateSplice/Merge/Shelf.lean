import TemplateSplice.Merge.Basic

/-! Templates kept in memory, by their paths in normal form. Reading leaves a trail. -/
namespace TemplateSplice

/-- Texts by path. -/
structure Shelf where
  files : List (Path × Text)
  deriving Repr

namespace Shelf

def get? (s : Shelf) (p : Path) : Option Text := (s.files.find? (·.1 = p)).map (·.2)

/-- The shelf with a text at a path, whatever was there. -/
def put (s : Shelf) (p : Path) (t : Text) : Shelf := ⟨s.files.filter (·.1 ≠ p) ++ [(p, t)]⟩

def remove (s : Shelf) (p : Path) : Shelf := ⟨s.files.filter (·.1 ≠ p)⟩

/-- The shelf of texts by the texts of their paths. -/
def ofList (files : List (Text × Text)) : Shelf :=
  files.foldl (fun s (name, t) => s.put (Path.ofText name).normalize t) ⟨[]⟩

end Shelf

/-- What was read and noted, in order. -/
structure Trail where
  reads : List Path
  records : List Record
  deriving Repr

namespace Trail

def empty : Trail := ⟨[], []⟩

end Trail

/-- The access to a shelf. -/
def Shelf.access (s : Shelf) : Access (StateM Trail) where
  holds p := pure (s.get? p).isSome
  read p := do
    modify fun trail => { trail with reads := trail.reads ++ [p] }
    pure ((s.get? p).getD [])
  note r := modify fun trail => { trail with records := trail.records ++ [r] }

end TemplateSplice
