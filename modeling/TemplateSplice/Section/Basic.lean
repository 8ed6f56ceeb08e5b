import TemplateSplice.Text.Basic

/-! Sections of a template. A section starts at a header: an allow-listed name at the start of a
line with a colon right after it. Headers are found anew in every body; nothing keeps positions. -/
namespace TemplateSplice

/-- The section names that a scan looks for, in the order in which they are tried. -/
structure AllowList where
  names : List Text
  names_ne_nil : names ≠ []

/-- An occurrence of a header in a body. -/
structure Header where
  name : Text
  /-- The position of the first character of the name. -/
  start : Nat
  /-- The position just past the colon. -/
  stop : Nat
  deriving DecidableEq, Repr

namespace AllowList

/-- The allow-list of some names, if there are any. -/
def ofList? (names : List Text) : Option AllowList :=
  if h : names = [] then none else some ⟨names, h⟩

/-- What a header looks like: the name and a colon. -/
def headerText (name : Text) : Text := name ++ [':']

/-- The first name in the allow-list whose header stands here. -/
def nameAt? (allowed : AllowList) (t : Text) : Option Text :=
  allowed.names.find? fun name => (headerText name).isPrefixOf t

/-- The headers in the rest of a body that starts at the given position. Some characters may still
belong to the header before; a header starts only at the start of a line. -/
def headersFrom (allowed : AllowList) : Nat → Nat → Bool → Text → List Header
  | _, _, _, [] => []
  | position, pending + 1, _, c :: r =>
    headersFrom allowed (position + 1) pending (c == '\n') r
  | position, 0, false, c :: r => headersFrom allowed (position + 1) 0 (c == '\n') r
  | position, 0, true, c :: r =>
    match allowed.nameAt? (c :: r) with
    | some name =>
      ⟨name, position, position + name.length + 1⟩ ::
        headersFrom allowed (position + 1) name.length (c == '\n') r
    | none => headersFrom allowed (position + 1) 0 (c == '\n') r

/-- All headers of a body, in order. -/
def headers (allowed : AllowList) (body : Text) : List Header :=
  allowed.headersFrom 0 0 true body

/-- The names of the sections of a body, in order and with repetitions. -/
def sections (allowed : AllowList) (body : Text) : List Text :=
  (allowed.headers body).map Header.name

/-- The first header of a name among the headers, and where the header after it starts. -/
def firstHeader? (name : Text) : List Header → Option (Header × Option Nat)
  | [] => none
  | h :: r => if h.name = name then some (h, r.head?.map Header.start) else firstHeader? name r

/-- The text of the first section of a name: from its colon to the next header, or to the end of
the body. -/
def section? (allowed : AllowList) (body name : Text) : Option Text :=
  (firstHeader? name (allowed.headers body)).map fun (h, next) =>
    body.slice h.stop (next.getD body.length)

/-- The body with a bare header for a name that it has no section of. The header stands on a line
of its own. -/
def withHeader (allowed : AllowList) (body name : Text) : Text :=
  if name ∈ allowed.sections body then body
  else
    let lineEnd := if body = [] ∨ body.getLast? = some '\n' then [] else ['\n']
    body ++ lineEnd ++ headerText name

/-- The body with contents put right after the first header of a name, which is added at the end if
it is missing. A name that is not allowed has no header even then. -/
def insert? (allowed : AllowList) (body name contents : Text) : Option Text :=
  let body := allowed.withHeader body name
  (firstHeader? name (allowed.headers body)).map fun (h, _) => body.splice h.stop h.stop contents

end AllowList
end TemplateSplice
