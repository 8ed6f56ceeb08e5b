import TemplateSplice.Logging.Journal
import TemplateSplice.Path.Normal
import TemplateSplice.Problem.Basic

/-! Templates and where they are read from. A template that another one refers to is looked for
from the directory of that other one, never from a working directory. -/
namespace TemplateSplice

/-- Where templates are read from, and where it is noted what happens. -/
structure Access (m : Type → Type) where
  holds : Path → ExceptT Problem m Bool
  read : Path → ExceptT Problem m Text
  note : Record → m Unit

/-- The name of a template: a text, or a path already. -/
inductive TemplateName where
  | text (t : Text)
  | path (p : Path)
  deriving DecidableEq, Repr

namespace TemplateName

/-- The text of a name. -/
def shown : TemplateName → Text
  | text t => t
  | path p => p.text

/-- Whether a name names nothing. The path of the empty text shows as a dot. -/
def isBlank (name : TemplateName) : Bool :=
  Text.strip name.shown = [] || (match name with | text _ => false | path p => p.text = Path.dot)

/-- The normal form of the path of a name. -/
def normal (name : TemplateName) : Path := (Path.ofText name.shown).normalize

end TemplateName

/-- A template: its body, and the path it was read from in normal form. -/
structure Template where
  body : Text
  path : Path
  deriving DecidableEq, Repr

/-- A part of the program, as it names itself in records. -/
def loggerName (part : String) : Text := ("cfnmerge.core.template." ++ part).toList

namespace Access

variable {m : Type → Type} [Monad m]

/-- Notes that a resource was found. -/
def noteResolved (access : Access m) (resource document : Text) (path : Path) : m Unit :=
  let message := "Resolved import ".toList ++ Text.quoted resource ++ " from ".toList ++ document ++
    " to ".toList ++ path.text
  access.note ⟨Level.debug, loggerName "paths", message⟩

/-- The path of a template that the document of a path refers to; the template must be there. -/
def resolve (access : Access m) (document resource : Text) : ExceptT Problem m Path := do
  let path := (Path.ofText document).resolve (Path.ofText resource)
  if ← access.holds path then
    access.noteResolved resource document path
    pure path
  else throw (.importMissing resource path document)

/-- The template of a name. -/
def openTemplate (access : Access m) (name : TemplateName) : ExceptT Problem m Template := do
  if name.isBlank then throw .blankTemplate
  else
    let path := name.normal
    if ← access.holds path then
      let body ← access.read path
      pure ⟨body, path⟩
    else throw (.templateMissing name.shown path)

/-- The template that another one refers to. -/
def load (access : Access m) (document : Template) (resource : Text) :
    ExceptT Problem m Template := do
  let path ← access.resolve document.path.text resource
  let body ← access.read path
  pure ⟨body, path⟩

end Access
end TemplateSplice
