import TemplateSplice.Host.Files
import TemplateSplice.Merge.Access

/-! Templates on the disk of a host, in an encoding. -/
namespace TemplateSplice.Host

variable {m : Type → Type} [Monad m]

/-- What is wrong with a template, given what is wrong with a text file. -/
def templateProblem (path : Path) (encoding : Text) : Problem → Problem
  | .undecodable fault => .templateUndecodable path encoding fault
  | problem => problem

/-- The text of a template. -/
def readTemplate (host : Host m) (encoding : Text) (path : Path) : Action m Text := do
  match ← observe (host.readText path encoding) with
  | .ok t => pure t
  | .error problem => throw (templateProblem path encoding problem)

/-- The access to templates in an encoding. -/
def templates (host : Host m) (encoding : Text) : Access (StateT Journal m) where
  holds := host.holdsFile
  read := host.readTemplate encoding
  note := host.log

/-- How the access to templates in an encoding is shown. -/
def templatesText (encoding : Text) : Text :=
  "LocalFileAccess(encoding=".toList ++ Text.quoted encoding ++ [')']

end TemplateSplice.Host
