import TemplateSplice.Command.Output
import TemplateSplice.Command.Request
import TemplateSplice.Host.Journal
import TemplateSplice.Host.Settings
import TemplateSplice.Host.Templates

/-! What every command does first: it loads the settings and configures the journal. A problem of
the program's own or of the system is printed, and any other one ends the program. -/
namespace TemplateSplice.Command

variable {m : Type → Type} [Monad m]

/-- A word of the command line that is a path, unless it is missing or empty. -/
def givenPath (t : Option Text) : Option Path :=
  match t with
  | some (c :: r) => some (Path.ofText (c :: r))
  | _ => none

/-- The settings that a command works under. -/
def loadSettings (host : Host m) (request : Request) : Action m Value := do
  let environment ← Host.run host.environment
  host.loadSettings environment (givenPath request.settings) true

/-- The level of the journal that settings ask for. -/
def journalLevel (settings : Value) : Text :=
  let level := ((settings.get? "logging").bind (·.get? "level")).bind Value.str?
  (level.getD "WARNING").toList

/-- Configures the journal. JSON output stays alone on its streams unless records are asked for. -/
def configure (host : Host m) (request : Request) (settings : Value) : Action m Unit :=
  let logFile := givenPath request.logFile
  if request.asJson && !request.isVerbose && logFile.isNone then
    modify fun journal => journal.muteIfBare
  else
    host.configureJournal (if request.isVerbose then "DEBUG".toList else journalLevel settings) logFile

/-- The template settings; those of checked settings are always texts. -/
def templateSettings (settings : Value) : Action m Settings.Template :=
  match Settings.TemplateFields.ofSettings settings with
  | .ok fields => pure (fields.texts?.getD .default)
  | .error fault => throw (.view fault)

/-- What temporary files start and end with. -/
def temporaryParts (settings : Value) : Action m (Text × Text) :=
  match Settings.OutputFields.ofSettings settings with
  | .ok fields =>
    pure ((fields.tempStart.str?.getD "").toList, (fields.tempEnd.str?.getD "").toList)
  | .error fault => throw (.view fault)

/-- The name of a template on a command line: absolute, unless it is blank. -/
def templateName (host : Host m) (t : Text) : Action m TemplateName := do
  if Text.strip t = [] then pure (.text t)
  else
    let path ← host.absolute (Path.ofText t)
    pure (.text path.text)

def print (host : Host m) (t : Text) : Action m Unit := Host.attemptPrint (host.print t)

def printError (host : Host m) (t : Text) : Action m Unit := Host.attemptPrint (host.printError t)

/-- The word for a problem that is to be printed: one for the program's own problems and another
for those of the system. -/
def failureWord? (own system : String) (kind : ProblemKind) : Option String :=
  if kind.isOwn then some own else if kind.isSystem then some system else none

/-- Goes on with what an action gives, or prints its problem and ends with one. -/
def reporting {α : Type} (host : Host m) (output : Output) (word? : ProblemKind → Option String)
    (action : Action m α) (next : α → Action m Nat) : Action m Nat := do
  match ← Host.observe action with
  | .ok a => next a
  | .error problem =>
    let report := problem.report
    match word? report.kind with
    | some word => do
      printError host (output.failure report none word)
      pure 1
    | none => throw problem

end TemplateSplice.Command
