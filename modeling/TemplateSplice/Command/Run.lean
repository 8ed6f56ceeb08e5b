import TemplateSplice.Command.Inspect
import TemplateSplice.Command.Merge

/-! The program: it reads a command line and runs the command that it calls. -/
namespace TemplateSplice.Command

variable {m : Type → Type} [Monad m]

def usageText : Text :=
  ("usage: cfn-merge [-h] [--version] <command> FILE [--json] [--config CONFIG] [--verbose] " ++
    "[--log-file LOG_FILE]\n\n" ++
    "commands:\n" ++
    "  inspect  List the sections and imports of a template without merging\n" ++
    "  merge    Merge a template with the templates it imports [--output OUTPUT | --temp]\n").toList

def versionText : Text := "cfn-merge 1.0.0\n".toList

/-- Prints something; it does not matter if the system refuses it. -/
def printIfTaken (op : m (Except StreamFault Unit)) : Action m Unit := do
  match ← Host.run op with
  | .error (.unencodable fault) => throw (.stream (.unencodable fault))
  | _ => pure ()

/-- Ends without a command: with help or the version, or with the usage as an error. -/
def runStop (host : Host m) : Stop → Action m Nat
  | .help => do
    printIfTaken (host.print usageText)
    pure 0
  | .version => do
    printIfTaken (host.print versionText)
    pure 0
  | .misuse => do
    printIfTaken (host.printError usageText)
    pure 2

/-- Runs the program on a command line in a dialect; the answer is the exit code. -/
def run (host : Host m) (dialect : Dialect) (line : List Text) : Action m Nat :=
  match Call.ofLine dialect line with
  | .error stop => runStop host stop
  | .ok call =>
    match call.verb with
    | .merge => runMerge host call.request
    | .inspect => runInspect host call.request

end TemplateSplice.Command
