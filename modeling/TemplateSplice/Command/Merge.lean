import TemplateSplice.Command.Session
import TemplateSplice.Merge.Basic

/-! The command that merges a template and writes the result to a file, to a temporary file, or to
the output. -/
namespace TemplateSplice.Command

variable {m : Type → Type} [Monad m]

/-- An import as JSON. -/
def importJson (i : AppliedImport) : Value :=
  .object
    [("kind", .str i.kind.name),
     ("resource", .str (String.ofList i.resource)),
     ("path", .str i.path.render),
     ("sections", .strings (i.sections.map String.ofList))]

/-- What is told of a merge. -/
def mergedMembers (result : Merged) : Members :=
  [("root", .str result.root.render),
   ("imports", .array (result.imports.map importJson)),
   ("dependencies", .strings (result.dependencies.map Path.render))]

/-- Merges the template of a request, under its settings. -/
def mergeRequested (host : Host m) (request : Request) :
    Action m (Value × Settings.Template × Merged) := do
  let settings ← loadSettings host request
  configure host request settings
  let template ← templateSettings settings
  let rules ← Host.liftExcept (Rules.ofSettings template)
  let name ← templateName host (request.file.getD [])
  let outcome ← ExceptT.lift (merge (host.templates template.encoding) rules .init name)
  let result ← Host.liftExcept outcome
  pure (settings, template, result)

/-- Writes a merged template to where a request says. -/
def writeMerged (host : Host m) (request : Request) (output : Output) (settings : Value)
    (encoding : Text) (result : Merged) : Action m Unit := do
  let data := mergedMembers result
  match givenPath request.output with
  | some path => do
    host.writeText path result.content encoding
    let data := Members.insert "output" (.str path.render) data
    print host (output.success data ("Wrote merged template to ".toList ++ path.text) "success")
  | none =>
    if request.toTemporary then do
      let (start, stop) ← temporaryParts settings
      let path ← host.writeTemporary result.content start stop encoding
      let data := Members.insert "output" (.str path.render) data
      print host (output.success data path.text "success")
    else if output.asJson then do
      let data := Members.insert "content" (.str (String.ofList result.content)) data
      print host (output.success data [] "success")
    else print host (output.text result.content [])

/-- Runs the command; the answer is the exit code. -/
def runMerge (host : Host m) (request : Request) : Action m Nat :=
  let output := Output.ofMode request.asJson
  reporting host output (failureWord? "merge_error" "read_error") (mergeRequested host request)
    fun (settings, template, result) =>
      let writing := writeMerged host request output settings template.encoding result
      reporting host output (fun kind => if kind.isSystem then some "write_error" else none) writing
        fun () => pure 0

end TemplateSplice.Command
