import TemplateSplice.Command.Session
import TemplateSplice.Merge.Basic

/-! The command that lists the sections and the imports of a template without merging it. -/
namespace TemplateSplice.Command

variable {m : Type → Type} [Monad m]

/-- An import as it is listed: where it leads, or why it leads nowhere. -/
structure ListedImport where
  line : Nat
  kind : MarkerKind
  resource : Text
  /-- The section name, if the resource has one. -/
  name : Option Text
  target : Except String Path

namespace ListedImport

def isBroken (i : ListedImport) : Bool :=
  match i.target with
  | .ok _ => false
  | .error _ => true

def json (i : ListedImport) : Value :=
  let marker : Members :=
    [("line", .int i.line), ("kind", .str i.kind.name), ("resource", .str (String.ofList i.resource))]
  let name : Members := match i.name with
    | some name => [("section", .str (String.ofList name))]
    | none => []
  let target : Members := match i.target with
    | .ok path => [("path", .str path.render)]
    | .error message => [("error", .str message)]
  .object (marker ++ name ++ target)

/-- The line of a listing: where the import leads, or the message that says why it leads nowhere. -/
def text (i : ListedImport) : Text :=
  let target := match i.target with
    | .ok path => path.text
    | .error message => message.toList
  "  line ".toList ++ decimalDigits i.line ++ ": [".toList ++ i.kind.name.toList ++ "] ".toList ++
    i.resource ++ " -> ".toList ++ target

end ListedImport

/-- The number of the line that a position is in. -/
def lineNumber (body : Text) (position : Nat) : Nat := (body.take position).count '\n' + 1

/-- What a marker refers to: the path, and the section name if it is for one section. -/
def referenced (style : MarkerStyle) (marker : Marker) (source : Text) :
    Except Problem (Text × Option Text) :=
  match marker.kind with
  | .inline =>
    (Merge.inlineParts style marker.resource (some source)).map fun (path, name) => (path, some name)
  | .wholeFile =>
    (Merge.wholeFilePath style marker.resource (some source)).map fun path => (path, none)

/-- Looks where a marker leads. Problems of the program's own are part of the listing. -/
def listImport (access : Access (StateT Journal m)) (style : MarkerStyle) (template : Template)
    (marker : Marker) : Action m ListedImport := do
  let line := lineNumber template.body marker.start
  let entry (name : Option Text) (target : Except String Path) : ListedImport :=
    ⟨line, marker.kind, marker.resource, name, target⟩
  match referenced style marker template.path.text with
  | .error problem =>
    if problem.report.kind.isOwn then pure (entry none (.error problem.report.message))
    else throw problem
  | .ok (path, name) =>
    match ← Host.observe (access.resolve template.path.text path) with
    | .ok path => pure (entry name (.ok path))
    | .error problem =>
      if problem.report.kind.isOwn then pure (entry name (.error problem.report.message))
      else throw problem

/-- Opens the template of a request, under its settings. -/
def openRequested (host : Host m) (request : Request) : Action m (Settings.Template × Template) := do
  let settings ← loadSettings host request
  configure host request settings
  let rules ← templateSettings settings
  let name ← templateName host (request.file.getD [])
  let template ← (host.templates rules.encoding).openTemplate name
  pure (rules, template)

/-- Prints the sections and the imports of a template. -/
def printListing (host : Host m) (output : Output) (template : Template) (names : List Text)
    (imports : List ListedImport) : Action m Unit :=
  if output.asJson then
    print host (output.json (.object
      [("path", .str template.path.render),
       ("sections", .strings (names.map String.ofList)),
       ("imports", .array (imports.map ListedImport.json))]))
  else
    let list := if names = [] then "(none)".toList else Text.joinWith [',', ' '] names
    let lines := [template.path.text, "Sections: ".toList ++ list] ++
      (if imports.isEmpty then ["Imports: (none)".toList] else imports.map ListedImport.text)
    print host (lines.flatMap (· ++ ['\n']))

/-- Runs the command; the answer is the exit code, which is one if an import leads nowhere. -/
def runInspect (host : Host m) (request : Request) : Action m Nat :=
  let output := Output.ofMode request.asJson
  reporting host output (failureWord? "inspect_error" "read_error") (openRequested host request)
    fun (settings, template) => do
      let rules ← Host.liftExcept (Rules.ofSettings settings)
      let names := rules.allowed.sections template.body
      let access := host.templates settings.encoding
      let imports ← (rules.style.markers template.body).mapM (listImport access rules.style template)
      printListing host output template names imports
      pure (if imports.any ListedImport.isBroken then 1 else 0)

end TemplateSplice.Command
