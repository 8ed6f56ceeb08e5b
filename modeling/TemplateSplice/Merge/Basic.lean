import TemplateSplice.Marker.Reference
import TemplateSplice.Merge.Access
import TemplateSplice.Section.Basic
import TemplateSplice.Settings.View

/-! Merging of a template with those it refers to. First the sections of whole templates go into
the sections of the root, whose markers stay; then inline markers are replaced by sections. The
text that comes in is never searched for whole-file markers. Either everything is merged, or the
first reference that cannot be used is the problem. -/
namespace TemplateSplice

/-- How far a merge has come. -/
inductive Stage where
  | init
  | wholeFileMerge
  | inlineMerge
  | done
  | failed
  deriving DecidableEq, Repr

namespace Stage

def name : Stage → String
  | init => "init"
  | wholeFileMerge => "whole-file-merge"
  | inlineMerge => "inline-merge"
  | done => "done"
  | failed => "failed"

end Stage

/-- What a merge goes by. -/
structure Rules where
  allowed : AllowList
  style : MarkerStyle

/-- The rules of some settings; an allow-list must not be empty. -/
def Rules.ofSettings (settings : Settings.Template) : Except Problem Rules :=
  match AllowList.ofList? settings.sections with
  | some allowed => .ok ⟨allowed, settings.style⟩
  | none => .error .noSections

/-- A reference that was followed. -/
structure AppliedImport where
  kind : MarkerKind
  resource : Text
  path : Path
  /-- The names of the sections that came in. -/
  sections : List Text
  deriving DecidableEq, Repr

/-- A merged template and what went into it. -/
structure Merged where
  content : Text
  root : Path
  imports : List AppliedImport
  deriving DecidableEq, Repr

/-- The paths of the imports, each once and in order. -/
def Merged.dependencies (result : Merged) : List Path :=
  (result.imports.map AppliedImport.path).eraseDups.mergeSort fun p q => !decide (q.parts < p.parts)

/-- A text that is to come in place of the characters between two positions. -/
structure Replacement where
  start : Nat
  stop : Nat
  text : Text
  deriving DecidableEq, Repr

namespace Merge

/-- Where the line that a position is in starts. -/
def lineStart (body : Text) (position : Nat) : Nat :=
  position - ((body.take position).reverse.takeWhile (· ≠ '\n')).length

/-- The first position that a marker gives up. A marker alone on its line takes the indentation
with it and the line end before, since the text of a section starts with the rest of its header's
line. -/
def replacedFrom (body : Text) (marker : Marker) : Nat :=
  let line := lineStart body marker.start
  if (body.slice line marker.start).any (!isIndent ·) then marker.start
  else if line = 0 then 0
  else if 2 ≤ line ∧ body[line - 2]? = some '\r' then line - 2
  else line - 1

/-- The body with some parts replaced, the last one first, so that the positions before stay. -/
def replaceAll (body : Text) (replacements : List Replacement) : Text :=
  replacements.foldr (fun r body => Text.splice body r.start r.stop r.text) body

/-- The section of a template. -/
def sectionOf (allowed : AllowList) (template : Template) (name : Text) : Except Problem Text :=
  match allowed.section? template.body name with
  | some contents => .ok contents
  | none => .error (.sectionMissing name (some template.path.text))

/-- The body with contents in a section. -/
def addTo (allowed : AllowList) (body name contents : Text) : Except Problem Text :=
  match allowed.insert? body name contents with
  | some body => .ok body
  | none => .error (.sectionMissing name none)

/-- The body with sections of another template added, each under its own name. -/
def addSections (allowed : AllowList) (imported : Template) :
    Text → List Text → Except Problem Text
  | body, [] => .ok body
  | body, name :: names => do
    let contents ← sectionOf allowed imported name
    let body ← addTo allowed body name contents
    addSections allowed imported body names

/-- A reference fault as a problem of a template. -/
def checkReference {α : Type} (style : MarkerStyle) (resource : Text) (source : Option Text) :
    Except ReferenceFault α → Except Problem α
  | .ok a => .ok a
  | .error fault => .error (.badReference fault resource style.delimiter source)

/-- The path of a whole-file resource in a template. -/
def wholeFilePath (style : MarkerStyle) (resource : Text) (source : Option Text) :
    Except Problem Text :=
  checkReference style resource source (MarkerStyle.wholeFilePath resource)

/-- The path and the section name of an inline resource in a template. -/
def inlineParts (style : MarkerStyle) (resource : Text) (source : Option Text) :
    Except Problem (Text × Text) :=
  checkReference style resource source (style.inlineParts resource)

variable {m : Type → Type} [Monad m]

/-- A result within a merge. -/
def lift {α : Type} (result : Except Problem α) : ExceptT Problem m α := ExceptT.mk (pure result)

/-- Merges in the templates that whole-file markers refer to; the markers are those of the body
before. -/
def wholeFilePass (access : Access m) (rules : Rules) (root : Template) :
    Text → List Marker → ExceptT Problem m (Text × List AppliedImport)
  | body, [] => pure (body, [])
  | body, marker :: markers => do
    let resource ← lift (wholeFilePath rules.style marker.resource (some root.path.text))
    let imported ← access.load root resource
    let names := rules.allowed.sections imported.body
    let body ← lift (addSections rules.allowed imported body names)
    let count := decimalDigits names.length
    access.note ⟨Level.debug, loggerName "merger",
      "Merged ".toList ++ count ++ " sections from ".toList ++ imported.path.text⟩
    let (body, imports) ← wholeFilePass access rules root body markers
    pure (body, ⟨.wholeFile, marker.resource, imported.path, names⟩ :: imports)

/-- Finds what comes in place of inline markers. -/
def inlinePass (access : Access m) (rules : Rules) (root : Template) (body : Text) :
    List Marker → ExceptT Problem m (List Replacement × List AppliedImport)
  | [] => pure ([], [])
  | marker :: markers => do
    let (resource, name) ← lift (inlineParts rules.style marker.resource (some root.path.text))
    let imported ← access.load root resource
    let contents ← lift (sectionOf rules.allowed imported name)
    let replacement := ⟨replacedFrom body marker, marker.stop, contents⟩
    let (replacements, imports) ← inlinePass access rules root body markers
    pure (replacement :: replacements, ⟨.inline, marker.resource, imported.path, [name]⟩ :: imports)

/-- Notes the step from one stage to another. -/
def noteStage (access : Access m) (before after : Stage) : m Unit :=
  access.note ⟨Level.debug, loggerName "merger",
    "Merge state ".toList ++ before.name.toList ++ " -> ".toList ++ after.name.toList⟩

/-- Does the work of a stage and goes on to the next one; if the work fails, so does the merge. -/
def during {α β : Type} (access : Access m) (stage next : Stage) (work : ExceptT Problem m α)
    (rest : α → m (Except Problem β)) : m (Except Problem β) := do
  match ← work.run with
  | .ok a =>
    noteStage access stage next
    rest a
  | .error problem =>
    noteStage access stage .failed
    pure (.error problem)

/-- The whole-file pass over a template. -/
def wholeFiles (access : Access m) (rules : Rules) (root : Template) :
    ExceptT Problem m (Text × List AppliedImport) :=
  wholeFilePass access rules root root.body (rules.style.wholeFileMarkers root.body)

/-- The inline pass over a body. -/
def inlines (access : Access m) (rules : Rules) (root : Template) (body : Text) :
    ExceptT Problem m (Text × List AppliedImport) := do
  let (replacements, imports) ← inlinePass access rules root body (rules.style.inlineMarkers body)
  pure (replaceAll body replacements, imports)

end Merge

/-- Merges the template of a name. The stage is that in which the last merge ended. -/
def merge {m : Type → Type} [Monad m] (access : Access m) (rules : Rules) (before : Stage)
    (name : TemplateName) : m (Except Problem Merged) := do
  Merge.noteStage access before .init
  Merge.during access .init .wholeFileMerge (access.openTemplate name) fun root =>
    Merge.during access .wholeFileMerge .inlineMerge (Merge.wholeFiles access rules root)
      fun (body, wholeImports) =>
        Merge.during access .inlineMerge .done (Merge.inlines access rules root body)
          fun (content, inlineImports) => do
            let imports := wholeImports ++ inlineImports
            let count := decimalDigits imports.length
            access.note ⟨Level.info, loggerName "merger",
              "Merged ".toList ++ root.path.text ++ " (".toList ++ count ++
                " imports applied)".toList⟩
            pure (.ok ⟨content, root.path, imports⟩)

/-- The stage in which a merge ended. -/
def Stage.ofResult : Except Problem Merged → Stage
  | .ok _ => .done
  | .error _ => .failed

end TemplateSplice
