import TemplateSplice.Value.Equality
import TemplateSplice.Marker.Basic

/-! The settings that a merge needs, looked up in a settings mapping. The look-ups take any value
that stands at a key; a checked mapping always gives texts. -/
namespace TemplateSplice.Settings

/-- The section names that are allowed unless settings say otherwise. -/
def defaultSections : List String :=
  ["Description", "Metadata", "Parameters", "Mappings", "Conditions", "Transform", "Resources",
   "Outputs"]

/-- The name of the section that holds the format version. -/
def formatVersionName : String := "AWSTemplateFormatVersion"

/-- Why a value has no settings in it. -/
inductive ViewFault where
  /-- A value that should be a mapping is none. -/
  | noMapping (typeName : String)
  /-- A value that should list names lists nothing. -/
  | noList (typeName : String)
  deriving DecidableEq, Repr

/-- The values of the template settings. -/
structure TemplateFields where
  sections : List Value
  importToken : Value
  sectionDelimiter : Value
  encoding : Value
  deriving Repr

/-- The values of the output settings. -/
structure OutputFields where
  tempStart : Value
  tempEnd : Value
  deriving Repr

/-- The mapping at a key of the settings, empty if nothing is given there. -/
def group (settings : Value) (key : String) : Except ViewFault Members :=
  match settings with
  | .object m =>
    let value := (Members.get? m key).getD .null
    if value.isGiven then
      match value with
      | .object group => .ok group
      | v => .error (.noMapping v.typeName)
    else .ok []
  | v => .error (.noMapping v.typeName)

/-- The values that a value lists: the items of a list, the keys of a mapping, the characters of a
text. -/
def listed : Value → Except ViewFault (List Value)
  | .array items => .ok items
  | .object m => .ok (m.map fun p => .scalar p.1)
  | .str s => .ok (s.toList.map fun c => .str (String.ofList [c]))
  | v => .error (.noList v.typeName)

/-- The value at a key if one is given, otherwise a default. -/
def givenOr (m : Members) (key : String) (default : Value) : Value :=
  let value := (m.get? key).getD .null
  if value.isGiven then value else default

namespace TemplateFields

/-- The template settings of a settings mapping. The name for the format version goes in front of
the section names if it is asked for and not there. -/
def ofSettings (settings : Value) : Except ViewFault TemplateFields := do
  let m ← group settings "template"
  let names ← listed (givenOr m "sections" (.strings defaultSections))
  let version := givenOr m "format_version_key" (.str formatVersionName)
  let wanted := ((m.get? "include_format_version").getD .null).isGiven
  .ok
    { sections := if wanted ∧ !names.any (·.alike version) then version :: names else names
      importToken := (m.get? "import_token").getD (.str "# @import")
      sectionDelimiter := (m.get? "section_delimiter").getD (.str "#")
      encoding := (m.get? "encoding").getD (.str "utf-8") }

end TemplateFields

namespace OutputFields

/-- The output settings of a settings mapping. -/
def ofSettings (settings : Value) : Except ViewFault OutputFields := do
  let m ← group settings "output"
  .ok
    { tempStart := (m.get? "temp_prefix").getD (.str "cfn-merge-")
      tempEnd := (m.get? "temp_suffix").getD (.str ".yml") }

end OutputFields

/-- The settings of a merge. -/
structure Template where
  sections : List Text
  style : MarkerStyle
  encoding : Text
  deriving DecidableEq, Repr

/-- The settings of a merge that nothing was said about. -/
def Template.default : Template :=
  { sections := defaultSections.map String.toList
    style := ⟨"# @import".toList, "#".toList⟩
    encoding := "utf-8".toList }

/-- The template settings, if they are texts. -/
def TemplateFields.texts? (f : TemplateFields) : Option Template := do
  let sections ← f.sections.mapM Value.str?
  let token ← f.importToken.str?
  let delimiter ← f.sectionDelimiter.str?
  let encoding ← f.encoding.str?
  some ⟨sections.map String.toList, ⟨token.toList, delimiter.toList⟩, encoding.toList⟩

/-- The settings that come with the program. -/
def bundled : Value :=
  .object
    [("template", .object
      [("sections", .strings defaultSections),
       ("include_format_version", .bool false),
       ("format_version_key", .str formatVersionName),
       ("import_token", .str "# @import"),
       ("section_delimiter", .str "#"),
       ("encoding", .str "utf-8")]),
     ("output", .object [("temp_prefix", .str "cfn-merge-"), ("temp_suffix", .str ".yml")]),
     ("logging", .object [("level", .str "WARNING")])]

end TemplateSplice.Settings
