import TemplateSplice.Path.Basic
import TemplateSplice.Schema.Basic
import TemplateSplice.Settings.View

/-! The schema of the settings, and the documents that come with the program. A document is found by
its path in the bundle, seen from the folder of the schemas. -/
namespace TemplateSplice.Schema

/-- The schema of the template settings. -/
def templateSettings : Schema := .of
  [.type .object,
   .required ["sections", "import_token", "section_delimiter", "encoding"],
   .closed,
   .properties
    [("sections", .of
      [.type .array, .minItems 1, .uniqueItems,
       .items (.of [.type .string, .pattern Pattern.name])]),
     ("include_format_version", .of [.type .boolean]),
     ("format_version_key", .of [.type .string, .pattern Pattern.name]),
     ("import_token", .of [.type .string, .minLength 1, .pattern Pattern.token]),
     ("section_delimiter", .of [.type .string, .minLength 1, .maxLength 1]),
     ("encoding", .of [.type .string, .minLength 1])]]

/-- The schema of the output settings. -/
def outputSettings : Schema := .of
  [.type .object, .closed,
   .properties [("temp_prefix", .of [.type .string]), ("temp_suffix", .of [.type .string])]]

/-- The schema of the logging settings. -/
def loggingSettings : Schema := .of
  [.type .object, .closed,
   .properties
    [("level", .of [.type .string, .enum ["DEBUG", "INFO", "WARNING", "ERROR", "CRITICAL"]])]]

/-- The schema of settings. -/
def settings : Schema := .of
  [.remark "$schema" (.str "https://json-schema.org/draft/2020-12/schema"),
   .remark "title" (.str "cfn-merge configuration"),
   .type .object,
   .required ["template", "output", "logging"],
   .properties
    [("template", templateSettings), ("output", outputSettings), ("logging", loggingSettings)]]

mutual

/-- The document of a schema. -/
def document : Schema → Value
  | of ks => .object (keywordMembers ks)

def keywordMembers : List Keyword → List (Scalar × Value)
  | [] => []
  | k :: ks => keywordMember k :: keywordMembers ks

/-- The member of a document that states a keyword. -/
def keywordMember : Keyword → Scalar × Value
  | .remark key value => (key, value)
  | .type type => ("type", .str type.name)
  | .required keys => ("required", .strings keys)
  | .closed => ("additionalProperties", .bool false)
  | .properties members => ("properties", .object (propertyDocuments members))
  | .minItems count => ("minItems", .int count)
  | .uniqueItems => ("uniqueItems", .bool true)
  | .items schema => ("items", document schema)
  | .pattern pattern => ("pattern", .str pattern.source)
  | .minLength count => ("minLength", .int count)
  | .maxLength count => ("maxLength", .int count)
  | .enum values => ("enum", .strings values)

def propertyDocuments : List (String × Schema) → List (Scalar × Value)
  | [] => []
  | (key, schema) :: r => (key, document schema) :: propertyDocuments r

end

/-- A mapping of remarks only, which every value satisfies. -/
def ofRemarks (m : Members) : Schema := .of (m.map fun (key, value) => .remark key value)

/-- A place in the bundle: a folder or a document. -/
inductive Place where
  | folder (path : List Text)
  | document (schema : Schema)

def folders : List (List Text) :=
  [["data"], ["data", "config"], ["data", "schemas"]].map (·.map String.toList)

/-- What has a name in a folder of the bundle. -/
def placeIn? (folder : List Text) (name : Text) : Option Place :=
  if name = Path.dotDot then some (.folder folder.dropLast)
  else
    let path := folder ++ [name]
    if path ∈ folders then some (.folder path)
    else if path = ["data", "schemas", "config.schema.yaml"].map String.toList then
      some (.document settings)
    else if path = ["data", "config", "defaults.yaml"].map String.toList then
      some (.document (ofRemarks ((Settings.bundled.members?).getD [])))
    else none

/-- What is at the end of a walk through the bundle; a document leads nowhere. -/
def placeAt? (place : Place) : List Text → Option Place
  | [] => some place
  | name :: r =>
    match place with
    | .folder folder => (placeIn? folder name).bind (placeAt? · r)
    | .document _ => none

/-- The file name of a schema: without an ending for YAML files it gets one. -/
def fileName (name : Text) : Text :=
  let small := name.map Char.toLower
  if ".yaml".toList.isSuffixOf small ∨ ".yml".toList.isSuffixOf small then name
  else name ++ ".yaml".toList

/-- The bundled document of a name. -/
def find? (name : Text) : Option Schema :=
  let path := Path.ofText (fileName name)
  if path.isAbsolute then none
  else match placeAt? (.folder (["data", "schemas"].map String.toList)) path.segments with
    | some (.document schema) => some schema
    | _ => none

/-- The name of the schema of settings. -/
def settingsName : Text := "config.schema".toList

end TemplateSplice.Schema
