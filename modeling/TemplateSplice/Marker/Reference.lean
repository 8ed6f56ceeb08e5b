import TemplateSplice.Marker.Basic

/-! What a resource refers to: a path, or a path and a section name with one delimiter between
them. Blanks around either part do not count. -/
namespace TemplateSplice

/-- Why a resource refers to nothing. -/
inductive ReferenceFault where
  /-- A whole-file resource is blank. -/
  | emptyPath
  /-- An inline resource does not have exactly one delimiter. -/
  | notTwoParts
  /-- An inline resource has nothing before its delimiter. -/
  | missingPath
  /-- An inline resource has nothing after its delimiter. -/
  | missingSection
  /-- An empty delimiter separates nothing. -/
  | emptyDelimiter
  deriving DecidableEq, Repr

namespace MarkerStyle

/-- The path of a whole-file resource. -/
def wholeFilePath (resource : Text) : Except ReferenceFault Text :=
  match resource.strip with
  | [] => .error .emptyPath
  | path => .ok path

/-- The path and the section name of an inline resource. -/
def inlineParts (style : MarkerStyle) (resource : Text) : Except ReferenceFault (Text × Text) :=
  if style.delimiter = [] then .error .emptyDelimiter
  else match Text.splitOn style.delimiter resource with
    | [path, name] =>
      match path.strip, name.strip with
      | [], _ => .error .missingPath
      | _, [] => .error .missingSection
      | path, name => .ok (path, name)
    | _ => .error .notTwoParts

end MarkerStyle
end TemplateSplice
