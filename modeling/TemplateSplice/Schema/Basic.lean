import TemplateSplice.Schema.Pattern
import TemplateSplice.Schema.Uniqueness
import TemplateSplice.Value.Literal

/-! Schemas of values and the violations that a value has. Each keyword concerns values of one type
and passes over the others. Violations come in the order of their paths, and at one path in the
order of the keywords. -/
namespace TemplateSplice

/-- The types that a schema tells apart. -/
inductive JsonType where
  | object
  | array
  | string
  | boolean
  deriving DecidableEq, Repr

namespace JsonType

def name : JsonType → String
  | object => "object"
  | array => "array"
  | string => "string"
  | boolean => "boolean"

def holds : JsonType → Value → Bool
  | object, .object _ => true
  | array, .array _ => true
  | string, .str _ => true
  | boolean, .bool _ => true
  | _, _ => false

end JsonType

mutual

/-- A schema by its keywords, in order. -/
inductive Schema where
  | of (keywords : List Keyword)

/-- One condition of a schema. -/
inductive Keyword where
  /-- A remark that is no condition. -/
  | remark (key : Scalar) (value : Value)
  | type (type : JsonType)
  | required (keys : List String)
  /-- No properties beside those that the schema lists. -/
  | closed
  | properties (members : List (String × Schema))
  | minItems (count : Nat)
  | uniqueItems
  | items (schema : Schema)
  | pattern (pattern : Pattern)
  | minLength (count : Nat)
  | maxLength (count : Nat)
  | enum (values : List String)

end

namespace Schema

def keywords : Schema → List Keyword
  | of ks => ks

/-- How a value breaks a condition. -/
inductive Breach where
  | wrongType (type : JsonType)
  | missing (key : String)
  /-- Keys that a closed schema does not list. -/
  | unexpected (keys : List Scalar)
  /-- Fewer items or characters than the least number. -/
  | tooShort (least : Nat)
  /-- More characters than the greatest number. -/
  | tooLong (most : Nat)
  | repeated
  | mismatch (pattern : Pattern)
  | unlisted (values : List String)
  deriving DecidableEq, Repr

/-- A broken condition: the path of a value, the value, and how it breaks the condition. -/
structure Violation where
  path : List Text
  value : Value
  breach : Breach
  deriving Repr

/-- The keys that the properties of a schema list. -/
def listedKeys (ks : List Keyword) : List String :=
  ks.flatMap fun
    | .properties members => members.map (·.1)
    | _ => []

mutual

/-- The violations of a value at a path. -/
def violationsAt (path : List Text) (v : Value) : Schema → List Violation
  | of ks => keywordViolations path v (listedKeys ks) ks

/-- The violations of the keywords of a schema, given the keys that it lists. -/
def keywordViolations (path : List Text) (v : Value) (listed : List String) :
    List Keyword → List Violation
  | [] => []
  | k :: ks => violationsOf path v listed k ++ keywordViolations path v listed ks

/-- The violations of one keyword. -/
def violationsOf (path : List Text) (v : Value) (listed : List String) : Keyword → List Violation
  | .remark _ _ => []
  | .type type =>
    if type.holds v then [] else [⟨path, v, .wrongType type⟩]
  | .required keys =>
    match v with
    | .object m =>
      (keys.filter fun (key : String) => !Members.contains m key).map fun key =>
        ⟨path, v, .missing key⟩
    | _ => []
  | .closed =>
    match v with
    | .object m =>
      let extra := (Members.keys m).filter fun key => !key.str?.any listed.contains
      if extra = [] then [] else [⟨path, v, .unexpected extra⟩]
    | _ => []
  | .properties members =>
    match v with
    | .object m => propertyViolations path m members
    | _ => []
  | .minItems count =>
    match v with
    | .array items => if items.length < count then [⟨path, v, .tooShort count⟩] else []
    | _ => []
  | .uniqueItems =>
    match v with
    | .array items => if Uniqueness.repeatsItem items then [⟨path, v, .repeated⟩] else []
    | _ => []
  | .items schema =>
    match v with
    | .array items =>
      items.zipIdx.flatMap fun (item, i) =>
        violationsAt (path ++ [decimalDigits i]) item schema
    | _ => []
  | .pattern pattern =>
    match v with
    | .str s => if pattern.accepts s.toList then [] else [⟨path, v, .mismatch pattern⟩]
    | _ => []
  | .minLength count =>
    match v with
    | .str s => if s.toList.length < count then [⟨path, v, .tooShort count⟩] else []
    | _ => []
  | .maxLength count =>
    match v with
    | .str s => if count < s.toList.length then [⟨path, v, .tooLong count⟩] else []
    | _ => []
  | .enum values => if values.any (fun s => v.same (.str s)) then [] else [⟨path, v, .unlisted values⟩]

/-- The violations of the properties that a value has. -/
def propertyViolations (path : List Text) (m : Members) : List (String × Schema) → List Violation
  | [] => []
  | (key, schema) :: r =>
    (match Members.get? m key with
      | some v => violationsAt (path ++ [key.toList]) v schema
      | none => []) ++ propertyViolations path m r

end

/-- All violations of a value, those with smaller paths first. -/
def violations (schema : Schema) (v : Value) : List Violation :=
  (schema.violationsAt [] v).mergeSort fun a b => !decide (b.path < a.path)

/-- Whether a value breaks no condition. -/
def accepts (schema : Schema) (v : Value) : Bool := (schema.violationsAt [] v).isEmpty

/-- What a closed schema says of keys that it does not list, in the order of their texts. -/
def unexpectedMessage (extra : List Scalar) : Text :=
  let sorted := extra.mergeSort fun a b => !decide (b.plainText < a.plainText)
  let list := Text.joinWith [',', ' '] (sorted.map Scalar.literal)
  let verb := if extra.length = 1 then " was" else " were"
  "Additional properties are not allowed (".toList ++ list ++ verb.toList ++ " unexpected)".toList

namespace Violation

/-- What is wrong with the value. -/
def message (violation : Violation) : Text :=
  let shown := violation.value.literal
  match violation.breach with
  | .wrongType type => shown ++ " is not of type ".toList ++ Text.quoted type.name.toList
  | .missing key => Text.quoted key.toList ++ " is a required property".toList
  | .unexpected keys => unexpectedMessage keys
  | .tooShort least =>
    shown ++ (if least = 1 then " should be non-empty" else " is too short").toList
  | .tooLong most =>
    shown ++ (if most = 0 then " is expected to be empty" else " is too long").toList
  | .repeated => shown ++ " has non-unique elements".toList
  | .mismatch pattern => shown ++ " does not match ".toList ++ Text.quoted pattern.source.toList
  | .unlisted values => shown ++ " is not one of ".toList ++ (Value.strings values).literal

/-- Whether the message can be shown. -/
def isShowable (violation : Violation) : Bool :=
  match violation.breach with
  | .missing _ => true
  | .unexpected keys => keys.all Scalar.isShowable
  | _ => violation.value.isShowable

/-- A violation with the place where it is. -/
def text (violation : Violation) : Text :=
  let place := Text.joinWith ['.'] violation.path
  (if place = [] then "<root>".toList else place) ++ ": ".toList ++ violation.message

end Violation

end Schema
end TemplateSplice
