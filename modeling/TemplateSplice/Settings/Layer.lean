import TemplateSplice.Value.Basic

/-! Layers of settings. A layer over another sets the keys that it has: mappings merge key by key,
a list replaces a list or extends it, and anything else replaces what was there. -/
namespace TemplateSplice.Settings

/-- A list over a list. The first item may say what to do with the others: a plus sign appends
them, an equals sign replaces the list by them. Without either the list replaces the other one,
unless it is empty. -/
def layerItems (base : List Value) : List Value → List Value
  | [] => base
  | .str "+" :: items => base ++ items
  | .str "=" :: items => items
  | items => items

mutual

/-- A value over the value that had its key. -/
def layerValue (base : Value) : Value → Value
  | .object upper =>
    match base with
    | .object lower => .object (layerMembers lower upper)
    | _ => .object upper
  | .array upper =>
    match base with
    | .array lower => .array (layerItems lower upper)
    | _ => .array upper
  | v => v

/-- A mapping over a mapping: its members are set one after another. -/
def layerMembers (base : List (Scalar × Value)) : List (Scalar × Value) → List (Scalar × Value)
  | [] => base
  | (key, v) :: r =>
    let value := match Members.get? base key with
      | some lower => layerValue lower v
      | none => v
    layerMembers (Members.insert key value base) r

end

end TemplateSplice.Settings
