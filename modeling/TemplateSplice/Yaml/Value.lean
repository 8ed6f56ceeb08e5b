import TemplateSplice.Yaml.Merge
import TemplateSplice.Yaml.Number
import TemplateSplice.Yaml.Timestamp

/-! Values of YAML documents. A plain scalar may stand for null, a truth value, a number, a day or a
time; any other scalar is a string. Of two pairs with one key the last one gives the value. Of
several parts without a value the one that is in the fewest collections tells what is wrong, and of
these the first. -/
namespace TemplateSplice.Yaml

def nullWords : List String := ["~", "null", "Null", "NULL", ""]

def trueWords : List String :=
  ["yes", "Yes", "YES", "true", "True", "TRUE", "on", "On", "ON"]

def falseWords : List String :=
  ["no", "No", "NO", "false", "False", "FALSE", "off", "Off", "OFF"]

/-- The number, day or time that a plain scalar stands for. -/
def measured? (t : Text) : Option (Except ScalarFault Scalar) :=
  let (negative, size) := signed t
  match whole? size, pointed? (size != t) size, timestamp? t with
  | some n, _, _ => some (n.map fun n => .int (if negative then -(n : Int) else n))
  | _, some x, _ => some (x.map fun x => .float (if negative then x.negated else x))
  | _, _, some day => some (day.mapError .calendar)
  | none, none, none => none

/-- The scalar that a plain one stands for. -/
def plainScalar (t : Text) : Except Reason Scalar :=
  let word := String.ofList t
  let (negative, size) := signed t
  if nullWords.contains word then .ok .null
  else if trueWords.contains word then .ok (.bool true)
  else if falseWords.contains word then .ok (.bool false)
  else if [".inf", ".Inf", ".INF"].contains (String.ofList size) then
    .ok (.float (.infinity negative))
  else if [".nan", ".NaN", ".NAN"].contains word then .ok (.float .nan)
  else if ["=", "<<"].contains word then .error .keyOnly
  else match measured? t with
    | some s => s.mapError .scalar
    | none => .ok (.str word)

/-- The scalar of a scalar node. -/
def scalarOf (t : Text) (plain : Bool) : Except Reason Scalar :=
  if plain then plainScalar t else .ok (.str (String.ofList t))

/-- Why there is no value, and the number of collections around the part that has none. -/
structure Flaw where
  depth : Nat
  reason : Reason
  deriving DecidableEq, Repr

/-- A flaw seen from outside a node. -/
def Flaw.outside (node : Node) (flaw : Flaw) : Flaw :=
  match node with
  | .scalar _ _ => flaw
  | _ => { flaw with depth := flaw.depth + 1 }

/-- Two parts put together. Of two flaws the less deep one counts, and of two equally deep ones the
first. -/
def both {α β γ : Type} (f : α → β → γ) (a : Except Flaw α) (b : Except Flaw β) : Except Flaw γ :=
  match a, b with
  | .ok a, .ok b => .ok (f a b)
  | .error flaw, .ok _ => .error flaw
  | .ok _, .error flaw => .error flaw
  | .error flaw, .error other => .error (if other.depth < flaw.depth then other else flaw)

/-- The key of a pair. A sequence or a mapping can be none. -/
def keyOf : Node → Except Flaw Scalar
  | .scalar t plain =>
    if plain && t = ['='] then .ok (.str "=")
    else if plain && t = "<<".toList then .error ⟨0, .badMerge⟩
    else (scalarOf t plain).mapError (⟨0, ·⟩)
  | _ => .error ⟨0, .compoundKey⟩

mutual

/-- The value of a node. -/
def valueOf : Node → Except Flaw Value
  | .scalar t plain => ((scalarOf t plain).map Value.scalar).mapError (⟨0, ·⟩)
  | .sequence items => (valuesOf items).map .array
  | .mapping pairs => (membersOf pairs).map fun members => .object (Members.ofPairs members)

def valuesOf : List Node → Except Flaw (List Value)
  | [] => .ok []
  | node :: r => both List.cons ((valueOf node).mapError (Flaw.outside node)) (valuesOf r)

def membersOf : List (Node × Node) → Except Flaw (List (Scalar × Value))
  | [] => .ok []
  | (key, node) :: r =>
    let pair := both Prod.mk (keyOf key) ((valueOf node).mapError (Flaw.outside node))
    both List.cons pair (membersOf r)

end

/-- The value of a YAML document; an empty one has the value null. -/
def read (source : Source) : Except Fault Value := do
  let node ← Node.ofTokens (Token.ofSource source)
  (valueOf node.merged).mapError fun flaw => ⟨flaw.reason, 0⟩

end TemplateSplice.Yaml
