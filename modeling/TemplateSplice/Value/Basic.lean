import TemplateSplice.Calendar.Basic
import TemplateSplice.Number.Double

/-! Values of settings, of JSON texts and of YAML documents. A value is a scalar, a list or a
mapping from scalars to values. The members of a mapping keep the order in which their keys first
came. Two keys are one if they stand for the same thing: numbers are compared as numbers, and the
truth values count as one and zero. -/
namespace TemplateSplice

/-- A value without parts. Whole numbers are unbounded, and other numbers are doubles. -/
inductive Scalar where
  | null
  | bool (b : Bool)
  | int (n : Int)
  | float (x : Double)
  | str (s : String)
  | date (d : Date)
  | moment (m : Moment)
  deriving DecidableEq, Repr

instance : Coe String Scalar := ⟨Scalar.str⟩

/-- A number as an order compares it. -/
inductive Magnitude where
  | below
  /-- A number times 2 ^ 1074. -/
  | finite (n : Int)
  | above
  deriving DecidableEq, Repr

namespace Magnitude

def less : Magnitude → Magnitude → Bool
  | below, below => false
  | below, _ => true
  | finite a, finite b => a < b
  | finite _, above => true
  | _, _ => false

end Magnitude

/-- What a scalar stands for. -/
inductive Identity where
  | null
  | number (size : Magnitude)
  /-- The double that is no number; as a key it is itself. -/
  | noNumber
  | text (s : String)
  | date (d : Date)
  /-- A moment of a clock whose offset is not known. -/
  | clock (microseconds : Int)
  /-- A moment of universal time. -/
  | instant (microseconds : Int)
  deriving DecidableEq, Repr

namespace Scalar

def identity : Scalar → Identity
  | null => .null
  | bool b => .number (.finite (Double.scaledInt (if b then 1 else 0)))
  | int n => .number (.finite (Double.scaledInt n))
  | float x =>
    if x.isNaN then .noNumber
    else if x.isInfinite then .number (if x.negative then .below else .above)
    else .number (.finite x.scaled)
  | str s => .text s
  | date d => .date d
  | moment m =>
    match m.offset with
    | none => .clock m.clock
    | some offset => .instant (m.instant offset)

@[simp] theorem identity_str (s : String) : (str s).identity = .text s := rfl

def str? : Scalar → Option String
  | str s => some s
  | _ => none

/-- The name that messages use for the type of a scalar. -/
def typeName : Scalar → String
  | null => "NoneType"
  | bool _ => "bool"
  | int _ => "int"
  | float _ => "float"
  | str _ => "str"
  | date _ => "date"
  | moment _ => "datetime"

/-- Whether a scalar counts as given: null, false, zero and the empty text do not. -/
def isGiven : Scalar → Bool
  | null => false
  | bool b => b
  | int n => n != 0
  | float x => !x.isZero
  | str s => s != ""
  | date _ => true
  | moment _ => true

end Scalar

inductive Value where
  | scalar (s : Scalar)
  | array (items : List Value)
  | object (members : List (Scalar × Value))
  deriving Repr, BEq

/-- The members of a mapping, in order. -/
abbrev Members := List (Scalar × Value)

namespace Members

/-- The value at a key. -/
def get? (m : Members) (key : Scalar) : Option Value :=
  (m.find? (·.1.identity = key.identity)).map (·.2)

def contains (m : Members) (key : Scalar) : Bool := m.any (·.1.identity = key.identity)

def keys (m : Members) : List Scalar := m.map (·.1)

/-- The members with a value set: in place where the key is present, otherwise at the end. -/
def insert (key : Scalar) (value : Value) : Members → Members
  | [] => [(key, value)]
  | (k, v) :: r =>
    if k.identity = key.identity then (k, value) :: r else (k, v) :: insert key value r

/-- The members that pairs make when they are set one after another. -/
def ofPairs (pairs : List (Scalar × Value)) : Members :=
  pairs.foldl (fun m (key, value) => insert key value m) []

@[simp] theorem get?_insert_self (m : Members) (key : Scalar) (value : Value) :
    (insert key value m).get? key = some value := by
  induction m with
  | nil => simp [insert, get?]
  | cons p r ih =>
    obtain ⟨k, v⟩ := p
    by_cases h : k.identity = key.identity
    · simp [insert, get?, h]
    · simpa [insert, get?, h] using ih

theorem get?_insert_of_ne {m : Members} {key other : Scalar} {value : Value}
    (h : other.identity ≠ key.identity) : (insert key value m).get? other = m.get? other := by
  induction m with
  | nil => simp [insert, get?, h.symm]
  | cons p r ih =>
    obtain ⟨k, v⟩ := p
    by_cases hk : k.identity = key.identity
    · have ho : k.identity ≠ other.identity := fun e => h (e.symm.trans hk)
      simp [insert, get?, hk, h.symm]
    · by_cases ho : k.identity = other.identity
      · simp [insert, get?, ho, h]
      · simpa [insert, get?, hk, ho] using ih

end Members

namespace Value

@[match_pattern] abbrev null : Value := .scalar .null

@[match_pattern] abbrev bool (b : Bool) : Value := .scalar (.bool b)

@[match_pattern] abbrev int (n : Int) : Value := .scalar (.int n)

@[match_pattern] abbrev float (x : Double) : Value := .scalar (.float x)

@[match_pattern] abbrev str (s : String) : Value := .scalar (.str s)

/-- The value at a key, if the value is a mapping that has it. -/
def get? : Value → Scalar → Option Value
  | object m, key => Members.get? m key
  | _, _ => none

def str? : Value → Option String
  | scalar s => s.str?
  | _ => none

def array? : Value → Option (List Value)
  | array items => some items
  | _ => none

def members? : Value → Option Members
  | object m => some m
  | _ => none

/-- A list of strings. -/
def strings (items : List String) : Value := array (items.map str)

/-- The name that messages use for the type of a value. -/
def typeName : Value → String
  | scalar s => s.typeName
  | array _ => "list"
  | object _ => "dict"

/-- Whether a value counts as given: what is empty does not. -/
def isGiven : Value → Bool
  | scalar s => s.isGiven
  | array items => !items.isEmpty
  | object m => !m.isEmpty

end Value
end TemplateSplice
