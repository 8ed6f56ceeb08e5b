import TemplateSplice.Value.Basic

/-! Equality and order of values by what they stand for. Whole numbers and doubles are compared as
numbers. Truth values count as numbers for `Value.alike` and for the order, and as values of their
own for `Value.same`. -/
namespace TemplateSplice

namespace Scalar

/-- Whether two scalars are the same, given whether truth values count as numbers. -/
def sameBy (truthCounts : Bool) : Scalar → Scalar → Bool
  | bool a, bool b => a == b
  | bool a, s => truthCounts && decide ((bool a).identity = s.identity)
  | s, bool b => truthCounts && decide (s.identity = (bool b).identity)
  | a, b => decide (a.identity = b.identity)

end Scalar

/-- Whether what one scalar stands for is less than what another does, if the two can be ordered.
Nothing is less or greater than the double that is no number. -/
def Identity.less? : Identity → Identity → Option Bool
  | number a, number b => some (a.less b)
  | number _, noNumber => some false
  | noNumber, number _ => some false
  | noNumber, noNumber => some false
  | text s, text t => some (s.toList < t.toList)
  | date a, date b => some (a.number < b.number)
  | clock a, clock b => some (a < b)
  | instant a, instant b => some (a < b)
  | _, _ => none

namespace Value

mutual

/-- Whether two values are the same, given whether truth values count as numbers. -/
def sameBy (truthCounts : Bool) : Value → Value → Bool
  | scalar a, scalar b => a.sameBy truthCounts b
  | array xs, array ys => sameItems truthCounts xs ys
  | object m, object n => m.length == n.length && sameMembers truthCounts m n
  | _, _ => false

def sameItems (truthCounts : Bool) : List Value → List Value → Bool
  | [], [] => true
  | x :: xs, y :: ys => sameBy truthCounts x y && sameItems truthCounts xs ys
  | _, _ => false

/-- Whether every member of the first mapping is in the second. -/
def sameMembers (truthCounts : Bool) : List (Scalar × Value) → List (Scalar × Value) → Bool
  | [], _ => true
  | (k, v) :: r, n =>
    (match Members.get? n k with
      | some w => sameBy truthCounts v w
      | none => false) && sameMembers truthCounts r n

end

/-- Whether two values are the same, truth values being different from numbers. -/
def same (a b : Value) : Bool := sameBy false a b

/-- Whether two values are the same, truth values being the numbers one and zero. -/
def alike (a b : Value) : Bool := sameBy true a b

mutual

/-- Whether a value is less than another, if the two can be ordered. -/
def less? : Value → Value → Option Bool
  | scalar a, scalar b => a.identity.less? b.identity
  | array xs, array ys => lessItems? xs ys
  | _, _ => none

/-- The order of lists: by the first items that differ, and otherwise the shorter list first. -/
def lessItems? : List Value → List Value → Option Bool
  | [], [] => some false
  | [], _ :: _ => some true
  | _ :: _, [] => some false
  | x :: xs, y :: ys => if x.alike y then lessItems? xs ys else less? x y

end

end Value
end TemplateSplice
