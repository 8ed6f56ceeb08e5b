import TemplateSplice.Value.Equality

/-! Whether the items of a list are all different. A list that can be put in order is looked through
in order, where only neighbours are compared. The order comes from insertion: the items up to the
first that is out of order stay as they are, and each further one is put in by halving. -/
namespace TemplateSplice.Uniqueness

/-- Whether two neighbours in a list are the same. -/
def hasSameNeighbours : List Value → Bool
  | x :: y :: r => x.same y || hasSameNeighbours (y :: r)
  | _ => false

/-- Whether any two items of a list are the same. -/
def hasSamePair : List Value → Bool
  | [] => false
  | x :: r => r.any (x.same ·) || hasSamePair r

/-- Whether an item is less than another. A truth value has no place in the order of a list. -/
def less? (x y : Value) : Option Bool :=
  match x, y with
  | .bool _, _ => none
  | _, .bool _ => none
  | x, y => x.less? y

/-- The items after a first one that go on falling, or that go on without falling, and the rest. -/
def runFrom (falls : Bool) (x : Value) : List Value → Option (List Value × List Value)
  | [] => some ([], [])
  | y :: r => do
    let falling ← less? y x
    if falling = falls then
      let (run, rest) ← runFrom falls y r
      some (y :: run, rest)
    else some ([], y :: r)

/-- The run that a list starts with, in order, and the items after it. -/
def firstRun : List Value → Option (List Value × List Value)
  | x :: y :: r => do
    let falls ← less? y x
    let (run, rest) ← runFrom falls y r
    some (if falls then (x :: y :: run).reverse else x :: y :: run, rest)
  | items => some (items, [])

/-- The place of a value among the ordered items from one position up to another. -/
def place? (v : Value) (items : List Value) (low high : Nat) : Option Nat :=
  if low < high then do
    let middle := low + (high - low) / 2
    let x ← items[middle]?
    if ← less? v x then place? v items low middle else place? v items (middle + 1) high
  else some low
termination_by high - low

/-- Puts items into ordered items, one after another. -/
def insertAll (ordered : List Value) : List Value → Option (List Value)
  | [] => some ordered
  | v :: r => do
    let i ← place? v ordered 0 ordered.length
    insertAll (ordered.insertIdx i v) r

/-- The items in order, unless two are met that have none. -/
def sorted? (items : List Value) : Option (List Value) := do
  let (run, rest) ← firstRun items
  insertAll run rest

/-- Whether a list repeats an item. -/
def repeatsItem (items : List Value) : Bool :=
  match sorted? items with
  | some ordered => hasSameNeighbours ordered
  | none => hasSamePair items

end TemplateSplice.Uniqueness
