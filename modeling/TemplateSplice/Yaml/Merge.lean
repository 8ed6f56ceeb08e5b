import TemplateSplice.Yaml.Node

/-! Merges in YAML mappings. A merge key stands for the pairs of a mapping, or of the mappings of a
sequence, of which the first one wins. Merged pairs come before those of the mapping itself, so that
these win in their turn. -/
namespace TemplateSplice.Yaml.Node

/-- The key that stands for the pairs of its value. -/
def mergeKey : Node := .scalar "<<".toList true

def isMergeKey : Node → Bool
  | .scalar t plain => plain && t = "<<".toList
  | _ => false

/-- A mapping with a merge that is not possible. The merge stays in it, and nothing else. -/
def stuck : Node := .mapping [(mergeKey, empty)]

/-- The pairs of a mapping without merges. -/
def pairs? : Node → Option (List (Node × Node))
  | .mapping pairs => if pairs.any (·.1.isMergeKey) then none else some pairs
  | _ => none

/-- The pairs that a node gives to a merge, its own merges being carried out. -/
def givenPairs? : Node → Option (List (Node × Node))
  | .sequence items => (items.mapM pairs?).map fun given => given.reverse.flatten
  | node => node.pairs?

mutual

/-- The node with all merges carried out, so far as they are possible. -/
def merged : Node → Node
  | .scalar t plain => .scalar t plain
  | .sequence items => .sequence (mergedItems items)
  | .mapping pairs =>
    match mergedPairs pairs with
    | some (given, own) => .mapping (given ++ own)
    | none => stuck

def mergedItems : List Node → List Node
  | [] => []
  | item :: r => merged item :: mergedItems r

/-- The pairs that merges give, and the other pairs. -/
def mergedPairs : List (Node × Node) → Option (List (Node × Node) × List (Node × Node))
  | [] => some ([], [])
  | (key, value) :: r => do
    let value := merged value
    if key.isMergeKey then
      let pairs ← value.givenPairs?
      let (given, own) ← mergedPairs r
      some (pairs ++ given, own)
    else
      let (given, own) ← mergedPairs r
      some (given, (merged key, value) :: own)

end

end TemplateSplice.Yaml.Node
