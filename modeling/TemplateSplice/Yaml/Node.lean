import TemplateSplice.Yaml.Token

/-! The nodes of a YAML document: scalars, sequences and mappings. A missing node is an empty plain
scalar. -/
namespace TemplateSplice.Yaml

inductive Node where
  | scalar (text : Text) (plain : Bool)
  | sequence (items : List Node)
  | mapping (pairs : List (Node × Node))

namespace Node

/-- The node that stands where nothing is written. -/
def empty : Node := .scalar [] true

/-- The tokens still to be read. -/
abbrev Tokens := List (Token × Nat)

/-- The token that comes next. -/
def next? (ts : Tokens) : Option Token := ts.head?.map (·.1)

/-- Whether one of some tokens comes next; the end of the text stands for no token. -/
def isNext (tokens : List Token) (ts : Tokens) : Bool := (next? ts).any tokens.contains

/-- The next token does not fit, or the text goes wrong there. -/
def unexpected {α : Type} : Tokens → Except Fault α
  | (.broken reason, line) :: _ => .error ⟨reason, line⟩
  | (_, line) :: _ => .error ⟨.unexpectedToken, line⟩
  | [] => .error ⟨.unexpectedToken, 0⟩

mutual

/-- A node. In a block it may be a block collection, and as a key or a value also a sequence whose
items are not indented. The fuel bounds the depth of calls, of which three share a token at most. -/
def read (inBlock bareSequence : Bool) : Nat → Tokens → Except Fault (Node × Tokens)
  | 0, ts => unexpected ts
  | fuel + 1, ts =>
    match ts with
    | (.scalar t plain, _) :: r => .ok (.scalar t plain, r)
    | (.flowSequenceStart, _) :: r => do
      let (items, r) ← readFlowItems true fuel r
      .ok (.sequence items, r)
    | (.flowMappingStart, _) :: r => do
      let (pairs, r) ← readFlowPairs true fuel r
      .ok (.mapping pairs, r)
    | (.blockEntry, _) :: _ =>
      if bareSequence then do
        let (items, r) ← readBareItems fuel ts
        .ok (.sequence items, r)
      else unexpected ts
    | (.blockSequenceStart, _) :: r =>
      if inBlock then do
        let (items, r) ← readItems fuel r
        .ok (.sequence items, r)
      else unexpected ts
    | (.blockMappingStart, _) :: r =>
      if inBlock then do
        let (pairs, r) ← readPairs fuel r
        .ok (.mapping pairs, r)
      else unexpected ts
    | _ => unexpected ts

/-- A node, unless one of some tokens comes next. -/
def readUnless (stops : List Token) (inBlock bareSequence : Bool) :
    Nat → Tokens → Except Fault (Node × Tokens)
  | 0, ts => unexpected ts
  | fuel + 1, ts =>
    if isNext stops ts then .ok (empty, ts) else read inBlock bareSequence fuel ts

/-- The value of a key, if a colon comes next. -/
def readValue (stops : List Token) (inBlock : Bool) : Nat → Tokens → Except Fault (Node × Tokens)
  | 0, ts => unexpected ts
  | fuel + 1, ts =>
    match ts with
    | (.value, _) :: r => readUnless stops inBlock inBlock fuel r
    | _ => .ok (empty, ts)

/-- The items of a block sequence up to its end. -/
def readItems : Nat → Tokens → Except Fault (List Node × Tokens)
  | 0, ts => unexpected ts
  | fuel + 1, ts =>
    match ts with
    | (.blockEntry, _) :: r => do
      let (item, r) ← readUnless [.blockEntry, .blockEnd] true false fuel r
      let (items, r) ← readItems fuel r
      .ok (item :: items, r)
    | (.blockEnd, _) :: r => .ok ([], r)
    | _ => unexpected ts

/-- The items of a sequence that is not indented. -/
def readBareItems : Nat → Tokens → Except Fault (List Node × Tokens)
  | 0, ts => unexpected ts
  | fuel + 1, ts =>
    match ts with
    | (.blockEntry, _) :: r => do
      let (item, r) ← readUnless [.blockEntry, .key, .value, .blockEnd] true false fuel r
      let (items, r) ← readBareItems fuel r
      .ok (item :: items, r)
    | _ => .ok ([], ts)

/-- The pairs of a block mapping up to its end. -/
def readPairs : Nat → Tokens → Except Fault (List (Node × Node) × Tokens)
  | 0, ts => unexpected ts
  | fuel + 1, ts =>
    match ts with
    | (.key, _) :: r => do
      let (key, r) ← readUnless [.key, .value, .blockEnd] true true fuel r
      let (value, r) ← readValue [.key, .value, .blockEnd] true fuel r
      let (pairs, r) ← readPairs fuel r
      .ok ((key, value) :: pairs, r)
    | (.blockEnd, _) :: r => .ok ([], r)
    | _ => unexpected ts

/-- The items of a flow sequence up to its end; a key and its value are a mapping of their own. -/
def readFlowItems (isFirst : Bool) : Nat → Tokens → Except Fault (List Node × Tokens)
  | 0, ts => unexpected ts
  | fuel + 1, ts =>
    match ts with
    | (.flowSequenceEnd, _) :: r => .ok ([], r)
    | (token, _) :: rest =>
      if !isFirst && token != .flowEntry then unexpected ts
      else
        let ts := if isFirst then ts else rest
        match ts with
        | (.flowSequenceEnd, _) :: r => .ok ([], r)
        | (.key, _) :: r => do
          let (key, r) ← readUnless [.value, .flowEntry, .flowSequenceEnd] false false fuel r
          let (value, r) ← readValue [.flowEntry, .flowSequenceEnd] false fuel r
          let (items, r) ← readFlowItems false fuel r
          .ok (.mapping [(key, value)] :: items, r)
        | ts => do
          let (item, r) ← read false false fuel ts
          let (items, r) ← readFlowItems false fuel r
          .ok (item :: items, r)
    | [] => unexpected ts

/-- The pairs of a flow mapping up to its end; a node without a colon is a key without a value. -/
def readFlowPairs (isFirst : Bool) : Nat → Tokens → Except Fault (List (Node × Node) × Tokens)
  | 0, ts => unexpected ts
  | fuel + 1, ts =>
    match ts with
    | (.flowMappingEnd, _) :: r => .ok ([], r)
    | (token, _) :: rest =>
      if !isFirst && token != .flowEntry then unexpected ts
      else
        let ts := if isFirst then ts else rest
        match ts with
        | (.flowMappingEnd, _) :: r => .ok ([], r)
        | (.key, _) :: r => do
          let (key, r) ← readUnless [.value, .flowEntry, .flowMappingEnd] false false fuel r
          let (value, r) ← readValue [.flowEntry, .flowMappingEnd] false fuel r
          let (pairs, r) ← readFlowPairs false fuel r
          .ok ((key, value) :: pairs, r)
        | ts => do
          let (key, r) ← read false false fuel ts
          let (pairs, r) ← readFlowPairs false fuel r
          .ok ((key, empty) :: pairs, r)
    | [] => unexpected ts

end

/-- The node of a text of one document. A text without tokens is an empty document; only after a
start mark may the document be empty otherwise. -/
def ofTokens (ts : Tokens) : Except Fault Node :=
  match ts with
  | [] => .ok empty
  | (.documentStart, _) :: r =>
    if r = [] ∨ isNext [.documentStart, .documentEnd] r then finish empty r else content r
  | _ => content ts
where
  content (ts : Tokens) : Except Fault Node := do
    let (node, r) ← read true false (3 * ts.length + 3) ts
    finish node r
  finish (node : Node) (ts : Tokens) : Except Fault Node :=
    match ts.dropWhile fun (token, _) => token = .documentEnd with
    | [] => .ok node
    | (.documentStart, line) :: _ => .error ⟨.secondDocument, line⟩
    | rest => unexpected rest

end Node
end TemplateSplice.Yaml
