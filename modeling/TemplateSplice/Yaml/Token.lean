import TemplateSplice.Yaml.Scalar
import TemplateSplice.Yaml.Source

/-! Tokens of a YAML text. Indentation opens and closes block collections. What may turn out to be a
key is remembered until its colon comes, and then the tokens that open it go in where it starts.
Where a text goes wrong its tokens end with one that says why. Tags, anchors, directives and block
scalars are not read. -/
namespace TemplateSplice.Yaml

inductive Token where
  | documentStart
  | documentEnd
  | blockSequenceStart
  | blockMappingStart
  | blockEnd
  | flowSequenceStart
  | flowSequenceEnd
  | flowMappingStart
  | flowMappingEnd
  | blockEntry
  | flowEntry
  | key
  | value
  | scalar (text : Text) (plain : Bool)
  /-- The text goes wrong here; no token follows. -/
  | broken (reason : Reason)
  deriving DecidableEq, Repr

namespace Token

/-- What may turn out to be a key. -/
structure Candidate where
  /-- The number of tokens before it. -/
  position : Nat
  index : Nat
  line : Nat
  column : Nat
  /-- Whether nothing else may stand there. -/
  isRequired : Bool

/-- A scan under way. -/
structure Scan where
  cursor : Cursor
  /-- The tokens so far, the last one first. -/
  tokens : List (Token × Nat)
  /-- The number of tokens so far. -/
  count : Nat
  /-- The column of the innermost block collection. -/
  indent : Int
  /-- The columns of the collections around it. -/
  outer : List Int
  /-- Whether a key may start here. -/
  keyAllowed : Bool
  /-- The possible key of every open flow collection, the innermost first, and of the block. -/
  candidates : List (Option Candidate)

namespace Scan

def start (t : Text) : Scan :=
  { cursor := .ofText t
    tokens := []
    count := 0
    indent := -1
    outer := []
    keyAllowed := true
    candidates := [none] }

def inFlow (s : Scan) : Bool := 1 < s.candidates.length

def fault {α : Type} (s : Scan) (reason : Reason) : Except Fault α := s.cursor.fault reason

def emit (s : Scan) (token : Token) : Scan :=
  { s with tokens := (token, s.cursor.line) :: s.tokens, count := s.count + 1 }

/-- The scan after a token of so many characters. -/
def take (s : Scan) (size : Nat) (token : Token) : Scan :=
  { s.emit token with cursor := s.cursor.forward size }

/-- The scan with a token put before the tokens from a position on. -/
def emitAt (s : Scan) (position : Nat) (token : Token) : Scan :=
  let later := s.count - position
  { s with
    tokens := s.tokens.take later ++ (token, s.cursor.line) :: s.tokens.drop later
    count := s.count + 1 }

/-- Closes the block collections that are indented more than a column. -/
def closeBlocks (s : Scan) (column : Int) : Scan :=
  if s.inFlow then s else close s.outer s
where
  close : List Int → Scan → Scan
    | [], s => s
    | around :: outer, s =>
      if column < s.indent then close outer { s.emit .blockEnd with indent := around, outer }
      else s

/-- Whether a block collection starts at a column, and the scan inside it if so. -/
def openBlock (s : Scan) (column : Nat) : Option Scan :=
  if s.indent < column then some { s with indent := column, outer := s.indent :: s.outer } else none

/-- Gives up the possible key of the innermost collection. -/
def dropCandidate (s : Scan) : Except Fault Scan :=
  match s.candidates with
  | some k :: r =>
    if k.isRequired then s.fault .missingColon else .ok { s with candidates := none :: r }
  | _ => .ok s

/-- Remembers that a key may start here. -/
def saveCandidate (s : Scan) : Except Fault Scan :=
  if s.keyAllowed then do
    let s ← s.dropCandidate
    let c := s.cursor
    let k : Candidate :=
      ⟨s.count, c.index, c.line, c.column, !s.inFlow && s.indent == (c.column : Int)⟩
    .ok { s with candidates := some k :: s.candidates.drop 1 }
  else .ok s

/-- Whether a possible key is too far behind: on another line, or more than 1024 characters. -/
def isStale (s : Scan) (k : Candidate) : Bool :=
  k.line != s.cursor.line || 1024 < s.cursor.index - k.index

/-- Gives up the possible keys that are too far behind. -/
def dropStale (s : Scan) : Except Fault Scan :=
  let stale := s.candidates.filter fun k => k.any s.isStale
  if stale.any (·.any Candidate.isRequired) then s.fault .missingColon
  else .ok { s with candidates := s.candidates.map fun k => k.filter (!s.isStale ·) }

/-- Passes over spaces, comments and line ends. After a line end a key may start, unless a flow
collection is open. -/
def skipGaps : Nat → Scan → Scan
  | 0, s => s
  | fuel + 1, s =>
    let c := s.cursor.skip (· == ' ')
    let c := if c.head? == some '#' then c.skip (!isLineEnd ·) else c
    match c.lineEnd? with
    | some (_, c) => skipGaps fuel { s with cursor := c, keyAllowed := s.keyAllowed || !s.inFlow }
    | none => { s with cursor := c }

/-- Opens a block collection for an item or a key that stands here, if it is the first. -/
def opening (s : Scan) (token : Token) : Except Fault Scan :=
  if s.inFlow then .ok s
  else if !s.keyAllowed then s.fault .misplaced
  else .ok ((s.openBlock s.cursor.column).elim s fun s => s.emit token)

/-- The mark of a document's bounds. -/
def documentMark (s : Scan) (token : Token) : Except Fault Scan := do
  let s ← (s.closeBlocks (-1)).dropCandidate
  .ok { s.take 3 token with keyAllowed := false }

def flowStart (s : Scan) (token : Token) : Except Fault Scan := do
  let s ← s.saveCandidate
  .ok { s.take 1 token with keyAllowed := true, candidates := none :: s.candidates }

/-- The end of a flow collection, which need not be open: then the token fits nowhere. -/
def flowEnd (s : Scan) (token : Token) : Except Fault Scan := do
  let s ← s.dropCandidate
  .ok { s.take 1 token with keyAllowed := false, candidates := s.candidates.drop 1 }

def flowEntry (s : Scan) : Except Fault Scan := do
  let s ← s.dropCandidate
  .ok { s.take 1 .flowEntry with keyAllowed := true }

def blockEntry (s : Scan) : Except Fault Scan := do
  let s ← s.opening .blockSequenceStart
  let s ← s.dropCandidate
  .ok { s.take 1 .blockEntry with keyAllowed := true }

/-- A question mark in front of a key. -/
def explicitKey (s : Scan) : Except Fault Scan := do
  let s ← s.opening .blockMappingStart
  let s ← s.dropCandidate
  .ok { s.take 1 .key with keyAllowed := !s.inFlow }

/-- A colon. If a key has been waiting for it, the key's token goes in front of the key. -/
def value (s : Scan) : Except Fault Scan :=
  match s.candidates with
  | some k :: r =>
    let s := { s with candidates := none :: r }.emitAt k.position .key
    let s := if s.inFlow then s
      else (s.openBlock k.column).elim s fun s => s.emitAt k.position .blockMappingStart
    .ok { s.take 1 .value with keyAllowed := false }
  | _ => do
    let s ← s.opening .blockMappingStart
    .ok { s.take 1 .value with keyAllowed := !s.inFlow }

def quoted (fuel : Nat) (s : Scan) : Except Fault Scan := do
  let s ← s.saveCandidate
  let (t, c) ← quotedScalar fuel s.cursor
  .ok { s.emit (.scalar t false) with cursor := c, keyAllowed := false }

def plain (fuel : Nat) (s : Scan) : Except Fault Scan := do
  let s ← s.saveCandidate
  let p := Yaml.plain ⟨s.inFlow, s.indent + 1⟩ fuel s.cursor
  .ok { s.emit (.scalar p.text true) with cursor := p.cursor, keyAllowed := p.brokeLine }

/-- The characters that start no plain scalar. -/
def indicators : Text := "-?:,[]{}#&*!|>'\"%@\u0060".toList

/-- Whether a plain scalar starts with a character before another one. -/
def startsPlain (s : Scan) (ch : Char) (after : Option Char) : Bool :=
  (!isGap (some ch) && !indicators.contains ch) ||
  (!isGap after && (ch == '-' || (!s.inFlow && (ch == '?' || ch == ':'))))

/-- The scan after the token that starts with a character. -/
def token (fuel : Nat) (s : Scan) (ch : Char) : Except Fault Scan :=
  let c := s.cursor
  let after := c.at? 1
  let atStart := c.column == 0
  if atStart && c.isMark Cursor.startMark then s.documentMark .documentStart
  else if atStart && c.isMark Cursor.endMark then s.documentMark .documentEnd
  else if ch == '[' then s.flowStart .flowSequenceStart
  else if ch == '{' then s.flowStart .flowMappingStart
  else if ch == ']' then s.flowEnd .flowSequenceEnd
  else if ch == '}' then s.flowEnd .flowMappingEnd
  else if ch == ',' then s.flowEntry
  else if ch == '-' && isGap after then s.blockEntry
  else if ch == '?' && (s.inFlow || isGap after) then s.explicitKey
  else if ch == ':' && (s.inFlow || isGap after) then s.value
  else if ch == '\'' || ch == '"' then s.quoted fuel
  else if s.startsPlain ch after then s.plain fuel
  else s.fault .strayCharacter

/-- Whether a fault in the token that stands here comes of the end of the text. -/
def meetsEnd (s : Scan) (reason : Reason) : Bool :=
  reason = .openQuote || ((reason = .strayCharacter || reason = .misplaced) && s.cursor.rest.length = 1)

/-- The scan after the next token, and whether there was one. A text that is cut off goes wrong where
its end is met, also behind a token. -/
def step (cut : Option Reason) (fuel : Nat) (s : Scan) : Except Fault (Scan × Bool) := do
  let s := skipGaps fuel s
  checkCut s
  let s ← s.dropStale
  let s := s.closeBlocks s.cursor.column
  match s.cursor.rest with
  | [] => do
    let s ← (s.closeBlocks (-1)).dropCandidate
    .ok (s, false)
  | ch :: _ => do
    let s ← (s.token fuel ch).mapError fun fault =>
      if s.meetsEnd fault.reason then { fault with reason := cut.getD fault.reason } else fault
    checkCut s
    .ok (s, true)
where
  checkCut (s : Scan) : Except Fault Unit :=
    match cut, s.cursor.rest with
    | some reason, [] => s.fault reason
    | _, _ => .ok ()

/-- The number of tokens before the first that may turn out to be a key. -/
def settled (s : Scan) : Nat :=
  (s.candidates.filterMap fun k => k.map Candidate.position).foldl min s.count

/-- So many of the tokens, and one that says what is wrong behind them. -/
def brokenAfter (s : Scan) (count : Nat) (fault : Fault) : List (Token × Nat) :=
  s.tokens.reverse.take count ++ [(.broken fault.reason, fault.line)]

/-- The tokens of the rest of a text, given how many were settled before the last of them. Every token
takes at least one character, so that the fuel stays more than the characters that are left. -/
def run (cut : Option Reason) : Nat → Nat → Scan → List (Token × Nat)
  | 0, _, s => s.tokens.reverse
  | fuel + 1, before, s =>
    match s.dropStale with
    | .error fault => s.brokenAfter before fault
    | .ok s =>
      match s.step cut (fuel + 1) with
      | .ok (next, true) => run cut fuel s.settled next
      | .ok (next, false) => next.tokens.reverse
      | .error fault => s.brokenAfter s.settled fault

end Scan

/-- The tokens of a source with the lines that they stand on. A signature in front counts for
nothing. -/
def ofSource (source : Source) : List (Token × Nat) :=
  let s := Scan.start source.text
  let s := if s.cursor.head? == some '\uFEFF' then { s with cursor := s.cursor.next } else s
  s.run source.cut (source.text.length + 1) 0

end Token
end TemplateSplice.Yaml
