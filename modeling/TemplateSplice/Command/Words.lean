import TemplateSplice.Text.Digit

/-! Words of a command line. A long option may be shortened as long as it stays the only one. A
value follows its option, or stands in the same word: after an equals sign, or right after a
one-letter option. One-letter options without a value may share a word. After two dashes every
word is an operand. Readers of command lines differ in a few such words; what they make of them is
their dialect. -/
namespace TemplateSplice.Command

/-- What a reader makes of words that readers differ in. -/
structure Dialect where
  /-- Whether an equals sign parts the letters that share a word from a value, also where no value is taken;
  and whether a letter that is no option is left over and not a misuse. -/
  partsLetters : Bool
  /-- Whether two dashes are a value where they stand in the word of their option. -/
  keepsDashes : Bool
  deriving DecidableEq, Repr

/-- The dialect of earlier readers. -/
def Dialect.early : Dialect := ⟨false, false⟩

/-- The dialect of later readers. -/
def Dialect.late : Dialect := ⟨true, true⟩

/-- Why the reading of a command line ends early. -/
inductive Stop where
  | help
  | version
  /-- The words fit no usage. -/
  | misuse
  deriving DecidableEq, Repr

/-- An option by its names, and what it does to what has been read so far. The text is its value,
empty for an option without one. -/
structure OptionSpec (σ : Type) where
  names : List Text
  takesValue : Bool
  apply : Text → σ → Except Stop σ

/-- An option in a word: what it is, unless there is none of that name, and the text that stands in
the same word. -/
structure Mention (σ : Type) where
  spec : Option (OptionSpec σ)
  isLong : Bool
  attached : Option Text
  /-- Whether an equals sign stands before that text. -/
  isParted : Bool

/-- What a word is. -/
inductive Word (σ : Type) where
  | operand (t : Text)
  /-- The two dashes that end the options. -/
  | dashes
  | mention (t : Text) (mention : Mention σ)

/-- The operands of a usage: one that may be missing from where it is asked for, or all words from
the next operand on. -/
inductive Operands (σ : Type) where
  | none
  | one (apply : Text → σ → Except Stop σ)
  | rest (apply : List Text → σ → Except Stop σ)

/-- A usage: its options, and its operands. -/
structure Usage (σ : Type) where
  options : List (OptionSpec σ)
  operands : Operands σ

def twoDashes : Text := "--".toList

def isLongName (t : Text) : Bool := twoDashes.isPrefixOf t

namespace Usage

variable {σ : Type}

/-- The option of a name. -/
def find? (usage : Usage σ) (name : Text) : Option (OptionSpec σ) :=
  usage.options.find? fun spec => spec.names.contains name

/-- A text split at its first equals sign, if it has one. -/
def atSign (t : Text) : Text × Option Text :=
  match t.span (· != '=') with
  | (name, _ :: value) => (name, some value)
  | (name, []) => (name, none)

/-- The options that a word which is no full name may mean. -/
def candidates (usage : Usage σ) (t : Text) : List (Mention σ) :=
  if isLongName t then
    let (start, value) := atSign t
    usage.options.flatMap fun spec =>
      (spec.names.filter start.isPrefixOf).map fun name =>
        ⟨some spec, isLongName name, value, value.isSome⟩
  else
    usage.options.flatMap fun spec =>
      (spec.names.filter fun name => name = t.take 2 ∨ t.isPrefixOf name).map fun name =>
        ⟨some spec, isLongName name, if name = t.take 2 then some (t.drop 2) else none, false⟩

/-- Whether a text is digits, or a point with digits after it and perhaps before it. -/
def isNumeral (t : Text) : Bool :=
  match t.span isDigit with
  | (whole, []) => whole ≠ []
  | (_, '.' :: places) => places ≠ [] && places.all isDigit
  | _ => false

/-- Whether a word is a negative number. A line feed at its end does not count. -/
def isNegativeNumber (t : Text) : Bool :=
  match t with
  | '-' :: r => isNumeral (if r.getLast? = some '\n' then r.dropLast else r)
  | _ => false

/-- What a word is, before two dashes. A word that only looks like an option is an operand if it is
a negative number or has a space in it. -/
def classify (usage : Usage σ) (t : Text) : Except Stop (Word σ) :=
  match t with
  | '-' :: _ :: _ =>
    match usage.find? t with
    | some spec => .ok (.mention t ⟨some spec, isLongName t, none, false⟩)
    | none =>
      let (name, value) := atSign t
      match value.bind fun value => (usage.find? name).map (·, value) with
      | some (spec, value) => .ok (.mention t ⟨some spec, isLongName name, some value, true⟩)
      | none =>
        match usage.candidates t with
        | [mention] => .ok (.mention t mention)
        | [] =>
          if isNegativeNumber t || ' ' ∈ t then .ok (.operand t)
          else .ok (.mention t ⟨none, isLongName t, none, false⟩)
        | _ => .error .misuse
  | t => .ok (.operand t)

/-- What the words of a command line are. -/
def words (usage : Usage σ) : List Text → Except Stop (List (Word σ))
  | [] => .ok []
  | t :: r =>
    if t = twoDashes then .ok (.dashes :: r.map .operand)
    else do
      let word ← usage.classify t
      let rest ← usage.words r
      .ok (word :: rest)

end Usage

/-- What has been read of a command line. -/
structure Reading (σ : Type) where
  state : σ
  operands : Operands σ
  /-- Whether a word was left that fits nothing. -/
  hasSurplus : Bool

namespace Reading

variable {σ : Type}

def surplus (r : Reading σ) : Reading σ := { r with hasSurplus := true }

/-- The reading after an option has done what it does. -/
def applied (r : Reading σ) (spec : OptionSpec σ) (value : Text) : Except Stop (Reading σ) := do
  let state ← spec.apply value r.state
  .ok { r with state }

/-- The options that share a word, given the text after the first of them and whether an equals sign
stands before that text: those without a value, and then perhaps one with a value. In some dialects a
letter may be left over. Nothing is done before the whole word is read. -/
def sharing (dialect : Dialect) (usage : Usage σ) (spec : OptionSpec σ) (isLong isParted : Bool) :
    Text → Except Stop (List (OptionSpec σ × Option Text) × Bool)
  | [] => if spec.takesValue then .ok ([(spec, some [])], false) else .error .misuse
  | letter :: r =>
    if spec.takesValue then .ok ([(spec, some (letter :: r))], false)
    else if isLong || (dialect.partsLetters && (isParted || letter == '-')) then .error .misuse
    else match usage.find? ['-', letter] with
      | none => if dialect.partsLetters then .ok ([(spec, none)], true) else .error .misuse
      | some next => do
        let (specs, hasRest) ← match r with
          | [] => .ok ([(next, none)], false)
          | '=' :: value =>
            if dialect.partsLetters then sharing dialect usage next false true value
            else sharing dialect usage next false false ('=' :: value)
          | r => sharing dialect usage next false false r
        .ok ((spec, none) :: specs, hasRest)

/-- The value of an option. In some dialects two dashes count for nothing even there, and leave it
empty. -/
def valueOf (dialect : Dialect) (t : Option Text) : Text :=
  if t = some twoDashes && !dialect.keepsDashes then [] else t.getD []

/-- Does what options do, one after another. -/
def appliedAll (dialect : Dialect) (r : Reading σ) :
    List (OptionSpec σ × Option Text) → Except Stop (Reading σ)
  | [] => .ok r
  | (spec, value) :: rest => do
    let r ← r.applied spec (valueOf dialect value)
    r.appliedAll dialect rest

/-- Reads an option, and the word after it if that is its value. -/
def readMention (dialect : Dialect) (usage : Usage σ) (r : Reading σ) (mention : Mention σ)
    (rest : List (Word σ)) : Except Stop (Reading σ × List (Word σ)) :=
  match mention.spec with
  | none => .ok (r.surplus, rest)
  | some spec => do
    let (specs, hasRest) ← match mention.attached with
      | none => .ok ([(spec, none)], false)
      | some t => sharing dialect usage spec mention.isLong mention.isParted t
    match specs.reverse with
    | (last, none) :: before =>
      if last.takesValue then
        match rest with
        | .operand value :: rest => do
          let r ← r.appliedAll dialect (before.reverse ++ [(last, some value)])
          .ok (r, rest)
        | _ => .error .misuse
      else do
        let r ← r.appliedAll dialect specs
        .ok (if hasRest then r.surplus else r, rest)
    | _ => do
      let r ← r.appliedAll dialect specs
      .ok (r, rest)

def isDashes : Word σ → Bool
  | .dashes => true
  | _ => false

/-- The text of a word. -/
def wordText : Word σ → Text
  | .operand t => t
  | .dashes => twoDashes
  | .mention t _ => t

/-- Reads the operand that stands here, perhaps after two dashes, if one is still asked for. -/
def readOperand (r : Reading σ) (words : List (Word σ)) :
    Except Stop (Option (Reading σ × List (Word σ))) :=
  match words.dropWhile isDashes with
  | .operand t :: rest =>
    match r.operands with
    | .none => .ok none
    | .one apply => do
      let state ← apply t r.state
      .ok (some ({ r with state, operands := .none }, rest.dropWhile isDashes))
    | .rest apply => do
      let state ← apply (words.map wordText) r.state
      .ok (some ({ r with state, operands := .none }, []))
  | _ => .ok none

def isMention : Word σ → Bool
  | .mention _ _ => true
  | _ => false

/-- Reads words: operands where they are asked for, and options wherever they stand. -/
def run (dialect : Dialect) (usage : Usage σ) :
    Nat → Reading σ → List (Word σ) → Except Stop (Reading σ)
  | 0, r, _ => .ok r
  | fuel + 1, r, words =>
    match words with
    | [] => .ok r
    | .mention _ mention :: rest => do
      let (r, rest) ← r.readMention dialect usage mention rest
      run dialect usage fuel r rest
    | _ => do
      match ← r.readOperand words with
      | some (r, rest) => run dialect usage fuel r rest
      | none => run dialect usage fuel r.surplus (words.dropWhile (!isMention ·))

end Reading

/-- Reads the words of a command line. -/
def Usage.read {σ : Type} (dialect : Dialect) (usage : Usage σ) (start : σ) (line : List Text) :
    Except Stop (Reading σ) := do
  let words ← usage.words line
  Reading.run dialect usage (words.length + 1) ⟨start, usage.operands, false⟩ words

end TemplateSplice.Command
