import TemplateSplice.Yaml.Cursor

/-! Plain and quoted scalars. A line break inside a scalar is one space, and further breaks after it
stay; blanks around a break fall away. A plain scalar ends before a colon or a comment that a gap
sets off, and in a flow collection also before its punctuation. -/
namespace TemplateSplice.Yaml

/-- Where a scalar stands. -/
structure Setting where
  /-- Whether it stands in a flow collection. -/
  inFlow : Bool
  /-- The columns that its further lines are indented by at least, outside flow collections. -/
  indent : Int

/-- What has been read of a plain scalar. -/
structure PlainRead where
  text : Text
  cursor : Cursor
  /-- Whether the reading went over a line end. -/
  brokeLine : Bool

/-- The punctuation of flow collections. -/
def isFlowMark (c : Char) : Bool := c == ',' || c == '[' || c == ']' || c == '{' || c == '}'

/-- The characters of a plain scalar up to the next gap or the end of the scalar. -/
def plainRun (inFlow : Bool) : Text → Text
  | [] => []
  | c :: r =>
    let after := r.head?
    let closes := isGap (some c) ||
      (c == ':' && (isGap after || (inFlow && after.any isFlowMark))) ||
      (inFlow && (c == '?' || isFlowMark c))
    if closes then [] else c :: plainRun inFlow r

/-- The breaks after a first line end: line ends with spaces before them. A document mark at the
start of a line ends the reading. -/
def plainBreaks : Nat → Cursor → Option (Text × Cursor)
  | 0, c => some ([], c)
  | fuel + 1, c =>
    if c.head? == some ' ' then plainBreaks fuel c.next
    else match c.lineEnd? with
      | some (e, c) =>
        if c.isDocumentMark then none
        else (plainBreaks fuel c).map fun (breaks, c) => (e :: breaks, c)
      | none => some ([], c)

/-- What a first line end and the breaks after it mean. -/
def foldBreaks (first : Char) (breaks : Text) : Text :=
  if first != '\n' then first :: breaks
  else if breaks = [] then [' ']
  else breaks

/-- The blanks between two runs of a plain scalar; none if the scalar ends before them. -/
def plainGap (fuel : Nat) (c : Cursor) : PlainRead :=
  let blanks := c.run (· == ' ')
  let after := c.skip (· == ' ')
  match after.lineEnd? with
  | some (first, after) =>
    if after.isDocumentMark then ⟨[], after, true⟩
    else match plainBreaks fuel after with
      | some (breaks, after) => ⟨foldBreaks first breaks, after, true⟩
      | none => ⟨[], after.skip fun ch => ch == ' ' || isLineEnd ch, true⟩
  | none => ⟨blanks, after, false⟩

/-- A plain scalar, given the gap before the next run. -/
def plainFrom (setting : Setting) : Nat → Text → PlainRead → PlainRead
  | 0, _, done => done
  | fuel + 1, gap, done =>
    let c := done.cursor
    let run := if c.head? == some '#' then [] else plainRun setting.inFlow c.rest
    if run = [] then done
    else
      let after := plainGap fuel (c.forward run.length)
      let done := ⟨done.text ++ gap ++ run, after.cursor, after.brokeLine⟩
      if after.text = [] || after.cursor.head? == some '#' ||
          (!setting.inFlow && (after.cursor.column : Int) < setting.indent) then done
      else plainFrom setting fuel after.text done

/-- The plain scalar that stands here, and whether a key may follow it. The fuel is more than the
characters that are left. -/
def plain (setting : Setting) (fuel : Nat) (c : Cursor) : PlainRead :=
  plainFrom setting fuel [] ⟨[], c, false⟩

/-- The character of an escape of one letter. -/
def escape? : Char → Option Char
  | '0' => some '\x00'
  | 'a' => some '\x07'
  | 'b' => some '\x08'
  | 't' => some '\t'
  | '\t' => some '\t'
  | 'n' => some '\n'
  | 'v' => some '\x0B'
  | 'f' => some '\x0C'
  | 'r' => some '\r'
  | 'e' => some '\x1B'
  | ' ' => some ' '
  | '"' => some '"'
  | '\\' => some '\\'
  | '/' => some '/'
  | 'N' => some '\u0085'
  | '_' => some '\u00A0'
  | 'L' => some '\u2028'
  | 'P' => some '\u2029'
  | _ => none

/-- The number of digits in the escape of a code. -/
def escapeDigits? : Char → Option Nat
  | 'x' => some 2
  | 'u' => some 4
  | 'U' => some 8
  | _ => none

/-- The character of a code. A surrogate is no character, and the replacement character stands for
it. -/
def codeChar (n : Nat) : Except Reason Char :=
  if 0x80000000 ≤ n then .error (.scalar .noCode)
  else if 0x110000 ≤ n then .error (.scalar .noCharacter)
  else if 0xD800 ≤ n ∧ n ≤ 0xDFFF then .ok '\uFFFD'
  else .ok (Char.ofNat n)

/-- The character whose code so many digits in base sixteen write. -/
def escapedCode (count : Nat) (t : Text) : Except Reason Char :=
  match (t.take count).mapM hexValue? with
  | none => .error .unknownEscape
  | some values =>
    if values.length < count then .error .openQuote
    else codeChar (values.foldl (fun n d => 16 * n + d) 0)

/-- The breaks inside a quoted scalar: line ends with blanks around them. -/
def quotedBreaks : Nat → Cursor → Except Fault (Text × Cursor)
  | 0, c => .ok ([], c)
  | fuel + 1, c =>
    if c.isDocumentMark then c.fault .documentMark
    else
      let c := c.skip fun ch => ch == ' ' || ch == '\t'
      match c.lineEnd? with
      | some (e, c) => do
        let (breaks, c) ← quotedBreaks fuel c
        .ok (e :: breaks, c)
      | none => .ok ([], c)

/-- The rest of a quoted scalar after its opening quote. In double quotes a backslash starts an
escape, and in single quotes a quote is written twice. -/
def quotedFrom (double : Bool) : Nat → Cursor → Except Fault (Text × Cursor)
  | 0, c => c.fault .openQuote
  | fuel + 1, c =>
    match c.rest with
    | [] => c.fault .openQuote
    | ch :: r =>
      if ch == '\'' && !double then
        if r.head? == some '\'' then do
          let (t, c) ← quotedFrom double fuel c.next.next
          .ok ('\'' :: t, c)
        else .ok ([], c.next)
      else if ch == '"' && double then .ok ([], c.next)
      else if ch == '\\' && double then
        match r with
        | [] => c.fault .openQuote
        | e :: digits =>
          match escape? e, escapeDigits? e with
          | some d, _ => do
            let (t, c) ← quotedFrom double fuel c.next.next
            .ok (d :: t, c)
          | none, some count =>
            match escapedCode count digits with
            | .ok d => do
              let (t, c) ← quotedFrom double fuel (c.forward (count + 2))
              .ok (d :: t, c)
            | .error reason => c.fault reason
          | none, none =>
            match c.next.lineEnd? with
            | some (_, after) => do
              let (breaks, after) ← quotedBreaks fuel after
              let (t, c) ← quotedFrom double fuel after
              .ok (breaks ++ t, c)
            | none => c.fault .unknownEscape
      else if isGap (some ch) then
        let blanks := c.run fun ch => ch == ' ' || ch == '\t'
        let after := c.skip fun ch => ch == ' ' || ch == '\t'
        match after.lineEnd? with
        | some (first, after) => do
          let (breaks, after) ← quotedBreaks fuel after
          let (t, c) ← quotedFrom double fuel after
          .ok (foldBreaks first breaks ++ t, c)
        | none => do
          let (t, c) ← quotedFrom double fuel after
          .ok (blanks ++ t, c)
      else do
        let (t, c) ← quotedFrom double fuel c.next
        .ok (ch :: t, c)

/-- The quoted scalar that stands here. The fuel is more than the characters that are left. -/
def quotedScalar (fuel : Nat) (c : Cursor) : Except Fault (Text × Cursor) :=
  quotedFrom (c.head? == some '"') fuel c.next

end TemplateSplice.Yaml
