import TemplateSplice.Library.Basic

/-! The codec of domain names, as far as it is about ASCII. A text counts as labels between points. A stream
writes a label when the point after it has come, so what follows the last point stays unwritten. -/
namespace TemplateSplice.Idna

def failure (message : String) : Foreign := ⟨.unicode, message, rfl, rfl⟩

/-- The number of characters that a label stays below. -/
def labelLimit : Nat := 64

def isLabel (t : Text) : Bool := t ≠ [] && t.length < labelLimit

/-- What the labels of other characters start with when they are written in ASCII. -/
def foreignStart : Text := "xn--".toList

/-- Labels of other characters than those of ASCII are not known here. -/
def unknownLabel : Foreign := failure "label of other characters"

def bytesOf (t : Text) : Except (CodecFault EncodeFault) Bytes :=
  (Encoding.ascii.encode t).mapError fun _ => .foreign unknownLabel

/-- The labels of a text that a point follows, and what follows the last point. -/
def labels (t : Text) : List Text × Text :=
  let parts := Text.splitOn ['.'] t
  (parts.dropLast, parts.getLast?.getD [])

def decode (bytes : Bytes) : Except (CodecFault DecodeFault) Text := do
  let t ← (Encoding.ascii.decode bytes).mapError .usual
  if (Text.splitOn ['.'] t).any foreignStart.isPrefixOf then .error (.foreign unknownLabel) else .ok t

def encode (t : Text) : Except (CodecFault EncodeFault) Bytes :=
  let (complete, last) := labels t
  if !complete.all isLabel then .error (.foreign (failure "label empty or too long"))
  else if labelLimit ≤ last.length then .error (.foreign (failure "label too long"))
  else bytesOf t

def stream (parts : List Text) : Except (CodecFault EncodeFault) Bytes :=
  let (complete, _) := labels parts.flatten
  if !complete.all isLabel then .error (.foreign (failure "label empty or too long"))
  else bytesOf (complete.flatMap (· ++ ['.']))

def codec : Codec := ⟨decode, encode, stream⟩

end TemplateSplice.Idna
