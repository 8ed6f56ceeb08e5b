import TemplateSplice.Encoding.Utf8
import TemplateSplice.Text.Quoted

/-! Decoding and encoding of texts, and the line ends of decoded texts. -/
namespace TemplateSplice

/-- Why a text has no bytes in a codec. The positions count characters; the first of the bad ones is
kept. -/
structure EncodeFault where
  /-- What messages call the codec. -/
  codec : String
  start : Nat
  stop : Nat
  char : Char
  reason : String
  deriving DecidableEq, Repr

namespace Encoding

/-- The reason that messages give where something is beyond a limit. -/
def beyond (limit : Nat) : String := "ordinal not in range(" ++ toString limit ++ ")"

/-- Decodes bytes below a limit, each a character of its own. -/
def decodeBelow (encoding : Encoding) (limit : Nat) (bytes : Bytes) : Except DecodeFault Text :=
  match bytes.findIdx? (limit ≤ ·.toNat) with
  | none => .ok (bytes.map fun b => Char.ofNat b.toNat)
  | some i =>
    .error ⟨encoding.codecName, i, i + 1, (bytes[i]?).getD 0, beyond limit⟩

/-- Encodes characters below a limit, each as a byte of its own. A fault takes in all characters
beyond the limit that follow one another. -/
def encodeBelow (encoding : Encoding) (limit : Nat) (t : Text) : Except EncodeFault Bytes :=
  match t.dropWhile (·.toNat < limit) with
  | [] => .ok (t.map fun c => .ofNat c.toNat)
  | c :: r =>
    let start := (t.takeWhile (·.toNat < limit)).length
    let stop := start + 1 + (r.takeWhile (limit ≤ ·.toNat)).length
    .error ⟨encoding.codecName, start, stop, c, beyond limit⟩

/-- The text of bytes. -/
def decode : Encoding → Bytes → Except DecodeFault Text
  | utf8, bytes => Utf8.decode bytes
  | utf8Signed, bytes => Utf8.decodeSigned bytes
  | latin1, bytes => decodeBelow latin1 256 bytes
  | ascii, bytes => decodeBelow ascii 128 bytes

/-- The bytes of a text. -/
def encode : Encoding → Text → Except EncodeFault Bytes
  | utf8, t => .ok (Utf8.encode t)
  | utf8Signed, t => .ok (Utf8.signature ++ Utf8.encode t)
  | latin1, t => encodeBelow latin1 256 t
  | ascii, t => encodeBelow ascii 128 t

/-- The encoding of what follows the start of a file: there is only one signature. -/
def later : Encoding → Encoding
  | utf8Signed => utf8
  | e => e

/-- The bytes of texts that are written one after another. A signature stands in front of the first one,
even of an empty one. -/
def stream (e : Encoding) : List Text → Except EncodeFault Bytes
  | [] => .ok []
  | t :: r => do
    let first ← e.encode t
    let rest ← r.mapM e.later.encode
    .ok (first ++ rest.flatten)

end Encoding

/-- The text with one line feed for every line end, be it a line feed, a carriage return, or a
carriage return with a line feed. -/
def Text.unifyLineEnds : Text → Text
  | [] => []
  | '\r' :: '\n' :: r => '\n' :: unifyLineEnds r
  | '\r' :: r => '\n' :: unifyLineEnds r
  | c :: r => c :: unifyLineEnds r

namespace DecodeFault

/-- What is wrong, with the byte if there is only one. -/
def message (f : DecodeFault) : String :=
  let codec := f.codec
  let reason := f.reason
  if f.stop = f.start + 1 then
    let byte := String.ofList (Text.hexDigits 2 f.byte.toNat)
    let start := f.start
    s!"'{codec}' codec can't decode byte 0x{byte} in position {start}: {reason}"
  else
    let start := f.start
    let last := f.stop - 1
    s!"'{codec}' codec can't decode bytes in position {start}-{last}: {reason}"

end DecodeFault

namespace EncodeFault

/-- What is wrong, with the character if there is only one. -/
def message (f : EncodeFault) : String :=
  let codec := f.codec
  let start := f.start
  let reason := f.reason
  if f.stop = f.start + 1 then
    let char := String.ofList (Text.codeEscape f.char)
    s!"'{codec}' codec can't encode character '{char}' in position {start}: {reason}"
  else
    let last := f.stop - 1
    s!"'{codec}' codec can't encode characters in position {start}-{last}: {reason}"

end EncodeFault
end TemplateSplice
