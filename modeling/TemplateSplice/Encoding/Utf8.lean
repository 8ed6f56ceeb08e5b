import TemplateSplice.Encoding.Basic

/-! UTF-8. A sequence that breaks off or goes wrong is reported where it starts, with the bytes
that belong to it. -/
namespace TemplateSplice

/-- Why bytes are no text in a codec. The positions count bytes; the first of the bad ones is kept. -/
structure DecodeFault where
  /-- What messages call the codec. -/
  codec : String
  start : Nat
  stop : Nat
  byte : UInt8
  reason : String
  deriving DecidableEq, Repr

namespace Utf8

/-- What stands at the start of a run of bytes. -/
inductive Step where
  | char (c : Char) (size : Nat)
  /-- The bytes end inside a sequence. -/
  | cutOff
  | invalidStart
  /-- A sequence goes wrong after so many bytes. -/
  | invalidContinuation (size : Nat)
  deriving DecidableEq, Repr

def isContinuation (b : UInt8) : Bool := 0x80 ≤ b && b ≤ 0xBF

/-- The six bits of a continuation byte. -/
def tailBits (b : UInt8) : Nat := b.toNat % 0x40

/-- The second byte of a longer sequence: after some first bytes not every continuation may
follow, since the character would be a surrogate, too long, or out of range. -/
def isSecond (first second : UInt8) : Bool :=
  isContinuation second &&
    !(first == 0xE0 && second < 0xA0) && !(first == 0xED && 0xA0 ≤ second) &&
    !(first == 0xF0 && second < 0x90) && !(first == 0xF4 && 0x90 ≤ second)

/-- The character that starts with the given byte. -/
def step (b : UInt8) (rest : Bytes) : Step :=
  if b < 0x80 then .char (Char.ofNat b.toNat) 1
  else if b < 0xC2 then .invalidStart
  else if b < 0xE0 then
    match rest with
    | [] => .cutOff
    | c :: _ =>
      if isContinuation c then .char (Char.ofNat (b.toNat % 0x20 * 0x40 + tailBits c)) 2
      else .invalidContinuation 1
  else if b < 0xF0 then
    match rest with
    | [] => .cutOff
    | c :: rest =>
      if !isSecond b c then .invalidContinuation 1
      else match rest with
        | [] => .cutOff
        | d :: _ =>
          if isContinuation d then
            .char (Char.ofNat ((b.toNat % 0x10 * 0x40 + tailBits c) * 0x40 + tailBits d)) 3
          else .invalidContinuation 2
  else if b < 0xF5 then
    match rest with
    | [] => .cutOff
    | c :: rest =>
      if !isSecond b c then .invalidContinuation 1
      else match rest with
        | [] => .cutOff
        | d :: rest =>
          if !isContinuation d then .invalidContinuation 2
          else match rest with
            | [] => .cutOff
            | e :: _ =>
              if isContinuation e then
                .char (Char.ofNat (((b.toNat % 8 * 0x40 + tailBits c) * 0x40 + tailBits d) * 0x40
                  + tailBits e)) 4
              else .invalidContinuation 3
  else .invalidStart

/-- Two bytes that begin a surrogate. At the end of what has come so far they wait for a third. -/
def isSurrogateHead (b : UInt8) (rest : Bytes) : Bool :=
  b == 0xED && match rest with
    | [c] => 0xA0 ≤ c && c ≤ 0xBF
    | _ => false

/-- Decodes bytes from a position on, given the characters before it, the last one first. If more
bytes may come, a sequence that is cut off is left over. -/
def decodeFrom (more : Bool) : Text → Nat → Nat → Bytes → Except DecodeFault (Text × Bytes)
  | done, _, _, [] => .ok (done.reverse, [])
  | done, position, pending + 1, _ :: r => decodeFrom more done (position + 1) pending r
  | done, position, 0, b :: r =>
    let fault (size : Nat) (reason : String) :=
      Except.error ⟨Encoding.utf8.codecName, position, position + size, b, reason⟩
    match step b r with
    | .char c size => decodeFrom more (c :: done) (position + 1) (size - 1) r
    | .cutOff =>
      if more then .ok (done.reverse, b :: r) else fault (r.length + 1) "unexpected end of data"
    | .invalidStart => fault 1 "invalid start byte"
    | .invalidContinuation size =>
      if more && isSurrogateHead b r then .ok (done.reverse, b :: r)
      else fault size "invalid continuation byte"

/-- The text of bytes that are all there. -/
def decode (bytes : Bytes) : Except DecodeFault Text := (decodeFrom false [] 0 0 bytes).map (·.1)

/-- The bytes of a character. -/
def encodeChar (c : Char) : Bytes :=
  let n := c.toNat
  let tail (k : Nat) : UInt8 := .ofNat (0x80 + k % 0x40)
  if n < 0x80 then [.ofNat n]
  else if n < 0x800 then [.ofNat (0xC0 + n / 0x40), tail n]
  else if n < 0x10000 then [.ofNat (0xE0 + n / 0x1000), tail (n / 0x40), tail n]
  else [.ofNat (0xF0 + n / 0x40000), tail (n / 0x1000), tail (n / 0x40), tail n]

def encode (t : Text) : Bytes := t.flatMap encodeChar

/-- The bytes of the signature, the character U+FEFF. -/
def signature : Bytes := [0xEF, 0xBB, 0xBF]

/-- The text of bytes with a signature in front. Fewer bytes than a signature that could start one
are no text yet; positions of faults count after the signature. -/
def decodeSigned (bytes : Bytes) : Except DecodeFault Text :=
  if bytes.length < 3 ∧ bytes.isPrefixOf signature then .ok []
  else if signature.isPrefixOf bytes then decode (bytes.drop 3)
  else decode bytes

end Utf8
end TemplateSplice
