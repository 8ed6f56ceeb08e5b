import TemplateSplice.Encoding.Codec

/-! Decoding of a long file block by block. What a block leaves over goes in front of the next one,
and the positions in a fault count from there. Line ends are unified on the way, so that a carriage
return at the end of a block waits for what follows it. -/
namespace TemplateSplice.Blocks

/-- The number of bytes in a block, unless more are needed. -/
def blockSize : Nat := 8192

/-- The number of characters that are taken at a time. -/
def takeSize : Nat := 4096

/-- How far the decoding has come. -/
structure Progress where
  /-- The bytes of a character that is not complete yet. -/
  left : Bytes
  /-- Whether a carriage return waits for what follows it. -/
  waits : Bool
  /-- The number of characters so far. -/
  done : Nat
  /-- The number of bytes in the last block, and that of the characters that came of it. -/
  bytes : Nat
  chars : Nat
  deriving DecidableEq, Repr

namespace Progress

def start : Progress := ⟨[], false, 0, 0, 0⟩

/-- The size of the next block: enough for the characters to be taken, if they are like those of the
last block. -/
def nextSize (p : Progress) : Nat :=
  let wanted := takeSize - p.done % takeSize
  max blockSize (if p.chars = 0 ∨ p.bytes ≤ p.chars then wanted else p.bytes * wanted / p.chars)

/-- The characters of a block, and how far the decoding is after it. -/
def decode (p : Progress) (block : Bytes) : Except DecodeFault (Text × Progress) := do
  let (t, left) ← Utf8.decodeFrom true [] 0 0 (p.left ++ block)
  let raw := if p.waits ∧ t ≠ [] then '\r' :: t else t
  let waits := if t = [] then p.waits else raw.getLast? = some '\r'
  let ready := Text.unifyLineEnds (if waits ∧ t ≠ [] then raw.dropLast else raw)
  .ok (ready, ⟨left, waits, p.done + ready.length, block.length, ready.length⟩)

/-- The characters that are left when no more bytes come. -/
def finish (p : Progress) : Except DecodeFault Text := do
  let t ← Utf8.decode p.left
  .ok (Text.unifyLineEnds (if p.waits then '\r' :: t else t))

end Progress

/-- Decodes bytes up to the end or to a block with a fault. The fuel bounds the number of blocks. -/
def decodeFrom : Nat → Progress → Bytes → Text × Option DecodeFault
  | 0, _, _ => ([], none)
  | _ + 1, p, [] =>
    match p.finish with
    | .ok t => (t, none)
    | .error fault => ([], some fault)
  | fuel + 1, p, bytes =>
    match p.decode (bytes.take p.nextSize) with
    | .ok (t, next) =>
      let (rest, fault) := decodeFrom fuel next (bytes.drop p.nextSize)
      (t ++ rest, fault)
    | .error fault => ([], some fault)

/-- The text of bytes up to the block that cannot be decoded, and what is wrong with that block. -/
def decode (bytes : Bytes) : Text × Option DecodeFault := decodeFrom (bytes.length + 1) .start bytes

end TemplateSplice.Blocks
