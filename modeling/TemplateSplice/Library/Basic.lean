import TemplateSplice.Encoding.Codec
import TemplateSplice.Problem.Report

/-! What the program asks of libraries: codecs, for the encodings that it does not know itself, and a reader
of YAML. All that is known of them is what they give, and how they may fail. -/
namespace TemplateSplice

/-- A failure in a library. It is neither a problem of the program's own nor one of the system. -/
structure Foreign where
  kind : ProblemKind
  message : String
  not_own : kind.isOwn = false
  not_system : kind.isSystem = false
  deriving Repr

/-- What goes wrong in a codec: a fault that every codec may have, or one of its own. -/
inductive CodecFault (ε : Type) where
  | usual (fault : ε)
  | foreign (fault : Foreign)
  deriving Repr

/-- A codec, for the texts of files. -/
structure Codec where
  /-- The text of the bytes of a file. -/
  decode : Bytes → Except (CodecFault DecodeFault) Text
  /-- The bytes of a whole text. -/
  encode : Text → Except (CodecFault EncodeFault) Bytes
  /-- The bytes in a file after texts were written to it one after another. The codec is not told that no
  more will come, so it may hold back the bytes of what it still waits for the rest of. -/
  stream : List Text → Except (CodecFault EncodeFault) Bytes

/-- The codec of an encoding. -/
def Encoding.codec (e : Encoding) : Codec where
  decode bytes := (e.decode bytes).mapError .usual
  encode t := (e.encode t).mapError .usual
  stream parts := (e.stream parts).mapError .usual

/-- Why a reader of YAML gives no value. -/
inductive YamlRefusal where
  /-- The text is malformed: the name of the fault, and what the reader says of it. -/
  | malformed (name message : String)
  /-- The reader asks for more where the bytes of the file are no text. -/
  | undecodable (fault : DecodeFault)
  | foreign (fault : Foreign)
  deriving Repr

/-- A reader of YAML. It is given the text of a file, up to the bytes that are no text and why they are none
if there are such bytes. -/
abbrev YamlReader := Text → Option DecodeFault → Except YamlRefusal Value

end TemplateSplice
