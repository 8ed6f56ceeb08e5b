import TemplateSplice.Text.Basic

/-! Text encodings and their names. A name is read without regard to case, and any run of
punctuation in it counts as one underscore. -/
namespace TemplateSplice

abbrev Bytes := List UInt8

/-- The encodings that files may have. -/
inductive Encoding where
  | utf8
  /-- UTF-8 with a signature in front, which is no part of the text. -/
  | utf8Signed
  /-- One byte for each of the first 256 characters. -/
  | latin1
  /-- One byte for each of the first 128 characters. -/
  | ascii
  deriving DecidableEq, Repr

namespace Encoding

/-- Whether a character of an encoding name counts as itself. -/
def isNameChar (c : Char) : Bool := c.isAlphanum || c == '.'

/-- The name with small letters and underscores for punctuation, which falls away at both ends. -/
def plainNameFrom : Bool → Text → Text
  | _, [] => []
  | gap, c :: r =>
    if isNameChar c then (if gap then ['_'] else []) ++ c.toLower :: plainNameFrom false r
    else plainNameFrom true r

def plainName (name : Text) : Text := plainNameFrom false (name.dropWhile fun c => !isNameChar c)

/-- The other names of the encodings. -/
def aliases : List (String × Encoding) :=
  [("u8", utf8), ("utf", utf8), ("utf8", utf8), ("utf8_ucs2", utf8), ("utf8_ucs4", utf8),
   ("cp65001", utf8),
   ("8859", latin1), ("cp819", latin1), ("csisolatin1", latin1), ("ibm819", latin1),
   ("iso8859", latin1), ("iso8859_1", latin1), ("iso_8859_1", latin1),
   ("iso_8859_1_1987", latin1), ("iso_ir_100", latin1), ("l1", latin1), ("latin", latin1),
   ("latin1", latin1),
   ("646", ascii), ("ansi_x3.4_1968", ascii), ("ansi_x3_4_1968", ascii),
   ("ansi_x3.4_1986", ascii), ("cp367", ascii), ("csascii", ascii), ("ibm367", ascii),
   ("iso646_us", ascii), ("iso_646.irv_1991", ascii), ("iso_ir_6", ascii), ("us", ascii),
   ("us_ascii", ascii)]

/-- The proper names of the encodings, which have no points. -/
def properNames : List (String × Encoding) :=
  [("utf_8", utf8), ("utf_8_sig", utf8Signed), ("latin_1", latin1), ("ascii", ascii)]

def find? (names : List (String × Encoding)) (name : Text) : Option Encoding :=
  (names.find? (·.1.toList == name)).map (·.2)

/-- The encoding of a name. In another name a point may stand for an underscore. -/
def ofName? (name : Text) : Option Encoding :=
  let plain := plainName name
  let pointless := plain.map fun c => if c = '.' then '_' else c
  match find? aliases plain, find? aliases pointless with
  | some e, _ => some e
  | none, some e => some e
  | none, none => find? properNames plain

/-- The name that messages use. -/
def codecName : Encoding → String
  | utf8 => "utf-8"
  | utf8Signed => "utf-8"
  | latin1 => "latin-1"
  | ascii => "ascii"

end Encoding
end TemplateSplice
