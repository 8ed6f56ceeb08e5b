import TemplateSplice.Problem.Basic
import TemplateSplice.Yaml.Value

/-! The reader of YAML that comes with the program. -/
namespace TemplateSplice.Yaml

/-- What a fault in a text is called. -/
def Reason.faultName : Reason → String
  | unprintable => "ReaderError"
  | unexpectedToken => "ParserError"
  | secondDocument => "ComposerError"
  | compoundKey | badMerge | keyOnly => "ConstructorError"
  | _ => "ScannerError"

/-- The failure of a scalar that gives no value. -/
def ScalarFault.foreign : ScalarFault → Foreign
  | noDigits base => ⟨.value, s!"invalid literal for int() with base {base}: ''", rfl, rfl⟩
  | tooManyDigits count => ⟨.value, Problem.digitsMessage (some count), rfl, rfl⟩
  | tooLarge => ⟨.overflow, "int too large to convert to float", rfl, rfl⟩
  | calendar fault => ⟨.value, fault.message, rfl, rfl⟩
  | noCharacter => ⟨.value, "chr() arg not in range(0x110000)", rfl, rfl⟩
  | noCode => ⟨.overflow, "Python int too large to convert to C int", rfl, rfl⟩

/-- The refusal of a text with a fault, given what is wrong with the bytes after it. -/
def refusal (decoding : Option DecodeFault) (f : Fault) : YamlRefusal :=
  match f.reason, decoding with
  | .undecodable, some fault => .undecodable fault
  | .scalar fault, _ => .foreign fault.foreign
  | reason, _ => .malformed reason.faultName f.message

/-- The value of a text. -/
def reader : YamlReader := fun t fault => (read (.ofText t fault.isNone)).mapError (refusal fault)

end TemplateSplice.Yaml
