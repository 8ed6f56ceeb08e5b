import TemplateSplice.Number.Shortest
import TemplateSplice.Text.Quoted
import TemplateSplice.Value.Basic

/-! Values as messages show them: texts as quoted literals, the truth values and the missing value
as words, and lists and mappings on one line. Whole numbers with too many digits cannot be shown. -/
namespace TemplateSplice

namespace Scalar

/-- The literal of a scalar. -/
def literal : Scalar → Text
  | null => "None".toList
  | bool true => "True".toList
  | bool false => "False".toList
  | int n => intText n
  | float x => x.numeral "inf".toList "nan".toList
  | str s => Text.quoted s.toList
  | date d => d.literal
  | moment m => m.literal

/-- A scalar as plain text: a string as itself, and a day or a time without its constructor. -/
def plainText : Scalar → Text
  | str s => s.toList
  | date d => d.text
  | moment m => m.text
  | s => s.literal

/-- Whether a scalar can be shown. -/
def isShowable : Scalar → Bool
  | int n => n.natAbs < pow10 digitLimit
  | _ => true

end Scalar

namespace Value

mutual

/-- The literal of a value. -/
def literal : Value → Text
  | scalar s => s.literal
  | array [] => ['[', ']']
  | array (v :: r) => '[' :: literal v ++ itemLiterals r ++ [']']
  | object [] => ['{', '}']
  | object ((k, v) :: r) =>
    '{' :: k.literal ++ [':', ' '] ++ literal v ++ memberLiterals r ++ ['}']

/-- The literals of the items after the first. -/
def itemLiterals : List Value → Text
  | [] => []
  | v :: r => ',' :: ' ' :: literal v ++ itemLiterals r

/-- The literals of the members after the first. -/
def memberLiterals : List (Scalar × Value) → Text
  | [] => []
  | (k, v) :: r => ',' :: ' ' :: k.literal ++ [':', ' '] ++ literal v ++ memberLiterals r

end

mutual

/-- Whether all scalars of a value can be shown. -/
def isShowable : Value → Bool
  | scalar s => s.isShowable
  | array items => areShowable items
  | object m => haveShowable m

def areShowable : List Value → Bool
  | [] => true
  | v :: r => isShowable v && areShowable r

/-- Whether the keys and the values of members can be shown. -/
def haveShowable : List (Scalar × Value) → Bool
  | [] => true
  | (k, v) :: r => k.isShowable && isShowable v && haveShowable r

end

end Value
end TemplateSplice
