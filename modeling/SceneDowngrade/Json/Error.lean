import SceneDowngrade.Decimal.Shortest
import SceneDowngrade.Text.Quoted

/-!
# Faults in settings text

Why a JSON text does not hold settings: it ends too early, it holds a value of another type or a
field twice, or it is malformed.
-/
namespace SceneDowngrade.Json

inductive Unfinished where
  | value
  | object
  | list
  | string
  deriving DecidableEq, Repr

/-- A value of a type that was not wanted. -/
inductive Found where
  | integer (n : Int)
  | float (negative : Bool) (magnitude : Binary64)
  | boolean (b : Bool)
  | null
  | string (s : Text)
  | list
  | object
  deriving DecidableEq, Repr

inductive Wanted where
  | settings
  | string
  | boolean
  deriving DecidableEq, Repr

inductive Error where
  | endOfText (unfinished : Unfinished)
  | wrongType (found : Found) (wanted : Wanted)
  | duplicateField (name : Text)
  | expectedValue
  | misspeltWord
  | expectedColon
  | expectedCommaOrBrace
  | expectedCommaOrBracket
  | trailingComma
  | trailingCharacters
  | nameNotString
  | invalidNumber
  | numberOutOfRange
  | invalidEscape
  | unpairedSurrogate
  | loneSurrogate
  | controlCharacter
  deriving DecidableEq, Repr

inductive Category where
  | endOfText
  | data
  | malformed
  deriving DecidableEq, Repr

def Unfinished.message : Unfinished → Text
  | .value => "a value".toList
  | .object => "an object".toList
  | .list => "a list".toList
  | .string => "a string".toList

def Found.message : Found → Text
  | .integer n => "integer `".toList ++ Decimal.signed n ++ ['`']
  | .float negative magnitude =>
    "floating point `".toList ++ magnitude.render negative ++ ['`']
  | .boolean true => "boolean `true`".toList
  | .boolean false => "boolean `false`".toList
  | .null => "null".toList
  | .string s => "string ".toList ++ s.quoted
  | .list => "sequence".toList
  | .object => "map".toList

def Wanted.message : Wanted → Text
  | .settings => "struct Config".toList
  | .string => "a string".toList
  | .boolean => "a boolean".toList

namespace Error

def category : Error → Category
  | .endOfText _ => .endOfText
  | .wrongType _ _ | .duplicateField _ => .data
  | _ => .malformed

def message : Error → Text
  | .endOfText unfinished => "EOF while parsing ".toList ++ unfinished.message
  | .wrongType found wanted =>
    "invalid type: ".toList ++ found.message ++ ", expected ".toList ++ wanted.message
  | .duplicateField name => "duplicate field `".toList ++ name ++ ['`']
  | .expectedValue => "expected value".toList
  | .misspeltWord => "expected ident".toList
  | .expectedColon => "expected `:`".toList
  | .expectedCommaOrBrace => "expected `,` or `\x7d`".toList
  | .expectedCommaOrBracket => "expected `,` or `]`".toList
  | .trailingComma => "trailing comma".toList
  | .trailingCharacters => "trailing characters".toList
  | .nameNotString => "key must be a string".toList
  | .invalidNumber => "invalid number".toList
  | .numberOutOfRange => "number out of range".toList
  | .invalidEscape => "invalid escape".toList
  | .unpairedSurrogate => "unexpected end of hex escape".toList
  | .loneSurrogate => "lone leading surrogate in hex escape".toList
  | .controlCharacter => "control character (\\u0000-\\u001F) found while parsing a string".toList

end Error

end SceneDowngrade.Json
