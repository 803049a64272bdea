import SceneDowngrade.Json.Skip

/-!
# Typed values

Strings and booleans where one of them is wanted. A value of another type is read as far as it takes
to name it; a fault inside it comes before the mismatch.
-/
namespace SceneDowngrade.Json

/-- The value that the text begins with, named for a report that another type was wanted. -/
def found : Text → Except Error Found
  | [] => .error (.endOfText .value)
  | c :: rest =>
    if c = 'n' then do
      let _ ← readWord "ull".toList rest
      return .null
    else if c = 't' then do
      let _ ← readWord "rue".toList rest
      return .boolean true
    else if c = 'f' then do
      let _ ← readWord "alse".toList rest
      return .boolean false
    else if c = '-' then do (← readNumeral rest).1.found true
    else if c.isDigit then do (← readNumeral (c :: rest)).1.found false
    else if c = '"' then do return .string (← readString rest).1
    else if c = '[' then .ok .list
    else if c = '\x7b' then .ok .object
    else .error .expectedValue

/-- The fault of a text that begins with a value of another type than the one wanted. -/
def mismatch (wanted : Wanted) (text : Text) : Error :=
  match found text with
  | .ok value => .wrongType value wanted
  | .error e => e

def readText (text : Text) : Except Error (Text × Text) :=
  match skipSpace text with
  | '"' :: rest => readString rest
  | text => .error (mismatch .string text)

def readFlag (text : Text) : Except Error (Bool × Text) :=
  match skipSpace text with
  | 't' :: rest => (readWord "rue".toList rest).map fun rest => (true, rest)
  | 'f' :: rest => (readWord "alse".toList rest).map fun rest => (false, rest)
  | text => .error (mismatch .boolean text)

end SceneDowngrade.Json
