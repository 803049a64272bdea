import SceneDowngrade.Json.Value

/-!
# Settings

A conversion is settled by the suffix that names its output and by whether the output then replaces
the source. Settings are read from a JSON object with the fields `suffix` and `in_place`, or from a
list of the two in this order. What is missing keeps its default, and unknown fields are passed
over. The fault reported is the first one from the left.
-/
namespace SceneDowngrade

structure Settings where
  suffix : Text := ".new".toList
  inPlace : Bool := false
  deriving DecidableEq, Repr

/-- The path of the output for a source whose output is not named. -/
def Settings.destination (settings : Settings) (source : Text) : Text := source ++ settings.suffix

namespace Settings

open Json

structure Fields where
  suffix : Option Text := none
  inPlace : Option Bool := none
  deriving DecidableEq, Repr

def Fields.settings (fields : Fields) : Settings :=
  { suffix := fields.suffix.getD ({} : Settings).suffix
    inPlace := fields.inPlace.getD ({} : Settings).inPlace }

def suffixField : Text := "suffix".toList

def inPlaceField : Text := "in_place".toList

/-- The fields with the one of this name, whose value is next in the text after a colon. -/
def Fields.readField (fields : Fields) (name text : Text) : Except Error (Fields × Text) := do
  if name = suffixField then
    if fields.suffix.isSome then throw (.duplicateField suffixField)
    let (suffix, rest) ← readText (← readColon text)
    return ({ fields with suffix := some suffix }, rest)
  else if name = inPlaceField then
    if fields.inPlace.isSome then throw (.duplicateField inPlaceField)
    let (inPlace, rest) ← readFlag (← readColon text)
    return ({ fields with inPlace := some inPlace }, rest)
  else return (fields, ← skipValue (← readColon text))

/-- Whether a field follows, with the text after its opening quote or else after the object. -/
def nextName (first : Bool) (text : Text) : Except Error (Bool × Text) :=
  match skipSpace text with
  | [] => .error (.endOfText .object)
  | '\x7d' :: rest => .ok (false, rest)
  | c :: rest =>
    if first then
      if c = '"' then .ok (true, rest) else .error .nameNotString
    else if c = ',' then
      match skipSpace rest with
      | [] => .error (.endOfText .value)
      | '"' :: rest => .ok (true, rest)
      | '\x7d' :: _ => .error .trailingComma
      | _ => .error .nameNotString
    else .error .expectedCommaOrBrace

/-- The fields of an object from the next one on, `fuel` of them at most. -/
def readFields : (fuel : Nat) → (first : Bool) → Fields → Text → Except Error (Fields × Text)
  | 0, _, _, _ => .error (.endOfText .object)
  | fuel + 1, first, fields, text => do
    let (more, rest) ← nextName first text
    if more then
      let (name, rest) ← readString rest
      let (fields, rest) ← fields.readField name rest
      readFields fuel false fields rest
    else return (fields, rest)

def readObject (text : Text) : Except Error (Settings × Text) := do
  let (fields, rest) ← readFields (text.length + 1) true {} text
  return (fields.settings, rest)

/-- Whether a list has a next item, and the text from there on. -/
def nextItem (first : Bool) (text : Text) : Except Error (Bool × Text) :=
  match skipSpace text with
  | [] => .error (.endOfText .list)
  | ']' :: rest => .ok (false, ']' :: rest)
  | c :: rest =>
    if first then .ok (true, c :: rest)
    else if c = ',' then
      match skipSpace rest with
      | [] => .error (.endOfText .value)
      | ']' :: _ => .error .trailingComma
      | rest => .ok (true, rest)
    else .error .expectedCommaOrBracket

/-- The text after the end of a list that must have no further item. -/
def readListEnd (text : Text) : Except Error Text :=
  match skipSpace text with
  | [] => .error (.endOfText .list)
  | ']' :: rest => .ok rest
  | ',' :: rest => if (skipSpace rest).head? = some ']' then .error .trailingComma
    else .error .trailingCharacters
  | _ => .error .trailingCharacters

def readList (text : Text) : Except Error (Settings × Text) := do
  let (hasSuffix, text) ← nextItem true text
  if !hasSuffix then return ({}, ← readListEnd text)
  let (suffix, text) ← readText text
  let (hasFlag, text) ← nextItem false text
  if !hasFlag then return ({ suffix }, ← readListEnd text)
  let (inPlace, text) ← readFlag text
  return ({ suffix, inPlace }, ← readListEnd text)

def readSettings (text : Text) : Except Error (Settings × Text) :=
  match skipSpace text with
  | '\x7b' :: rest => readObject rest
  | '[' :: rest => readList rest
  | text => .error (mismatch .settings text)

def ofJson (text : Text) : Except Error Settings := do
  let (settings, rest) ← readSettings text
  if (skipSpace rest).isEmpty then return settings
  throw .trailingCharacters

end Settings

end SceneDowngrade
