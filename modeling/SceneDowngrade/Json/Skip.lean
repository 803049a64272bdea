import SceneDowngrade.Json.String
import SceneDowngrade.Json.Token

/-!
# Skipped values

The value of an unknown field is passed over, to any depth. The lists and objects that are open are
kept as a stack, innermost first.
-/
namespace SceneDowngrade.Json

/-- A list or object that has been opened. -/
inductive Open where
  | list
  | object
  deriving DecidableEq, Repr

/-- What comes next: a value, or what may follow one. -/
inductive Next where
  | value
  | separator
  deriving DecidableEq, Repr

/-- The text after a field name and its colon. -/
def skipName (text : Text) : Except Error Text :=
  match skipSpace text with
  | [] => .error (.endOfText .object)
  | '"' :: rest => do readColon (← skipString rest)
  | _ => .error .nameNotString

/-- The text after what comes before the next value of an open list or object. -/
def Open.enter : Open → Text → Except Error Text
  | .list, text => .ok text
  | .object, text => skipName text

def Open.closing : Open → Char
  | .list => ']'
  | .object => '\x7d'

def Open.endOfText : Open → Error
  | .list => .endOfText .list
  | .object => .endOfText .object

def Open.expectedComma : Open → Error
  | .list => .expectedCommaOrBracket
  | .object => .expectedCommaOrBrace

/-- The text after a value without parts, which begins with the character `c`. -/
def skipScalar (c : Char) (rest : Text) : Except Error Text :=
  if c = 'n' then readWord "ull".toList rest
  else if c = 't' then readWord "rue".toList rest
  else if c = 'f' then readWord "alse".toList rest
  else if c = '"' then skipString rest
  else if c = '-' then skipNumber rest
  else if c.isDigit then skipNumber (c :: rest)
  else .error .expectedValue

/-- The list or object that a character opens. -/
def opened? (c : Char) : Option Open :=
  if c = '[' then some .list else if c = '\x7b' then some .object else none

/-- The text after the values that are open, in `fuel` steps at most. -/
def skipFrom : (fuel : Nat) → Next → List Open → Text → Except Error Text
  | _, .separator, [], text => .ok text
  | 0, _, _, _ => .error (.endOfText .value)
  | fuel + 1, .separator, frame :: frames, text =>
    match skipSpace text with
    | [] => .error frame.endOfText
    | c :: rest =>
      if c = ',' then do skipFrom fuel .value (frame :: frames) (← frame.enter rest)
      else if c = frame.closing then skipFrom fuel .separator frames rest
      else .error frame.expectedComma
  | fuel + 1, .value, frames, text =>
    match skipSpace text with
    | [] => .error (.endOfText .value)
    | c :: rest =>
      match opened? c with
      | none => do skipFrom fuel .separator frames (← skipScalar c rest)
      | some frame =>
        match skipSpace rest with
        | [] => .error frame.endOfText
        | d :: inner =>
          if d = frame.closing then skipFrom fuel .separator frames inner
          else do skipFrom fuel .value (frame :: frames) (← frame.enter (d :: inner))

/-- The text after one value. -/
def skipValue (text : Text) : Except Error Text := skipFrom (text.length + 1) .value [] text

end SceneDowngrade.Json
