import SceneDowngrade.Json.Error

/-!
# Tokens

The white space, words, colons and numbers of a JSON text. A reader takes the text that is left and
gives back what is left after it.
-/
namespace SceneDowngrade.Json

/-- White space between the tokens of a JSON text. -/
def isSpace (c : Char) : Bool := c = ' ' || c = '\t' || c = '\n' || c = '\r'

def skipSpace (text : Text) : Text := text.dropWhile isSpace

def readWord : (word text : Text) → Except Error Text
  | [], text => .ok text
  | _ :: _, [] => .error (.endOfText .value)
  | w :: word, c :: text => if c = w then readWord word text else .error .misspeltWord

/-- The text after the colon that follows a field name. -/
def readColon (text : Text) : Except Error Text :=
  match skipSpace text with
  | [] => .error (.endOfText .object)
  | ':' :: rest => .ok rest
  | _ => .error .expectedColon

/-! ## Numbers

A JSON number has digits without a leading zero, perhaps a fraction, and perhaps a power of ten. Its
value is an integer if it is written as one and fits 64 bits, else a floating-point number. -/

/-- A number as it is written, less its sign. -/
structure Numeral where
  whole : List Nat
  fraction : List Nat
  power : Option Int
  deriving DecidableEq, Repr

def digitValue (c : Char) : Nat := c.toNat - '0'.toNat

def takeDigits (text : Text) : List Nat × Text :=
  ((text.takeWhile Char.isDigit).map digitValue, text.dropWhile Char.isDigit)

def ofDigits (digits : List Nat) : Nat := digits.foldl (fun n d => 10 * n + d) 0

def readDigits (text : Text) : Except Error (List Nat × Text) :=
  match text with
  | [] => .error (.endOfText .value)
  | c :: _ => if c.isDigit then .ok (takeDigits text) else .error .invalidNumber

/-- The digits before the point; a zero has none after it. -/
def readWhole (text : Text) : Except Error (List Nat × Text) := do
  let (digits, rest) ← readDigits text
  if digits.head? = some 0 && 1 < digits.length then throw .invalidNumber
  return (digits, rest)

def readFraction : Text → Except Error (List Nat × Text)
  | '.' :: rest => readDigits rest
  | text => .ok ([], text)

def readSign : Text → Bool × Text
  | '+' :: rest => (false, rest)
  | '-' :: rest => (true, rest)
  | text => (false, text)

def readPower : Text → Except Error (Option Int × Text)
  | [] => .ok (none, [])
  | c :: rest =>
    if c = 'e' || c = 'E' then do
      let (negative, rest) := readSign rest
      let (digits, rest) ← readDigits rest
      let n : Int := ofDigits digits
      return (some (if negative then -n else n), rest)
    else .ok (none, c :: rest)

def readNumeral (text : Text) : Except Error (Numeral × Text) := do
  let (whole, rest) ← readWhole text
  let (fraction, rest) ← readFraction rest
  let (power, rest) ← readPower rest
  return (⟨whole, fraction, power⟩, rest)

def maxInteger : Nat := Nat.pow 2 64 - 1

/-- Digits appended to `n` as long as the result fits 64 bits, and the digits that are left. -/
def append (n : Nat) : (digits : List Nat) → Nat × List Nat
  | [] => (n, [])
  | d :: digits =>
    if 10 * n + d ≤ maxInteger then append (10 * n + d) digits else (n, d :: digits)

/-- The floating-point number of a numeral. Digits beyond 64 bits count as places before the point
and as nothing after it. -/
def Numeral.float? (numeral : Numeral) : Option Binary64 :=
  let (whole, left) := append 0 numeral.whole
  let (significand, dropped) := append whole numeral.fraction
  let places : Int := (left.length : Int) - (numeral.fraction.length - dropped.length : Nat)
  Binary64.ofDecimal? significand (places + numeral.power.getD 0)

/-- The integer of a numeral written as one: up to 64 bits without a sign, or at least `-2 ^ 63` and
below zero with one. -/
def Numeral.integer? (negative : Bool) (numeral : Numeral) : Option Int :=
  let n := ofDigits numeral.whole
  if !numeral.fraction.isEmpty || numeral.power.isSome then none
  else if negative then
    if 0 < n && n ≤ Nat.pow 2 63 then some (-n) else none
  else if n ≤ maxInteger then some n
  else none

/-- The value of a numeral, as it is named where another type was wanted. -/
def Numeral.found (negative : Bool) (numeral : Numeral) : Except Error Found :=
  match numeral.integer? negative with
  | some n => .ok (.integer n)
  | none =>
    match numeral.float? with
    | some x => .ok (.float negative x)
    | none => .error .numberOutOfRange

/-- The text after a number that is only skipped, less its sign. -/
def skipNumber (text : Text) : Except Error Text :=
  match readNumeral text with
  | .ok read => .ok read.2
  | .error _ => .error .invalidNumber

end SceneDowngrade.Json
