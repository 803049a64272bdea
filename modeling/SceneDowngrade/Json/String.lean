import SceneDowngrade.Json.Error

/-!
# Strings

A JSON string from its opening quote on. An escape by code unit has four hexadecimal digits, and a
character beyond the basic plane takes a pair of surrogates. A string that is only skipped is held
to the same rules, except that its surrogates need not pair.
-/
namespace SceneDowngrade.Json

def hexValue? (c : Char) : Option Nat :=
  if '0' ≤ c && c ≤ '9' then some (c.toNat - '0'.toNat)
  else if 'a' ≤ c && c ≤ 'f' then some (c.toNat - 'a'.toNat + 10)
  else if 'A' ≤ c && c ≤ 'F' then some (c.toNat - 'A'.toNat + 10)
  else none

/-- The value of hexadecimal digits, or none if one of them is none. -/
def hexNumber? (digits : Text) : Option Nat :=
  digits.foldl (fun n c => do return 16 * (← n) + (← hexValue? c)) (some 0)

/-- A code unit in four hexadecimal digits. The text ends too early only if fewer than four bytes of
it are left. -/
def readUnit (text : Text) : Except Error (Nat × Text) :=
  match text with
  | a :: b :: c :: d :: rest =>
    match hexNumber? [a, b, c, d] with
    | some n => .ok (n, rest)
    | none => .error .invalidEscape
  | _ => if text.byteLength < 4 then .error (.endOfText .string) else .error .invalidEscape

def isHighSurrogate (n : Nat) : Bool := 0xD800 ≤ n && n ≤ 0xDBFF

def isLowSurrogate (n : Nat) : Bool := 0xDC00 ≤ n && n ≤ 0xDFFF

def pairedCodePoint (high low : Nat) : Nat := (high - 0xD800) * 0x400 + (low - 0xDC00) + 0x10000

/-- The character of an escape by code unit, after the letter `u`. -/
def readUnitEscape (text : Text) : Except Error (Char × Text) := do
  let (unit, rest) ← readUnit text
  if isLowSurrogate unit then throw .loneSurrogate
  if !isHighSurrogate unit then return (Char.ofNat unit, rest)
  match rest with
  | [] | ['\\'] => throw (.endOfText .string)
  | '\\' :: 'u' :: rest =>
    let (low, rest) ← readUnit rest
    if isLowSurrogate low then return (Char.ofNat (pairedCodePoint unit low), rest)
    throw .loneSurrogate
  | _ => throw .unpairedSurrogate

def letterEscape? : Char → Option Char
  | '"' => some '"'
  | '\\' => some '\\'
  | '/' => some '/'
  | 'b' => some '\x08'
  | 'f' => some '\x0c'
  | 'n' => some '\n'
  | 'r' => some '\r'
  | 't' => some '\t'
  | _ => none

/-- One character of a string, or none at its closing quote. -/
def readChar : Text → Except Error (Option Char × Text)
  | [] | ['\\'] => .error (.endOfText .string)
  | '"' :: rest => .ok (none, rest)
  | '\\' :: 'u' :: rest => (readUnitEscape rest).map fun read => (some read.1, read.2)
  | '\\' :: c :: rest =>
    match letterEscape? c with
    | some d => .ok (some d, rest)
    | none => .error .invalidEscape
  | c :: rest => if c.toNat < 0x20 then .error .controlCharacter else .ok (some c, rest)

/-- The characters up to the closing quote, `fuel` of them at most. -/
def readChars : (fuel : Nat) → Text → Except Error (Text × Text)
  | 0, _ => .error (.endOfText .string)
  | fuel + 1, text => do
    match ← readChar text with
    | (none, rest) => return ([], rest)
    | (some c, rest) =>
      let (s, rest) ← readChars fuel rest
      return (c :: s, rest)

def readString (text : Text) : Except Error (Text × Text) := readChars (text.length + 1) text

/-- Pass over one character of a string; false at its closing quote. -/
def skipChar : Text → Except Error (Bool × Text)
  | [] | ['\\'] => .error (.endOfText .string)
  | '"' :: rest => .ok (false, rest)
  | '\\' :: 'u' :: rest => (readUnit rest).map fun read => (true, read.2)
  | '\\' :: c :: rest =>
    if (letterEscape? c).isSome then .ok (true, rest) else .error .invalidEscape
  | c :: rest => if c.toNat < 0x20 then .error .controlCharacter else .ok (true, rest)

def skipChars : (fuel : Nat) → Text → Except Error Text
  | 0, _ => .error (.endOfText .string)
  | fuel + 1, text => do
    let (more, rest) ← skipChar text
    if more then skipChars fuel rest else return rest

/-- The text after a string whose opening quote was read. -/
def skipString (text : Text) : Except Error Text := skipChars (text.length + 1) text

end SceneDowngrade.Json
