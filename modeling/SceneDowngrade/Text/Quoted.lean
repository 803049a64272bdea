import SceneDowngrade.Text.Basic
import SceneDowngrade.Text.Invisible

/-!
# Quoted text

Messages name an id in double quotes. Inside, the quote, the backslash and four controls have short
escapes, and every character that could not be seen is written by its code point in hexadecimal.
-/
namespace SceneDowngrade.Text

def isInvisible (c : Char) : Bool :=
  (isBlank c && c ≠ ' ') || inRanges controlRanges c || inRanges formatRanges c ||
    inRanges privateRanges c || inRanges unassignedRanges c || inRanges ignorableRanges c ||
    inRanges extendingRanges c

/-- The escape by code point, in lower case and without leading zeros. -/
def codePointEscape (c : Char) : Text :=
  ['\\', 'u', '\x7b'] ++ Nat.toDigits 16 c.toNat ++ ['\x7d']

def escaped (c : Char) : Text :=
  match c with
  | '\x00' => ['\\', '0']
  | '\t' => ['\\', 't']
  | '\r' => ['\\', 'r']
  | '\n' => ['\\', 'n']
  | '"' => ['\\', '"']
  | '\\' => ['\\', '\\']
  | c => if isInvisible c then codePointEscape c else [c]

def quoted (text : Text) : Text := '"' :: text.flatMap escaped ++ ['"']

end SceneDowngrade.Text
