/-!
# Text

Text is a list of characters, so every operation on it is a recursion on a list. Here are the
occurrence test, the left-to-right replacement, the decimal numeral, trimming, and the lines of a
text.
-/
namespace SceneDowngrade

abbrev Text := List Char

/-- A character class is a list of ranges of code points, both ends included. -/
def inRanges (ranges : List (Nat × Nat)) (c : Char) : Bool :=
  ranges.any fun range => range.1 ≤ c.toNat && c.toNat ≤ range.2

/-- The ranges of the property `White_Space`, both ends included. -/
def blankRanges : List (Nat × Nat) :=
  [(0x09, 0x0D), (0x20, 0x20), (0x85, 0x85), (0xA0, 0xA0), (0x1680, 0x1680), (0x2000, 0x200A),
    (0x2028, 0x2029), (0x202F, 0x202F), (0x205F, 0x205F), (0x3000, 0x3000)]

def isBlank (c : Char) : Bool := inRanges blankRanges c

namespace Text

def occursIn (part : Text) : Text → Bool
  | [] => part.isEmpty
  | c :: rest => part.isPrefixOf (c :: rest) || occursIn part rest

/-- Replacement that first passes over `skip` characters of an occurrence already replaced. -/
def replaceFrom (old new : Text) : (skip : Nat) → Text → Text
  | _, [] => []
  | skip + 1, _ :: rest => replaceFrom old new skip rest
  | 0, c :: rest =>
    if old.isPrefixOf (c :: rest) then new ++ replaceFrom old new (old.length - 1) rest
    else c :: replaceFrom old new 0 rest

/-- Every occurrence of the non-empty text `old` gives way to `new`; occurrences are taken from the
left and do not overlap, and the replacements are not searched again. -/
def replaceAll (text old new : Text) : Text := replaceFrom old new 0 text

/-- Replacements made one after another on the whole text. -/
def replaceEach (text : Text) (pairs : List (Text × Text)) : Text :=
  pairs.foldl (fun text pair => text.replaceAll pair.1 pair.2) text

def numeral (n : Nat) : Text := Nat.toDigits 10 n

def bytes (text : Text) : ByteArray := (String.ofList text).toUTF8

/-- The text written by the bytes, if they are valid UTF-8. -/
def ofBytes? (data : ByteArray) : Option Text := (String.fromUTF8? data).map String.toList

def byteLength (text : Text) : Nat := text.foldl (fun total c => total + c.utf8Size) 0

/-! ## Trimming -/

def trimStart (text : Text) : Text := text.dropWhile isBlank

def trimEnd (text : Text) : Text := (text.reverse.dropWhile isBlank).reverse

/-- The text without the blank characters at its two ends. -/
def trim (text : Text) : Text := text.trimStart.trimEnd

/-! ## Lines

A line ends at LF, at CR LF or at a lone CR. The text after the last terminator is a line only if it
is not empty. -/

def unifyNewlines (text : Text) : Text :=
  (text.replaceAll ['\r', '\n'] ['\n']).map fun c => if c = '\r' then '\n' else c

def dropFinalNewline (text : Text) : Text :=
  if text.getLast? = some '\n' then text.dropLast else text

def lines (text : Text) : List Text :=
  if text.isEmpty then [] else text.unifyNewlines.dropFinalNewline.splitOn '\n'

def ofLines (lines : List Text) : Text := lines.flatMap (· ++ ['\n'])

end Text

end SceneDowngrade
