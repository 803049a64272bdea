import SceneDowngrade.Text.Basic

/-!
# Terminal control sequences

Text for a terminal may hold control sequences, which begin with the escape character. Shown as
plain text, it loses them, and with them every control character but the tab, the line feed, the
form feed and the carriage return. A control string goes on until it is
ended, whatever stands in it.
-/
namespace SceneDowngrade

inductive ControlMode where
  | ground
  | escape
  | escapeIntermediate
  | sequence
  | operatingSystemCommand
  | string
  | deviceEntry
  | deviceParameter
  | deviceIntermediate
  | deviceIgnored
  | deviceString
  deriving DecidableEq, Repr

namespace ControlMode

def isBetween (c : Char) (low high : Nat) : Bool := low ≤ c.toNat && c.toNat ≤ high

/-- Whether the encoding of the character holds the byte that ends a control string. -/
def endsString (c : Char) : Bool := (Text.bytes [c]).toList.contains 0x9C

/-- The mode after a character of a device control string before its data. -/
def afterDevice (mode final : ControlMode) (c : Char) : ControlMode :=
  if isBetween c 0x20 0x2F then .deviceIntermediate
  else if isBetween c 0x30 0x3F then final
  else if isBetween c 0x40 0x7E then .deviceString
  else mode

/-- The mode after a character that follows the escape character. -/
def afterEscape (c : Char) : ControlMode :=
  if isBetween c 0x20 0x2F then .escapeIntermediate
  else if c = '[' then .sequence
  else if c = ']' then .operatingSystemCommand
  else if c = 'P' then .deviceEntry
  else if c = 'X' || c = '^' || c = '_' then .string
  else if isBetween c 0x30 0x7E then .ground
  else .escape

/-- The mode after a character that neither begins nor cancels a sequence. -/
def step (mode : ControlMode) (c : Char) : ControlMode :=
  match mode with
  | .ground => .ground
  | .escape => afterEscape c
  | .escapeIntermediate => if isBetween c 0x30 0x7E then .ground else mode
  | .sequence => if isBetween c 0x40 0x7E then .ground else mode
  | .operatingSystemCommand => if c = '\x07' then .ground else mode
  | .string | .deviceString | .deviceIgnored => if endsString c then .ground else mode
  | .deviceEntry => afterDevice mode .deviceParameter c
  | .deviceParameter =>
    afterDevice mode (if isBetween c 0x30 0x3B then .deviceParameter else .deviceIgnored) c
  | .deviceIntermediate => afterDevice mode .deviceIgnored c

/-- The mode after a character: the escape character begins a sequence wherever it stands, and two
controls cancel it. -/
def next (mode : ControlMode) (c : Char) : ControlMode :=
  if c = '\x1b' then .escape
  else if c = '\x18' || c = '\x1a' then .ground
  else mode.step c

/-- The controls that lay out plain text. -/
def isLayout (c : Char) : Bool := c = '\t' || c = '\n' || c = '\x0c' || c = '\r'

def isShown (c : Char) : Bool := isBetween c 0x20 0x7E || 0x80 ≤ c.toNat || isLayout c

/-- Whether a character is shown in this mode. Outside of control strings layout always is. -/
def shows (mode : ControlMode) (c : Char) : Bool :=
  match mode with
  | .ground => isShown c
  | .escape | .escapeIntermediate | .sequence => isLayout c
  | _ => false

end ControlMode

namespace Text

/-- What is shown of a text from a mode on. Once a character has been shown, all that plain text
shows follows; only then does an unfinished sequence go on. -/
def shownFrom (mode : ControlMode) (showing : Bool) : Text → Text
  | [] => []
  | c :: rest =>
    if showing && ControlMode.isShown c then
      c :: shownFrom (if c.toNat < 0x80 then mode else .ground) true rest
    else if mode.shows c then c :: shownFrom (mode.next c) true rest
    else shownFrom (mode.next c) false rest

def shown (text : Text) : Text := shownFrom .ground false text

end Text

end SceneDowngrade
