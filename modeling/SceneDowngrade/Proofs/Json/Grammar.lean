import Mathlib.Data.List.Forall2
import SceneDowngrade.Text.Basic

/-!
# The texts of JSON values

Which texts spell a JSON value, told apart from any reader. A value has many texts: white space
stands around every token, and a character of a string is written as itself, by a letter escape or
by its UTF-16 code units in hexadecimal. Code units that are no character cannot be written.
-/
namespace SceneDowngrade.Json

/-- A value. A number is known by its text. -/
inductive Value where
  | null
  | boolean (b : Bool)
  | number (text : Text)
  | string (s : Text)
  | list (items : List Value)
  | object (members : List (Text × Value))

/-- Perhaps empty white space. -/
def Space (text : Text) : Prop := ∀ c ∈ text, c = ' ' ∨ c = '\t' ∨ c = '\n' ∨ c = '\r'

instance (text : Text) : Decidable (Space text) := List.decidableBAll _ text

/-- A hexadecimal digit, in capitals or not, and its value. -/
def HexDigit (c : Char) (n : Nat) : Prop :=
  n < 16 ∧ (c = n.digitChar ∨ c = n.digitChar.toUpper)

instance (c : Char) (n : Nat) : Decidable (HexDigit c n) := inferInstanceAs (Decidable (_ ∧ _))

/-- The escape of a code unit. -/
inductive UnitText : Nat → Text → Prop
  | mk {a b c d : Char} {w x y z : Nat} :
      HexDigit a w → HexDigit b x → HexDigit c y → HexDigit d z →
        UnitText (16 * (16 * (16 * w + x) + y) + z) ['\\', 'u', a, b, c, d]

/-- The UTF-16 code units of a character: one in the basic plane and a pair of surrogates beyond. -/
def codeUnits (c : Char) : List Nat :=
  if c.toNat < 0x10000 then [c.toNat]
  else [0xD800 + (c.toNat - 0x10000) / 0x400, 0xDC00 + (c.toNat - 0x10000) % 0x400]

/-- The letters that may follow a backslash, each with the character that it stands for. -/
def letterEscapes : List (Char × Char) :=
  [('"', '"'), ('\\', '\\'), ('/', '/'), ('b', '\x08'), ('f', '\x0c'), ('n', '\n'), ('r', '\r'),
    ('t', '\t')]

/-- A character in a string. -/
inductive CharText : Char → Text → Prop
  | plain {c : Char} : c ≠ '"' → c ≠ '\\' → 0x20 ≤ c.toNat → CharText c [c]
  | letter {c letter : Char} : (letter, c) ∈ letterEscapes → CharText c ['\\', letter]
  | units {c : Char} {texts : List Text} :
      List.Forall₂ UnitText (codeUnits c) texts → CharText c texts.flatten

/-- A string, between its quotes. -/
inductive StringText : Text → Text → Prop
  | nil : StringText [] []
  | cons {c : Char} {s front back : Text} :
      CharText c front → StringText s back → StringText (c :: s) (front ++ back)

theorem StringText.append {s more text rest : Text} (h : StringText s text)
    (hmore : StringText more rest) : StringText (s ++ more) (text ++ rest) := by
  induction h with
  | nil => exact hmore
  | cons hc _ ih =>
    rw [List.append_assoc]
    exact .cons hc ih

theorem StringText.of_plain {s : Text} (h : ∀ c ∈ s, c ≠ '"' ∧ c ≠ '\\' ∧ 0x20 ≤ c.toNat) :
    StringText s s := by
  induction s with
  | nil => exact .nil
  | cons c s ih =>
    obtain ⟨⟨hquote, hslash, hc⟩, hs⟩ := List.forall_mem_cons.1 h
    exact .cons (.plain hquote hslash hc) (ih hs)

/-- One or more digits. -/
def Digits (text : Text) : Prop := text ≠ [] ∧ ∀ c ∈ text, c.isDigit = true

instance (text : Text) : Decidable (Digits text) :=
  have : Decidable (∀ c ∈ text, c.isDigit = true) := List.decidableBAll _ text
  inferInstanceAs (Decidable (_ ∧ _))

/-- Digits that begin with zero only if they are a zero. -/
def WholeText (text : Text) : Prop := Digits text ∧ (text.head? = some '0' → text = ['0'])

instance (text : Text) : Decidable (WholeText text) := inferInstanceAs (Decidable (_ ∧ _))

inductive FractionText : Text → Prop
  | none : FractionText []
  | some {digits : Text} : Digits digits → FractionText ('.' :: digits)

inductive PowerText : Text → Prop
  | none : PowerText []
  | some {mark : Char} {sign digits : Text} :
      mark = 'e' ∨ mark = 'E' → sign ∈ [[], ['+'], ['-']] → Digits digits →
        PowerText (mark :: (sign ++ digits))

inductive NumberText : Text → Prop
  | mk {sign whole fraction power : Text} :
      sign ∈ [[], ['-']] → WholeText whole → FractionText fraction → PowerText power →
        NumberText (sign ++ (whole ++ (fraction ++ power)))

/-- What a phrase of a JSON text stands for. An element is a value with the white space around
it. -/
inductive Phrase where
  | value (value : Value)
  | element (value : Value)
  | elements (items : List Value)
  | member (member : Text × Value)
  | members (members : List (Text × Value))

/-- The text spells the phrase. -/
inductive Spells : Phrase → Text → Prop
  | null : Spells (.value .null) "null".toList
  | true : Spells (.value (.boolean true)) "true".toList
  | false : Spells (.value (.boolean false)) "false".toList
  | number {text : Text} : NumberText text → Spells (.value (.number text)) text
  | string {s text : Text} :
      StringText s text → Spells (.value (.string s)) ('"' :: (text ++ ['"']))
  | emptyList {space : Text} : Space space → Spells (.value (.list [])) ('[' :: (space ++ [']']))
  | list {items : List Value} {text : Text} :
      Spells (.elements items) text → Spells (.value (.list items)) ('[' :: (text ++ [']']))
  | emptyObject {space : Text} :
      Space space → Spells (.value (.object [])) ('\x7b' :: (space ++ ['\x7d']))
  | object {members : List (Text × Value)} {text : Text} :
      Spells (.members members) text →
        Spells (.value (.object members)) ('\x7b' :: (text ++ ['\x7d']))
  | element {value : Value} {before text after : Text} :
      Space before → Spells (.value value) text → Space after →
        Spells (.element value) (before ++ (text ++ after))
  | lastElement {value : Value} {text : Text} :
      Spells (.element value) text → Spells (.elements [value]) text
  | nextElement {value : Value} {items : List Value} {text rest : Text} :
      Spells (.element value) text → Spells (.elements items) rest →
        Spells (.elements (value :: items)) (text ++ ',' :: rest)
  | member {name : Text} {value : Value} {before written after text : Text} :
      Space before → StringText name written → Space after → Spells (.element value) text →
        Spells (.member (name, value)) (before ++ '"' :: (written ++ '"' :: (after ++ ':' :: text)))
  | lastMember {member : Text × Value} {text : Text} :
      Spells (.member member) text → Spells (.members [member]) text
  | nextMember {member : Text × Value} {members : List (Text × Value)} {text rest : Text} :
      Spells (.member member) text → Spells (.members members) rest →
        Spells (.members (member :: members)) (text ++ ',' :: rest)

end SceneDowngrade.Json
