import SceneDowngrade.Scene.Notice
import SceneDowngrade.Text.QuotedSpan

/-!
# Headers and declarations

A bracketed line holds attributes, each after one space. The quoted `uid` and `id` attributes are
the ones that the older format does without: a header loses its `uid` and names the older format,
and a declaration of an external resource loses its `uid`, names its texture type as the older
format does, and carries a bare numeral for its id.
-/
namespace SceneDowngrade.Scene

/-- An attribute with a quoted value, with the space before it. -/
def quotedAttribute (name : Text) : QuotedSpan := ⟨' ' :: name ++ ['=', '"'], ['"']⟩

def uidAttribute : QuotedSpan := quotedAttribute "uid".toList

def idAttribute : QuotedSpan := quotedAttribute "id".toList

/-! ## The header -/

def newFormat : Text := "format=3".toList

def oldFormat : Text := "format=2".toList

def downgradeHeader (line : Text) : Text :=
  uidAttribute.removeFrom (line.trim.replaceAll newFormat oldFormat)

/-! ## Resource numerals

The older format numbers external resources. The table gives the ids of the newer format their
numerals in order of first sight; entries are only ever added at its end. -/

structure ResourceTable where
  entries : List (Text × Nat) := []
  deriving DecidableEq, Repr

namespace ResourceTable

def size (table : ResourceTable) : Nat := table.entries.length

def isEmpty (table : ResourceTable) : Bool := table.entries.isEmpty

def get? (table : ResourceTable) (id : Text) : Option Nat := table.entries.lookup id

structure Assigned where
  number : Nat
  isNew : Bool
  table : ResourceTable
  deriving DecidableEq, Repr

/-- The numeral of `id`, which is the next free one if the id has none yet. -/
def assign (table : ResourceTable) (id : Text) : Assigned :=
  match table.get? id with
  | some number => ⟨number, false, table⟩
  | none => ⟨table.size + 1, true, ⟨table.entries ++ [(id, table.size + 1)]⟩⟩

end ResourceTable

/-! ## Declarations -/

/-- The line with the older texture type and without `uid`; the id is read from it. -/
def plainDeclaration (line : Text) : Text :=
  uidAttribute.removeFrom (line.replaceAll "Texture2D".toList "Texture".toList)

def declaredId? (line : Text) : Option Text := (idAttribute.runs line).head?

def numberAttribute (number : Nat) : Text := " id=".toList ++ Text.numeral number

/-- A declaration for the older format, the table with its id, and the one notice about it. -/
structure Declared where
  line : Text
  table : ResourceTable
  notice : Notice
  deriving DecidableEq, Repr

/-- Downgrade a declaration and enter its id; a line without a quoted id enters nothing. -/
def ResourceTable.declare (table : ResourceTable) (line : Text) : Declared :=
  let plain := plainDeclaration line
  match declaredId? plain with
  | none => ⟨plain, table, .withoutId plain⟩
  | some id =>
    let assigned := table.assign id
    let notice : Notice :=
      if assigned.isNew then .numbered id assigned.number else .duplicate id assigned.number
    ⟨plain.replaceAll (idAttribute.around id) (numberAttribute assigned.number), assigned.table,
      notice⟩

end SceneDowngrade.Scene
