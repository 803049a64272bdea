import SceneDowngrade.Scene.Declaration

/-!
# Property lines

References on a property line take the numerals of the table, and the newer names on it give way to
the older ones.
-/
namespace SceneDowngrade.Scene

/-- A reference to an external resource by its quoted id. -/
def quotedReference : QuotedSpan := ⟨"ExtResource(\"".toList, "\")".toList⟩

/-- A reference to an external resource by its numeral. -/
def numberedReference (number : Nat) : Text :=
  "ExtResource( ".toList ++ Text.numeral number ++ " )".toList

/-- The line with the references to every id of the table by numeral, one entry after another. -/
def numberReferences (table : ResourceTable) (line : Text) : Text :=
  line.replaceEach
    (table.entries.map fun entry => (quotedReference.around entry.1, numberedReference entry.2))

/-- The ids that the line still refers to by name, repeats included. -/
def danglingIds (line : Text) : List Text := quotedReference.runs line

def danglingNotices (line : Text) : List Notice := (danglingIds line).map .undeclared

/-- The newer names on property lines, each with the older one. -/
def tokenRenames : List (Text × Text) :=
  [("Sprite2D".toList, "Sprite".toList),
    ("theme_override_constants".toList, "custom_constants".toList),
    ("theme_override_font_sizes".toList, "custom_font_sizes".toList),
    ("horizontal_alignment".toList, "align".toList),
    ("vertical_alignment".toList, "valign".toList),
    ("Array[Texture2D]".toList, "Array".toList)]

def renameTokens (line : Text) : Text := line.replaceEach tokenRenames

end SceneDowngrade.Scene
