import SceneDowngrade.Proofs.Scene.DeclaredRows

/-!
# Declarations field by field

A declaration whose attributes have different names is downgraded as if it were parsed: each
attribute becomes a field of its own or is dropped, in the order of the line. The table gets the
value of the `id` and nothing else.
-/
namespace SceneDowngrade.Scene

open Text

def typeName : Text := "type".toList

/-- The field of the older format for an attribute: none for the `uid`, the numeral that the table
assigns for the `id`, and the older texture type. -/
def Attribute.olderField? (table : ResourceTable) (attr : Attribute) : Option Field :=
  if attr.name = uidName then none
  else if attr.name = idName then
    some ⟨idName, .bare (numeral (table.assign attr.value).number)⟩
  else if attr.name = typeName then some ⟨typeName, .quoted (olderValue attr.value)⟩
  else some attr.field

/-- A row of attributes with different names. None but the type may have the newer texture type in
it. -/
structure PlainRow (attributes : List Attribute) : Prop where
  regular : ∀ attr ∈ attributes, attr.Regular
  names : (attributes.map (·.name)).Nodup
  texture : ∀ attr ∈ attributes, attr.name ≠ typeName → ¬ "Texture2D".toList <:+: attr.value

namespace PlainRow

variable {attributes : List Attribute} {id : Text}

theorem olderValue_eq (h : PlainRow attributes) {attr : Attribute} (hattr : attr ∈ attributes)
    (hname : attr.name ≠ typeName) : olderValue attr.value = attr.value :=
  replaceAll_of_not_isInfix (h.texture attr hattr hname)

theorem olderValue_id (h : PlainRow attributes) (hid : (⟨idName, id⟩ : Attribute) ∈ attributes) :
    olderValue id = id :=
  have hname : idName ≠ typeName := by decide
  h.olderValue_eq hid hname

theorem olderField?_eq (h : PlainRow attributes) {attr : Attribute} (hattr : attr ∈ attributes)
    {table : ResourceTable} {number : Nat}
    (hnumber : attr.name = idName → number = (table.assign attr.value).number) :
    attr.olderField? table =
      if attr.name = uidName then none else some (attr.older.numberedField number) := by
  have hsame : attr.older.name = attr.name := rfl
  rw [Attribute.olderField?, Attribute.numberedField, hsame]
  split_ifs with huid hid htype
  · rfl
  · rw [hnumber hid]
  · rw [← htype]
    rfl
  · have hvalue := h.olderValue_eq hattr htype
    rw [olderValue] at hvalue
    rw [Attribute.field, Attribute.field, Attribute.older, hvalue]

theorem writtenFields_eq (h : PlainRow attributes) {table : ResourceTable} {number : Nat}
    (hnumber : ∀ attr ∈ attributes, attr.name = idName →
      number = (table.assign attr.value).number) :
    writtenFields number attributes = attributes.filterMap (·.olderField? table) := by
  have hfields : ∀ attr ∈ attributes, attr.olderField? table =
      if attr.name = uidName then none else some (attr.older.numberedField number) :=
    fun attr hattr => h.olderField?_eq hattr (hnumber attr hattr)
  clear hnumber h
  rw [writtenFields, olderAttributes]
  induction attributes with
  | nil => rfl
  | cons attr attributes ih =>
    obtain ⟨hattr, hrest⟩ := List.forall_mem_cons.1 hfields
    have hsame : attr.older.name = attr.name := rfl
    rw [List.filterMap_cons, hattr, ← ih hrest, List.map_cons]
    by_cases huid : attr.name = uidName
    · simp [huid, hsame]
    · simp [huid, hsame]

theorem declare_line (h : PlainRow attributes) (table : ResourceTable) :
    (table.declare (declarationText attributes)).line =
      rowText (attributes.filterMap (·.olderField? table)) := by
  by_cases hid : ∃ attr ∈ attributes, attr.name = idName
  · obtain ⟨⟨name, id⟩, hattr, rfl⟩ := hid
    have hdeclares := declares_of_mem h.regular h.names hattr
    rw [hdeclares.declare_line_eq_rowText, h.olderValue_id hattr]
    refine congrArg rowText (h.writtenFields_eq fun attr hmem hname => ?_)
    rw [hdeclares.value_eq hmem hname]
  · push Not at hid
    rw [declare_line_of_no_id h.regular hid table 0]
    exact congrArg rowText (h.writtenFields_eq fun attr hmem hname => absurd hname (hid attr hmem))

theorem declare_table (h : PlainRow attributes) (hid : (⟨idName, id⟩ : Attribute) ∈ attributes)
    (table : ResourceTable) :
    (table.declare (declarationText attributes)).table = (table.assign id).table := by
  have hdeclared := (declares_of_mem h.regular h.names hid).declaredId?_eq
  rw [← olderValue, h.olderValue_id hid] at hdeclared
  rw [ResourceTable.table_declare, hdeclared, Option.map_some, Option.getD_some]

theorem declare_table_of_no_id (h : PlainRow attributes)
    (hid : ∀ attr ∈ attributes, attr.name ≠ idName) (table : ResourceTable) :
    (table.declare (declarationText attributes)).table = table := by
  rw [ResourceTable.table_declare, declaredId?_of_no_id h.regular hid, Option.map_none,
    Option.getD_none]

end PlainRow

/-- A declaration is downgraded attribute by attribute. The table gets the value of its `id`, or
stays as it is if there is none. -/
theorem declare_attributes {attributes : List Attribute}
    (hregular : ∀ attr ∈ attributes, attr.Regular) (hnames : (attributes.map (·.name)).Nodup)
    (htexture : ∀ attr ∈ attributes, attr.name ≠ typeName → ¬ "Texture2D".toList <:+: attr.value)
    (table : ResourceTable) :
    let declared := table.declare (declarationText attributes)
    declared.line = rowText (attributes.filterMap (·.olderField? table)) ∧
      (∀ id, (⟨idName, id⟩ : Attribute) ∈ attributes →
        declared.table = (table.assign id).table) ∧
      ((∀ attr ∈ attributes, attr.name ≠ idName) → declared.table = table) := by
  have h : PlainRow attributes := ⟨hregular, hnames, htexture⟩
  exact ⟨h.declare_line table, fun id hid => h.declare_table hid table,
    fun hid => h.declare_table_of_no_id hid table⟩

/-- The `uid` stands right before the `id`, and a value looks like a row of its own. -/
def iconAttributes : List Attribute :=
  [⟨"path".toList, "res://a b/uid=1] id.png".toList⟩, ⟨uidName, "uid://x".toList⟩,
    ⟨idName, "7_c".toList⟩, ⟨typeName, "CompressedTexture2D".toList⟩]

def oneEntryTable : ResourceTable := ⟨[("1_a".toList, 1)]⟩

theorem declare_attributes_icon :
    (∀ attr ∈ iconAttributes, attr.Regular) ∧ (iconAttributes.map (·.name)).Nodup ∧
      (∀ attr ∈ iconAttributes,
        attr.name ≠ typeName → ¬ "Texture2D".toList <:+: attr.value) ∧
      (oneEntryTable.declare (declarationText iconAttributes)).line =
        "[ext_resource path=\"res://a b/uid=1] id.png\" id=2 type=\"CompressedTexture\"]".toList ∧
      (oneEntryTable.declare (declarationText iconAttributes)).table =
        ⟨[("1_a".toList, 1), ("7_c".toList, 2)]⟩ := by
  have hregular : ∀ attr ∈ iconAttributes, attr.Regular := by decide +kernel
  have hnames : (iconAttributes.map (·.name)).Nodup := by decide
  have htexture : ∀ attr ∈ iconAttributes,
      attr.name ≠ typeName → ¬ "Texture2D".toList <:+: attr.value := by decide +kernel
  obtain ⟨hline, htable, -⟩ := declare_attributes hregular hnames htexture oneEntryTable
  refine ⟨hregular, hnames, htexture, hline.trans (by decide +kernel), ?_⟩
  exact (htable "7_c".toList (by decide)).trans (by decide +kernel)

end SceneDowngrade.Scene
