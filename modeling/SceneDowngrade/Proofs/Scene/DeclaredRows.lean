import Mathlib.Data.List.Nodup
import SceneDowngrade.Proofs.Scene.Fields
import SceneDowngrade.Proofs.Scene.LineKinds

/-!
# Declarations in the output

A declaration that is a row of quoted attributes is a row again in the output. The `uid` is not in
it, the `id` is a bare numeral, and every other field has its value with the older texture type and
with the presets expanded that the line below sets off.
-/
namespace SceneDowngrade.Scene

open Text

namespace Attribute

def field (attr : Attribute) : Field := ⟨attr.name, .quoted attr.value⟩

/-- The field in a downgraded declaration, where `number` stands for the id. -/
def numberedField (number : Nat) (attr : Attribute) : Field :=
  if attr.name = idName then ⟨idName, .bare (numeral number)⟩ else attr.field

@[simp] theorem name_field (attr : Attribute) : attr.field.name = attr.name := rfl

@[simp] theorem name_numberedField (number : Nat) (attr : Attribute) :
    (attr.numberedField number).name = attr.name := by
  by_cases h : attr.name = idName <;> simp [numberedField, h]

theorem text_field (attr : Attribute) : attr.field.text = attr.text := by
  simp [text_eq, field, Field.text, FieldValue.text]

theorem text_numberedField (number : Nat) (attr : Attribute) :
    (attr.numberedField number).text = attr.numbered number := by
  by_cases h : attr.name = idName
  · rw [numberedField, numbered, if_pos h, if_pos h]
    rfl
  · rw [numberedField, numbered, if_neg h, if_neg h, text_field]

theorem Regular.field {attr : Attribute} (h : attr.Regular) : attr.field.Written :=
  ⟨⟨h.name, h.quote⟩, fun _ he => by cases he⟩

theorem Regular.numberedField {attr : Attribute} (h : attr.Regular) (number : Nat) :
    (attr.numberedField number).Written := by
  by_cases hid : attr.name = idName
  · rw [Attribute.numberedField, if_pos hid]
    have hdigits : ∀ c ∈ numeral number, isTokenChar c = true := by
      intro c hc
      have hdigit : c.isDigit = true := Nat.isDigit_of_mem_toDigits (by decide) (by decide) hc
      simp [isTokenChar, Char.isAlphanum, hdigit]
    have hname : ∀ c ∈ idName, isNameChar c = true := by decide
    exact ⟨⟨hname, hdigits⟩, fun token he => ⟨number, (FieldValue.bare.inj he).symm⟩⟩
  · rw [Attribute.numberedField, if_neg hid]
    exact h.field

end Attribute

theorem declarationText_eq_rowText (attributes : List Attribute) :
    declarationText attributes = rowText (attributes.map Attribute.field) := by
  simp only [declarationText, attributesText, rowText, fieldsText, List.flatMap_map,
    Attribute.text_field]

/-- The fields of a downgraded declaration, where `number` stands for the id. -/
def writtenFields (number : Nat) (attributes : List Attribute) : List Field :=
  (olderAttributes attributes).map (Attribute.numberedField number)

theorem rowText_writtenFields (number : Nat) (attributes : List Attribute) :
    rowText (writtenFields number attributes) =
      extResourceMarker ++
        ((olderAttributes attributes).flatMap (Attribute.numbered number) ++ [']']) := by
  simp only [rowText, fieldsText, writtenFields, List.flatMap_map, Attribute.text_numberedField]

/-- The rules that the line below `raw` sets off. -/
def rulesBelow (above : List Text) (raw : Text) (below : List Text) : List AnchorRule :=
  firstRules (firstPass ((ResourceTable.afterLines {} above).afterLine raw) raw below)

theorem rulesBelow_subset (above : List Text) (raw : Text) (below : List Text) :
    rulesBelow above raw below ⊆ anchorRules := firstRules_subset _

theorem settledLine_of_extResource {raw : Text} (hkind : LineKind.ofTrimmed raw.trim = .extResource)
    (header : Text) (above below : List Text) :
    settledLine header above raw below =
      expandEach (rulesBelow above raw below)
        ((ResourceTable.afterLines {} above).declare raw.trim).line := by
  simp [settledLine, rulesBelow, expandEach, Draft.settled, Draft.renamed, Draft.rules,
    Draft.ofLine, hkind]

theorem kind_of_declarationText {raw : Text} {attributes : List Attribute}
    (h : raw.trim = declarationText attributes) :
    LineKind.ofTrimmed raw.trim = .extResource := by
  rw [ofTrimmed_eq_extResource_iff, h]
  exact List.prefix_append _ _

section
variable {attributes : List Attribute}

theorem written_writtenFields (h : ∀ attr ∈ attributes, attr.Regular) (number : Nat) :
    ∀ field ∈ writtenFields number attributes, field.Written := by
  intro field hfield
  obtain ⟨attr, hattr, rfl⟩ := List.mem_map.1 hfield
  obtain ⟨source, hsource, rfl⟩ := exists_of_mem_olderAttributes hattr
  exact (h source hsource).older.numberedField number

theorem Declares.declare_line_eq_rowText {id : Text} (h : Declares attributes id)
    (table : ResourceTable) :
    (table.declare (declarationText attributes)).line =
      rowText (writtenFields (table.assign (olderValue id)).number attributes) := by
  rw [h.declare_line, rowText_writtenFields, olderValue]

theorem declaredId?_of_no_id (h : ∀ attr ∈ attributes, attr.Regular)
    (hid : ∀ attr ∈ attributes, attr.name ≠ idName) :
    declaredId? (plainDeclaration (declarationText attributes)) = none := by
  have holder : ∀ attr ∈ olderAttributes attributes, attr.Regular ∧ attr.name ≠ idName := by
    intro attr hattr
    obtain ⟨source, hsource, rfl⟩ := exists_of_mem_olderAttributes hattr
    exact ⟨(h source hsource).older, hid source hsource⟩
  have hspan : idAttribute = quotedAttribute idName := rfl
  rw [plainDeclaration_declarationText h, declaredId?, hspan, declarationText,
    QuotedSpan.runs_append_of_not_startsIn (not_startsIn_marker _),
    runs_attributesText (by decide) fun attr hattr => ⟨(holder attr hattr).1,
      (holder attr hattr).1.id⟩,
    List.filter_eq_nil_iff.2 fun attr hattr => by simpa using (holder attr hattr).2]
  rfl

/-- Without an `id` there is no numeral, and the number does not matter. -/
theorem declare_line_of_no_id (h : ∀ attr ∈ attributes, attr.Regular)
    (hid : ∀ attr ∈ attributes, attr.name ≠ idName) (table : ResourceTable) (number : Nat) :
    (table.declare (declarationText attributes)).line =
      rowText (writtenFields number attributes) := by
  have hfields : writtenFields number attributes =
      (olderAttributes attributes).map Attribute.field :=
    List.map_congr_left fun attr hattr => by
      obtain ⟨source, hsource, rfl⟩ := exists_of_mem_olderAttributes hattr
      have hname : source.older.name ≠ idName := hid source hsource
      rw [Attribute.numberedField, if_neg hname]
  rw [ResourceTable.declare, declaredId?_of_no_id h hid, hfields, ← declarationText_eq_rowText,
    plainDeclaration_declarationText h]

/-- Of attributes with different names one at most is the id. -/
theorem declares_of_mem (h : ∀ attr ∈ attributes, attr.Regular)
    (hnames : (attributes.map (·.name)).Nodup) {id : Text}
    (hid : (⟨idName, id⟩ : Attribute) ∈ attributes) : Declares attributes id := by
  have honly : ∀ attr ∈ attributes,
      decide (attr.name = idName) = (attr == (⟨idName, id⟩ : Attribute)) := by
    intro attr hmem
    rw [Bool.eq_iff_iff, decide_eq_true_iff, beq_iff_eq]
    exact ⟨fun hname => List.inj_on_of_nodup_map hnames hmem hid hname, fun he => he ▸ rfl⟩
  refine ⟨h, ?_⟩
  rw [List.filter_congr honly, List.filter_beq, List.count_eq_one_of_mem (.of_map _ hnames) hid]
  rfl

variable {raw : Text}

theorem fieldsOn_settledLine (h : ∀ attr ∈ attributes, attr.Regular)
    (hraw : raw.trim = declarationText attributes) {above : List Text} {number : Nat}
    (hline : ((ResourceTable.afterLines {} above).declare (declarationText attributes)).line =
      rowText (writtenFields number attributes))
    (header : Text) (below : List Text) :
    fieldsOn (settledLine header above raw below) =
      (writtenFields number attributes).map (.edit (expandEach (rulesBelow above raw below))) := by
  obtain ⟨hrow, hwritten⟩ := expandEach_rowText (rulesBelow_subset above raw below)
    (written_writtenFields h number)
  rw [settledLine_of_extResource (kind_of_declarationText hraw), hraw, hline, hrow]
  exact fieldsOn_rowText fun field hfield => (hwritten field hfield).toRegular

theorem fieldOn?_of_declare_line (h : ∀ attr ∈ attributes, attr.Regular)
    (hraw : raw.trim = declarationText attributes) {above : List Text} {number : Nat}
    (hline : ((ResourceTable.afterLines {} above).declare (declarationText attributes)).line =
      rowText (writtenFields number attributes))
    (name header : Text) (below : List Text) :
    fieldOn? name (settledLine header above raw below) =
      ((olderAttributes attributes).find? (·.name = name)).map fun attr =>
        ((attr.numberedField number).edit (expandEach (rulesBelow above raw below))).value := by
  have hname : (fun field : Field => decide (field.name = name)) ∘
      Field.edit (expandEach (rulesBelow above raw below)) ∘ Attribute.numberedField number =
        fun attr => decide (attr.name = name) := by
    funext attr
    simp [Field.edit]
  rw [fieldOn?, fieldsOn_settledLine h hraw hline, writtenFields, List.map_map, List.find?_map,
    hname, Option.map_map]
  rfl

/-- The numeral in the output is the one that the table has for the id. -/
theorem Declares.fieldOn?_id {id : Text} (h : Declares attributes id)
    (hraw : raw.trim = declarationText attributes) (header : Text) (above below : List Text) :
    fieldOn? idName (settledLine header above raw below) =
      some (.bare (numeral
        ((ResourceTable.afterLines {} above).assign (olderValue id)).number)) := by
  rw [fieldOn?_of_declare_line h.regular hraw (h.declare_line_eq_rowText _),
    ← List.head?_filter, h.older.ids]
  rfl

theorem fieldOn?_declarationText (h : ∀ attr ∈ attributes, attr.Regular) (name : Text) :
    fieldOn? name (declarationText attributes) =
      (attributes.find? (·.name = name)).map fun attr => .quoted attr.value := by
  have hregular : ∀ field ∈ attributes.map Attribute.field, field.Regular := by
    intro field hfield
    obtain ⟨attr, hattr, rfl⟩ := List.mem_map.1 hfield
    exact (h attr hattr).field.toRegular
  rw [fieldOn?, declarationText_eq_rowText, fieldsOn_rowText hregular, List.find?_map,
    Option.map_map]
  rfl

theorem exists_declare_line (h : ∀ attr ∈ attributes, attr.Regular)
    (hnames : (attributes.map (·.name)).Nodup) (table : ResourceTable) :
    ∃ number, (table.declare (declarationText attributes)).line =
      rowText (writtenFields number attributes) := by
  by_cases hid : ∃ attr ∈ attributes, attr.name = idName
  · obtain ⟨⟨name, value⟩, hattr, rfl⟩ := hid
    exact ⟨_, (declares_of_mem h hnames hattr).declare_line_eq_rowText table⟩
  · push Not at hid
    exact ⟨0, declare_line_of_no_id h hid table 0⟩

/-- Every field but the two identifiers is kept, with its value edited. -/
theorem fieldOn?_settledLine (h : ∀ attr ∈ attributes, attr.Regular)
    (hnames : (attributes.map (·.name)).Nodup) (hraw : raw.trim = declarationText attributes)
    {name : Text} (hid : name ≠ idName) (huid : name ≠ uidName) (header : Text)
    (above below : List Text) :
    fieldOn? name (settledLine header above raw below) =
      (fieldOn? name raw.trim).map
        (.edit fun value => expandEach (rulesBelow above raw below) (olderValue value)) := by
  obtain ⟨number, hline⟩ := exists_declare_line h hnames (.afterLines {} above)
  have hfind : (olderAttributes attributes).find? (·.name = name) =
      (attributes.find? (·.name = name)).map .older := by
    rw [olderAttributes, List.find?_filter, List.find?_map]
    congr 2
    funext attr
    have holder : attr.older.name = attr.name := rfl
    by_cases he : attr.name = name
    · simp [holder, he, huid]
    · simp [holder, he]
  rw [fieldOn?_of_declare_line h hraw hline, hfind, hraw, fieldOn?_declarationText h]
  cases hattr : attributes.find? (·.name = name) with
  | none => rfl
  | some attr =>
    have hother : attr.older.name ≠ idName := by
      have he : attr.name = name := by simpa using List.find?_some hattr
      exact he ▸ hid
    rw [Option.map_some, Option.map_some, Option.map_some, Attribute.numberedField, if_neg hother]
    rfl

end

/-- A declaration with a preset in its path, and the layout mode that sets it off. -/
def presetPathLines : List Text :=
  ["[ext_resource path=\"res://anchors_preset = 8.png\" id=\"1\"]".toList,
    "layout_mode = 1".toList]

end SceneDowngrade.Scene
