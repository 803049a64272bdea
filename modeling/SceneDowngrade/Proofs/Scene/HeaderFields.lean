import SceneDowngrade.Proofs.Scene.Fields
import SceneDowngrade.Scene.Declaration

/-!
# The header field by field

A header is its kind and its fields. The downgrade replaces the newer format wherever it is written
and cuts out what looks like a quoted `uid`. In a header whose fields can be told apart this drops
the `uid` fields, gives the older format for the newer one, and keeps every other field. A second
downgrade finds nothing left to do.
-/
namespace SceneDowngrade.Scene

open Text

def headerText (kind : Text) (fields : List Field) : Text := '[' :: (kind ++ fieldsText fields)

def formatName : Text := "format".toList

def newFormatField : Field := ⟨formatName, .bare ['3']⟩

def oldFormatField : Field := ⟨formatName, .bare ['2']⟩

namespace FieldValue

/-- A quoted value has nothing in it that looks like a `uid`. -/
def LacksUid : FieldValue → Prop
  | quoted run => ¬ ' ' :: (uidName ++ ['=']) <:+: run
  | bare _ => True

instance : (value : FieldValue) → Decidable value.LacksUid
  | quoted _ => inferInstanceAs (Decidable (¬ _))
  | bare _ => inferInstanceAs (Decidable True)

instance : (value : FieldValue) → Decidable value.Regular
  | quoted _ => inferInstanceAs (Decidable (¬ _))
  | bare token => inferInstanceAs (Decidable (∀ c ∈ token, isTokenChar c = true))

end FieldValue

namespace Field

/-- The field is a `uid` with a quoted value. -/
def isQuotedUid (field : Field) : Bool :=
  match field.value with
  | .quoted _ => field.name = uidName
  | .bare _ => false

def inOldFormat (field : Field) : Field := if field = newFormatField then oldFormatField else field

/-- The field can be told apart: the newer format is in it only if it is the whole of it, and no
quoted value looks like a `uid`. -/
structure Distinct (field : Field) : Prop extends field.Regular where
  format : newFormat <:+: field.text → field = newFormatField
  uid : field.value.LacksUid

instance (field : Field) : Decidable field.Distinct :=
  decidable_of_iff
    ((∀ c ∈ field.name, isNameChar c = true) ∧ field.value.Regular ∧
      (newFormat <:+: field.text → field = newFormatField) ∧ field.value.LacksUid)
    ⟨fun ⟨h₁, h₂, h₃, h₄⟩ => ⟨⟨h₁, h₂⟩, h₃, h₄⟩, fun ⟨⟨h₁, h₂⟩, h₃, h₄⟩ => ⟨h₁, h₂, h₃, h₄⟩⟩

end Field

/-- The fields of the header that the downgrade makes of one with these fields. -/
def olderHeaderFields (fields : List Field) : List Field :=
  (fields.map .inOldFormat).filter fun field => !field.isQuotedUid

section
variable {kind : Text} {fields : List Field}

theorem trimmed_headerText (kind : Text) (fields : List Field) :
    (headerText kind fields).Trimmed := by
  constructor
  · intro c hc
    obtain rfl : '[' = c := by simpa [headerText] using hc
    decide
  · intro c hc
    have hlast : (headerText kind fields).getLast? = some ']' := by
      rw [headerText, fieldsText, ← List.append_assoc, ← List.cons_append,
        List.getLast?_concat]
    obtain rfl := Option.some_inj.1 (hlast.symm.trans hc)
    decide

/-- The newer format has neither the space nor the bracket that stands at the seam. -/
theorem replaceAll_append_fieldsText (front : Text) (fields : List Field) :
    replaceAll (front ++ fieldsText fields) newFormat oldFormat =
      replaceAll front newFormat oldFormat ++
        replaceAll (fieldsText fields) newFormat oldFormat := by
  obtain ⟨c, rest, hfields, hc⟩ := exists_fieldsText_eq_cons fields
  have hnone : c ∉ newFormat := by
    rcases hc with rfl | rfl <;> decide
  have hcut : newFormat.CleanCut front (fieldsText fields) := by
    rw [hfields]
    exact .of_notMem_right hnone
  exact replaceAll_append (by decide) hcut

namespace Field.Distinct

variable {field : Field}

theorem replaceAll_text (h : field.Distinct) :
    replaceAll field.text newFormat oldFormat = field.inOldFormat.text := by
  rw [inOldFormat]
  split_ifs with hnew
  · rw [hnew]
    decide
  · exact replaceAll_of_not_isInfix fun hi => hnew (h.format hi)

theorem not_isInfix_inOldFormat (h : field.Distinct) : ¬ newFormat <:+: field.inOldFormat.text := by
  rw [inOldFormat]
  split_ifs with hnew
  · decide
  · exact fun hi => hnew (h.format hi)

theorem inOldFormat (h : field.Distinct) : field.inOldFormat.Distinct := by
  have hformat := h.not_isInfix_inOldFormat
  rw [Field.inOldFormat] at hformat ⊢
  split_ifs at hformat ⊢ with hnew
  · exact ⟨⟨by decide, by decide⟩, fun hi => absurd hi hformat, trivial⟩
  · exact h

end Field.Distinct

theorem distinct_inOldFormat (h : ∀ field ∈ fields, field.Distinct) :
    ∀ field ∈ fields.map Field.inOldFormat, field.Distinct := by
  intro field hfield
  obtain ⟨source, hsource, rfl⟩ := List.mem_map.1 hfield
  exact (h source hsource).inOldFormat

theorem replaceAll_fieldsText (h : ∀ field ∈ fields, field.Distinct) :
    replaceAll (fieldsText fields) newFormat oldFormat =
      fieldsText (fields.map .inOldFormat) := by
  induction fields with
  | nil => exact replaceAll_of_notMem (c := 'f') (by decide) (by decide)
  | cons field fields ih =>
    obtain ⟨hfield, hfields⟩ := List.forall_mem_cons.1 h
    rw [fieldsText_cons, replaceAll_append_fieldsText, hfield.replaceAll_text, ih hfields,
      List.map_cons, fieldsText_cons]

/-- No `uid` begins in a field with a bare value: its quote would stand where the next field
begins. -/
theorem not_startsIn_bare {name token : Text} (hname : ∀ c ∈ name, isNameChar c = true)
    (htoken : ∀ c ∈ token, isTokenChar c = true) (fields : List Field) :
    ¬ uidAttribute.opening.StartsIn (Field.text ⟨name, .bare token⟩) (fieldsText fields) := by
  have hopening : uidAttribute.opening = ' ' :: (uidName ++ '=' :: ['"']) := rfl
  have hspace : ' ' ∉ name ++ '=' :: token := by
    have hname := notMem_name hname (c := ' ') (by decide)
    have htoken : ' ' ∉ token := fun hm => absurd (htoken ' ' hm) (by decide)
    simp [hname, htoken]
  rintro ⟨tail, hne, hs, hp⟩
  obtain ⟨c, more, rfl⟩ := List.exists_cons_of_ne_nil hne
  rw [hopening, List.cons_append, List.cons_prefix_cons] at hp
  obtain ⟨rfl, hp⟩ := hp
  -- a field has one space, so the `uid` would be the whole field
  rcases List.suffix_cons_iff.1 hs with he | hs
  · obtain rfl : more = name ++ '=' :: token := (List.cons.inj he).2
    obtain ⟨d, rest, hfields, hd⟩ := exists_fieldsText_eq_cons fields
    have hequals : '=' ∉ name := notMem_name hname (by decide)
    rw [List.append_assoc, List.cons_append, append_cons_prefix_iff (by decide) hequals] at hp
    obtain ⟨-, -, hquote⟩ := hp
    rw [hfields] at hquote
    cases token with
    | nil =>
      rw [List.nil_append, List.cons_prefix_cons] at hquote
      obtain ⟨rfl, -⟩ := hquote
      simp at hd
    | cons e token =>
      rw [List.cons_append, List.cons_prefix_cons] at hquote
      obtain ⟨rfl, -⟩ := hquote
      exact absurd (htoken '"' (by simp)) (by decide)
  · exact hspace (hs.mem (by simp))

theorem Field.Distinct.not_startsIn {field : Field} (h : field.Distinct)
    (hother : field.isQuotedUid = false) (fields : List Field) :
    ¬ uidAttribute.opening.StartsIn field.text (fieldsText fields) := by
  obtain ⟨name, value⟩ := field
  cases value with
  | quoted run =>
    obtain ⟨attr, rfl, rfl⟩ : ∃ attr : Attribute, attr.name = name ∧ attr.value = run :=
      ⟨⟨name, run⟩, rfl, rfl⟩
    have hne : attr.name ≠ uidName := by simpa [isQuotedUid] using hother
    have htext : Field.text ⟨attr.name, .quoted attr.value⟩ = attr.text := by
      simp [Attribute.text_eq, Field.text, FieldValue.text]
    have hspan : uidAttribute = quotedAttribute uidName := rfl
    rw [htext, hspan]
    exact not_startsIn_attribute (by decide) h.name h.value h.uid hne _
  | bare token => exact not_startsIn_bare h.name h.value fields

theorem Field.exists_of_isQuotedUid {field : Field} (h : field.isQuotedUid = true) :
    ∃ run, field = ⟨uidName, .quoted run⟩ := by
  obtain ⟨name, value⟩ := field
  cases value with
  | quoted run =>
    obtain rfl : name = uidName := by simpa [isQuotedUid] using h
    exact ⟨run, rfl⟩
  | bare token => cases h

theorem removeFrom_fieldsText (h : ∀ field ∈ fields, field.Distinct) :
    uidAttribute.removeFrom (fieldsText fields) =
      fieldsText (fields.filter fun field => !field.isQuotedUid) := by
  rw [QuotedSpan.removeFrom_eq]
  induction fields with
  | nil =>
    rw [QuotedSpan.substitute, fieldsText_nil,
      QuotedSpan.pieces_of_quote_notMem uidAttribute_delimited (by decide)]
    rfl
  | cons field fields ih =>
    obtain ⟨hfield, hfields⟩ := List.forall_mem_cons.1 h
    cases huid : field.isQuotedUid with
    | true =>
      obtain ⟨run, rfl⟩ := Field.exists_of_isQuotedUid huid
      have htext : Field.text ⟨uidName, .quoted run⟩ = uidAttribute.around run := by
        simp [Field.text, FieldValue.text, uidAttribute, quotedAttribute, QuotedSpan.around,
          uidName]
      rw [fieldsText_cons, htext,
        QuotedSpan.substitute_span uidAttribute_delimited hfield.value, ih hfields,
        List.filter_cons_of_neg (by simp [huid]), List.nil_append]
    | false =>
      rw [fieldsText_cons, QuotedSpan.substitute_append_of_not_startsIn
        (hfield.not_startsIn huid fields), ih hfields, List.filter_cons_of_pos (by simp [huid]),
        fieldsText_cons]

theorem downgradeHeader_headerText (hkind : ∀ c ∈ kind, isNameChar c = true)
    (h : ∀ field ∈ fields, field.Distinct) :
    downgradeHeader (headerText kind fields) = headerText kind (olderHeaderFields fields) := by
  have hequals : '=' ∉ '[' :: kind := by
    have hname := notMem_name hkind (c := '=') (by decide)
    simp [hname]
  have hfront : ¬ uidAttribute.opening.StartsIn ('[' :: kind)
      (fieldsText (fields.map .inOldFormat)) := by
    intro hs
    have hname := notMem_name hkind (c := ' ') (by decide)
    have hmem := hs.head_mem (c := ' ') rfl
    simp [hname] at hmem
  rw [downgradeHeader, trim_of_trimmed (trimmed_headerText kind fields), headerText,
    ← List.cons_append, replaceAll_append_fieldsText, replaceAll_of_notMem (by decide) hequals,
    replaceAll_fieldsText h, QuotedSpan.removeFrom_eq,
    QuotedSpan.substitute_append_of_not_startsIn hfront, ← QuotedSpan.removeFrom_eq,
    removeFrom_fieldsText (distinct_inOldFormat h)]
  rfl

theorem olderHeaderFields_self (h : ∀ field ∈ fields, field.Distinct) :
    olderHeaderFields (olderHeaderFields fields) = olderHeaderFields fields := by
  have hformat : ∀ field ∈ olderHeaderFields fields, field.inOldFormat = field := by
    intro field hfield
    obtain ⟨source, hsource, rfl⟩ := List.mem_map.1 (List.mem_filter.1 hfield).1
    refine if_neg fun hnew => (h source hsource).not_isInfix_inOldFormat ?_
    rw [hnew]
    decide
  have hkept : ∀ field ∈ olderHeaderFields fields, (!field.isQuotedUid) = true :=
    fun field hfield => (List.mem_filter.1 hfield).2
  conv_lhs => rw [olderHeaderFields]
  rw [List.map_congr_left hformat, List.map_id', List.filter_eq_self.2 hkept]

end

/-- A header is downgraded field by field, once and for all. -/
theorem downgradeHeader_fields {line kind : Text} {fields : List Field}
    (hline : line.trim = headerText kind fields) (hkind : ∀ c ∈ kind, isNameChar c = true)
    (h : ∀ field ∈ fields, field.Distinct) :
    downgradeHeader line = headerText kind (olderHeaderFields fields) ∧
      downgradeHeader (downgradeHeader line) = downgradeHeader line := by
  have htrim : downgradeHeader line = downgradeHeader line.trim := by
    rw [downgradeHeader, downgradeHeader, trim_trim]
  have hold : ∀ field ∈ olderHeaderFields fields, field.Distinct := fun field hfield =>
    distinct_inOldFormat h field (List.mem_filter.1 hfield).1
  have honce : downgradeHeader line = headerText kind (olderHeaderFields fields) := by
    rw [htrim, hline, downgradeHeader_headerText hkind h]
  refine ⟨honce, ?_⟩
  rw [honce, downgradeHeader_headerText hkind hold, olderHeaderFields_self h]

/-- `uid` fields at both ends and side by side, a bare one, and values with a bracket and a
`uid`. -/
def themeFields : List Field :=
  [⟨uidName, .quoted ['a']⟩, ⟨uidName, .quoted "b] c".toList⟩,
    ⟨"type".toList, .quoted "A uid".toList⟩, newFormatField, ⟨uidName, .bare "a.3".toList⟩,
    ⟨uidName, .quoted []⟩]

def themeHeader : Text :=
  "\t[gd_resource uid=\"a\" uid=\"b] c\" type=\"A uid\" format=3 uid=a.3 uid=\"\"] ".toList

theorem downgradeHeader_fields_theme :
    themeHeader.trim = headerText "gd_resource".toList themeFields ∧
      (∀ c ∈ "gd_resource".toList, isNameChar c = true) ∧
      (∀ field ∈ themeFields, field.Distinct) ∧
      downgradeHeader themeHeader = "[gd_resource type=\"A uid\" format=2 uid=a.3]".toList ∧
      downgradeHeader (downgradeHeader themeHeader) = downgradeHeader themeHeader := by
  have hline : themeHeader.trim = headerText "gd_resource".toList themeFields := by
    decide +kernel
  have hkind : ∀ c ∈ "gd_resource".toList, isNameChar c = true := by decide
  have hfields : ∀ field ∈ themeFields, field.Distinct := by decide +kernel
  obtain ⟨hfirst, hsecond⟩ := downgradeHeader_fields hline hkind hfields
  exact ⟨hline, hkind, hfields, hfirst.trans (by decide +kernel), hsecond⟩

end SceneDowngrade.Scene
