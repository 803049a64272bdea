import SceneDowngrade.Proofs.Scene.Attributes
import SceneDowngrade.Proofs.Scene.References
import SceneDowngrade.Proofs.Scene.TwoPasses

/-!
# Reading the fields of a line

A downgraded declaration has quoted values and one bare numeral. Its fields are read from the left,
and are those it was written with. The expansion of a preset reaches nothing but the inside of
quoted values, so it changes no name, no numeral and no order.
-/
namespace SceneDowngrade.Scene

open Text

inductive FieldValue where
  | quoted (run : Text)
  | bare (token : Text)
  deriving DecidableEq, Repr

structure Field where
  name : Text
  value : FieldValue
  deriving DecidableEq, Repr

def isTokenChar (c : Char) : Bool := c.isAlphanum || c = '_' || c = '.'

namespace FieldValue

def text : FieldValue → Text
  | quoted run => '"' :: (run ++ ['"'])
  | bare token => token

/-- The value that the text begins with, and the text behind it. -/
def read? : Text → Option (FieldValue × Text)
  | '"' :: rest =>
    match rest.dropWhile (· ≠ '"') with
    | _ :: more => some (quoted (rest.takeWhile (· ≠ '"')), more)
    | [] => none
  | rest => some (bare (rest.takeWhile isTokenChar), rest.dropWhile isTokenChar)

def edit (change : Text → Text) : FieldValue → FieldValue
  | quoted run => quoted (change run)
  | bare token => bare token

def Regular : FieldValue → Prop
  | quoted run => '"' ∉ run
  | bare token => ∀ c ∈ token, isTokenChar c = true

end FieldValue

namespace Field

def text (field : Field) : Text := ' ' :: (field.name ++ '=' :: field.value.text)

/-- The field that the text begins with, and the text behind it. -/
def read? : Text → Option (Field × Text)
  | ' ' :: rest =>
    match rest.dropWhile isNameChar with
    | '=' :: value =>
      (FieldValue.read? value).map fun found => (⟨rest.takeWhile isNameChar, found.1⟩, found.2)
    | _ => none
  | _ => none

def readAll : (fuel : Nat) → Text → List Field
  | 0, _ => []
  | fuel + 1, text =>
    match read? text with
    | some (field, rest) => field :: readAll fuel rest
    | none => []

def edit (change : Text → Text) (field : Field) : Field :=
  { field with value := field.value.edit change }

structure Regular (field : Field) : Prop where
  name : ∀ c ∈ field.name, isNameChar c = true
  value : field.value.Regular

/-- The field is as a downgraded declaration has them: what is bare in it is a numeral. -/
structure Written (field : Field) : Prop extends field.Regular where
  numeral : ∀ token, field.value = .bare token → ∃ number, token = Text.numeral number

end Field

/-- The fields of a line, which begin at its first space. -/
def fieldsOn (line : Text) : List Field := Field.readAll line.length (line.dropWhile (· ≠ ' '))

/-- The value of the first field of this name. -/
def fieldOn? (name line : Text) : Option FieldValue :=
  ((fieldsOn line).find? (·.name = name)).map (·.value)

def fieldsText (fields : List Field) : Text := fields.flatMap Field.text ++ [']']

def rowText (fields : List Field) : Text := extResourceMarker ++ fieldsText fields

@[simp] theorem fieldsText_nil : fieldsText [] = [']'] := rfl

@[simp] theorem fieldsText_cons (field : Field) (fields : List Field) :
    fieldsText (field :: fields) = field.text ++ fieldsText fields := by
  simp [fieldsText]

/-- Behind a field stands the space of the next one or the closing bracket. -/
theorem exists_fieldsText_eq_cons (fields : List Field) :
    ∃ c rest, fieldsText fields = c :: rest ∧ (c = ' ' ∨ c = ']') := by
  cases fields with
  | nil => exact ⟨']', [], rfl, .inr rfl⟩
  | cons field fields => exact ⟨' ', _, by rw [fieldsText_cons, Field.text]; rfl, .inl rfl⟩

theorem FieldValue.read?_text_append {value : FieldValue} (h : value.Regular)
    (fields : List Field) :
    FieldValue.read? (value.text ++ fieldsText fields) = some (value, fieldsText fields) := by
  cases value with
  | quoted run =>
    have hrun : ∀ c ∈ run, decide (c ≠ '"') = true := fun c hc => by
      simpa using fun he : c = '"' => h (he ▸ hc)
    simp only [text, List.cons_append, List.append_assoc, List.nil_append, read?,
      List.dropWhile_append_of_pos hrun, List.takeWhile_append_of_pos hrun]
    simp
  | bare token =>
    obtain ⟨c, rest, hfields, hc⟩ := exists_fieldsText_eq_cons fields
    have hstop : isTokenChar c = false := by
      rcases hc with rfl | rfl <;> decide
    have hfirst : ∀ more, token ++ c :: rest ≠ '"' :: more := by
      intro more he
      rcases List.append_eq_cons_iff.1 he with ⟨-, he⟩ | ⟨tail, rfl, -⟩
      · obtain ⟨rfl, -⟩ := List.cons_eq_cons.1 he
        simp at hc
      · exact absurd (h '"' (by simp)) (by decide)
    rw [text, hfields, read?.eq_2 _ hfirst, List.takeWhile_append_of_pos h,
      List.dropWhile_append_of_pos h, List.takeWhile_cons_of_neg (by simp [hstop]),
      List.dropWhile_cons_of_neg (by simp [hstop]), List.append_nil]

theorem Field.read?_text_append {field : Field} (h : field.Regular) (fields : List Field) :
    Field.read? (field.text ++ fieldsText fields) = some (field, fieldsText fields) := by
  have hequals : ¬ isNameChar '=' = true := by decide
  simp only [text, List.cons_append, List.append_assoc, read?,
    List.dropWhile_append_of_pos h.name, List.takeWhile_append_of_pos h.name,
    List.dropWhile_cons_of_neg hequals, List.takeWhile_cons_of_neg hequals,
    FieldValue.read?_text_append h.value]
  simp

theorem Field.readAll_fieldsText {fields : List Field} (h : ∀ field ∈ fields, field.Regular)
    {fuel : Nat} (hfuel : fields.length ≤ fuel) :
    Field.readAll fuel (fieldsText fields) = fields := by
  induction fields generalizing fuel with
  | nil =>
    cases fuel with
    | zero => rfl
    | succ fuel => rfl
  | cons field fields ih =>
    obtain ⟨hfield, hfields⟩ := List.forall_mem_cons.1 h
    cases fuel with
    | zero => simp at hfuel
    | succ fuel =>
      rw [fieldsText_cons, readAll, read?_text_append hfield]
      simp only [ih hfields (Nat.le_of_succ_le_succ hfuel)]

theorem length_le_length_fieldsText (fields : List Field) :
    fields.length ≤ (fieldsText fields).length := by
  induction fields with
  | nil => simp
  | cons field fields ih =>
    rw [fieldsText_cons, List.length_append, List.length_cons, Field.text, List.length_cons]
    omega

/-- The fields that are read from a row are those it was written with. -/
theorem fieldsOn_rowText {fields : List Field} (h : ∀ field ∈ fields, field.Regular) :
    fieldsOn (rowText fields) = fields := by
  have hmarker : ∀ c ∈ extResourceMarker, decide (c ≠ ' ') = true := by decide
  have hlength := length_le_length_fieldsText fields
  rw [fieldsOn, rowText, List.dropWhile_append_of_pos hmarker]
  cases fields with
  | nil => rfl
  | cons field fields =>
    have hdrop : (fieldsText (field :: fields)).dropWhile (· ≠ ' ') =
        fieldsText (field :: fields) := by
      rw [fieldsText_cons, Field.text, List.cons_append, List.dropWhile_cons_of_neg (by simp)]
    rw [hdrop]
    refine Field.readAll_fieldsText h ?_
    rw [List.length_append]
    omega

def presetName : Text := "anchors_preset".toList

theorem AnchorRule.token_eq : ∀ rule ∈ anchorRules,
    ∃ rest, rule.token = presetName ++ ' ' :: rest := by
  have hall : ∀ rule ∈ anchorRules, rule.token = presetName ++ ' ' :: rule.token.drop 15 := by
    decide
  exact fun rule hrule => ⟨_, hall rule hrule⟩

/-- A preset stands in no name, and never goes on behind a quote. -/
theorem AnchorRule.token_clean : ∀ rule ∈ anchorRules,
    rule.token ≠ [] ∧ '"' ∉ rule.token ∧ '"' ∉ rule.expansion ∧
      ∃ c ∈ rule.token, isNameChar c = false ∧ c ≠ ' ' ∧ c ≠ '=' := by
  decide

/-- No preset begins in a field with a numeral: in the name, its own name would have to end at the
equals sign. -/
theorem not_startsIn_bareField {rule : AnchorRule} (hrule : rule ∈ anchorRules) {name : Text}
    (hname : ∀ c ∈ name, isNameChar c = true) (number : Nat) (back : Text) :
    ¬ rule.token.StartsIn (' ' :: (name ++ '=' :: numeral number)) back := by
  obtain ⟨rest, htoken⟩ := AnchorRule.token_eq rule hrule
  have hletter : rule.token = 'a' :: ("nchors_preset".toList ++ ' ' :: rest) := htoken
  have hdigits : 'a' ∉ numeral number := notMem_numeral (by decide) number
  rintro ⟨tail, hne, hs, hp⟩
  obtain ⟨c, more, rfl⟩ := List.exists_cons_of_ne_nil hne
  obtain rfl : c = 'a' := by
    rw [hletter, List.cons_append, List.cons_prefix_cons] at hp
    exact hp.1.symm
  rcases List.suffix_cons_iff.1 hs with he | hs
  · cases he
  rcases suffix_append_cases hs with hs | ⟨front, -, hfront, he⟩
  · rcases List.suffix_cons_iff.1 hs with he | hs
    · cases he
    · exact hdigits (hs.mem (List.mem_cons_self ..))
  · have hspace : ' ' ∉ front := by
      intro hm
      exact absurd (hname ' ' (hfront.mem hm)) (by decide)
    rw [he, htoken, List.append_assoc, List.cons_append,
      append_cons_prefix_iff (by decide) hspace] at hp
    exact absurd hp.2.1 (by decide)

section
variable {rule : AnchorRule} {fields : List Field}

theorem expand_text_append (hrule : rule ∈ anchorRules) {field : Field} (h : field.Written)
    (back : Text) :
    rule.expand (field.text ++ back) = (field.edit rule.expand).text ++ rule.expand back := by
  obtain ⟨hne, hquote, -, c, hc, hcname, hcspace, hcequals⟩ := AnchorRule.token_clean rule hrule
  obtain ⟨name, value⟩ := field
  cases value with
  | quoted run =>
    have hkept : replaceAll (' ' :: (name ++ ['='])) rule.token rule.expansion =
        ' ' :: (name ++ ['=']) := by
      refine replaceAll_of_notMem hc ?_
      have hname : c ∉ name := fun hm => by simp [h.name c hm] at hcname
      simp [hname, hcspace, hcequals]
    have htext : Field.text ⟨name, .quoted run⟩ ++ back =
        (' ' :: (name ++ ['='])) ++ '"' :: (run ++ '"' :: back) := by
      simp [Field.text, FieldValue.text]
    rw [htext, AnchorRule.expand, replaceAll_cons_of_notMem hne hquote,
      replaceAll_cons_of_notMem hne hquote, hkept]
    simp [Field.text, FieldValue.text, Field.edit, FieldValue.edit, AnchorRule.expand]
  | bare token =>
    obtain ⟨number, rfl⟩ := h.numeral token rfl
    exact replaceAll_append_of_not_startsIn (not_startsIn_bareField hrule h.name number back)

theorem expand_fieldsText (hrule : rule ∈ anchorRules) (h : ∀ field ∈ fields, field.Written) :
    rule.expand (fieldsText fields) = fieldsText (fields.map (.edit rule.expand)) := by
  obtain ⟨rest, htoken⟩ := AnchorRule.token_eq rule hrule
  have hletter : 'a' ∈ rule.token := htoken ▸ List.mem_append_left _ (by decide)
  induction fields with
  | nil => exact replaceAll_of_notMem hletter (by decide)
  | cons field fields ih =>
    obtain ⟨hfield, hfields⟩ := List.forall_mem_cons.1 h
    rw [fieldsText_cons, expand_text_append hrule hfield, ih hfields, List.map_cons,
      fieldsText_cons]

theorem expand_rowText (hrule : rule ∈ anchorRules) (h : ∀ field ∈ fields, field.Written) :
    rule.expand (rowText fields) = rowText (fields.map (.edit rule.expand)) := by
  obtain ⟨rest, htoken⟩ := AnchorRule.token_eq rule hrule
  have hhead : rule.token.head? = some 'a' := by
    rw [htoken]
    rfl
  have hmarker : ¬ rule.token.StartsIn extResourceMarker (fieldsText fields) := fun hs =>
    absurd (hs.head_mem hhead) (by decide)
  have hfields := expand_fieldsText hrule h
  rw [AnchorRule.expand] at hfields ⊢
  rw [rowText, replaceAll_append_of_not_startsIn hmarker, hfields, rowText]

theorem Field.Written.edit {field : Field} (h : field.Written) {change : Text → Text}
    (hchange : ∀ run, '"' ∉ run → '"' ∉ change run) : (field.edit change).Written := by
  obtain ⟨name, value⟩ := field
  cases value with
  | quoted run => exact ⟨⟨h.name, hchange run h.value⟩, fun _ he => by cases he⟩
  | bare token => exact h

theorem quote_notMem_expand (hrule : rule ∈ anchorRules) {run : Text} (h : '"' ∉ run) :
    '"' ∉ rule.expand run := by
  obtain ⟨hne, -, hexpansion, -⟩ := AnchorRule.token_clean rule hrule
  exact notMem_replaceAll hne hexpansion h

/-- The expansions that the rules make in a text, one rule after another. -/
def expandEach (rules : List AnchorRule) (text : Text) : Text :=
  text.replaceEach (rules.map (·.expansionPair))

theorem expandEach_rowText {rules : List AnchorRule} (hrules : rules ⊆ anchorRules)
    (h : ∀ field ∈ fields, field.Written) :
    expandEach rules (rowText fields) = rowText (fields.map (.edit (expandEach rules))) ∧
      ∀ field ∈ fields.map (Field.edit (expandEach rules)), field.Written := by
  induction rules generalizing fields with
  | nil =>
    have hid : Field.edit (expandEach []) = id := by
      funext ⟨name, value⟩
      cases value <;> rfl
    rw [hid, List.map_id]
    exact ⟨rfl, h⟩
  | cons rule rules ih =>
    obtain ⟨hrule, hrest⟩ := List.cons_subset.1 hrules
    have hwritten : ∀ field ∈ fields.map (Field.edit rule.expand), field.Written := by
      intro field hfield
      obtain ⟨source, hsource, rfl⟩ := List.mem_map.1 hfield
      exact (h source hsource).edit fun _ => quote_notMem_expand hrule
    have hboth : Field.edit (expandEach (rule :: rules)) =
        Field.edit (expandEach rules) ∘ Field.edit rule.expand := by
      funext ⟨name, value⟩
      cases value <;> rfl
    have hstep : expandEach (rule :: rules) (rowText fields) =
        expandEach rules (rule.expand (rowText fields)) := rfl
    rw [hstep, expand_rowText hrule h, hboth, ← List.map_map]
    exact ih hrest hwritten

end

end SceneDowngrade.Scene
