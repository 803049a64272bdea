import SceneDowngrade.Proofs.Scene.Numbering
import SceneDowngrade.Proofs.Text.Replacement

/-!
# Declarations attribute by attribute

A declaration made of quoted attributes is downgraded one attribute after another: none of its
values is taken for an attribute, and none of the replacements reaches from one attribute into the
next.
-/
namespace SceneDowngrade.Scene

open Text

structure Attribute where
  name : Text
  value : Text
  deriving DecidableEq, Repr

def idName : Text := "id".toList

def uidName : Text := "uid".toList

def isNameChar (c : Char) : Bool := c.isAlpha || c = '_'

theorem notMem_name {name : Text} (h : ∀ c ∈ name, isNameChar c = true) {c : Char}
    (hc : isNameChar c = false) : c ∉ name := by
  intro hm
  rw [h c hm] at hc
  cases hc

namespace Attribute

def text (attr : Attribute) : Text := (quotedAttribute attr.name).around attr.value

def older (attr : Attribute) : Attribute :=
  { attr with value := attr.value.replaceAll "Texture2D".toList "Texture".toList }

/-- The name is one, and the value has nothing in it that looks like an id. -/
structure Regular (attr : Attribute) : Prop where
  name : ∀ c ∈ attr.name, isNameChar c = true
  quote : '"' ∉ attr.value
  id : ¬ ' ' :: (idName ++ ['=']) <:+: attr.value
  uid : ¬ ' ' :: (uidName ++ ['=']) <:+: attr.value

instance (attr : Attribute) : Decidable attr.Regular :=
  decidable_of_iff
    ((∀ c ∈ attr.name, isNameChar c = true) ∧ '"' ∉ attr.value ∧
      ¬ ' ' :: (idName ++ ['=']) <:+: attr.value ∧ ¬ ' ' :: (uidName ++ ['=']) <:+: attr.value)
    ⟨fun ⟨h₁, h₂, h₃, h₄⟩ => ⟨h₁, h₂, h₃, h₄⟩, fun ⟨h₁, h₂, h₃, h₄⟩ => ⟨h₁, h₂, h₃, h₄⟩⟩

theorem text_eq (attr : Attribute) : attr.text =
    (' ' :: (attr.name ++ ['='])) ++ '"' :: (attr.value ++ ['"']) := by
  simp [text, quotedAttribute, QuotedSpan.around]

theorem Regular.older {attr : Attribute} (h : attr.Regular) :
    attr.older.Regular := by
  have hne : "Texture2D".toList ≠ [] := by decide
  refine ⟨h.name, ?_, ?_, ?_⟩
  · exact (mem_replaceAll_iff hne (by decide) (by decide) _).not.2 h.quote
  · exact (infix_replaceAll_iff hne (by decide) (by decide) (by decide) _).not.2 h.id
  · exact (infix_replaceAll_iff hne (by decide) (by decide) (by decide) _).not.2 h.uid

end Attribute

def attributesText (attributes : List Attribute) : Text :=
  attributes.flatMap Attribute.text ++ [']']

def declarationText (attributes : List Attribute) : Text :=
  extResourceMarker ++ attributesText attributes

@[simp] theorem attributesText_nil : attributesText [] = [']'] := rfl

@[simp] theorem attributesText_cons (attr : Attribute) (attributes : List Attribute) :
    attributesText (attr :: attributes) = attr.text ++ attributesText attributes := by
  simp [attributesText]

theorem replaceAll_attributesText {attributes : List Attribute}
    (h : ∀ attr ∈ attributes, attr.Regular) :
    (attributesText attributes).replaceAll "Texture2D".toList "Texture".toList =
      attributesText (attributes.map .older) := by
  have hne : "Texture2D".toList ≠ [] := by decide
  induction attributes with
  | nil => exact replaceAll_of_notMem (c := '2') (by decide) (by decide)
  | cons attr attributes ih =>
    obtain ⟨hattr, hrest⟩ := List.forall_mem_cons.1 h
    have hname := notMem_name hattr.name (c := '2') (by decide)
    have hsplit : attr.text ++ attributesText attributes =
        (' ' :: (attr.name ++ ['='])) ++
          '"' :: (attr.value ++ '"' :: attributesText attributes) := by
      simp [Attribute.text_eq]
    have hkept : replaceAll (' ' :: (attr.name ++ ['='])) "Texture2D".toList
        "Texture".toList = ' ' :: (attr.name ++ ['=']) :=
      replaceAll_of_notMem (c := '2') (by decide) (by simp [hname])
    rw [attributesText_cons, hsplit, replaceAll_cons_of_notMem hne (by decide),
      replaceAll_cons_of_notMem hne (by decide), ih hrest, hkept, List.map_cons,
      attributesText_cons]
    simp [Attribute.text_eq, Attribute.older]

/-- No opening of a `key` attribute stands in an attribute of another name. -/
theorem not_startsIn_attribute {key : Text} (hkey : '"' ∉ key) {attr : Attribute}
    (hregular : ∀ c ∈ attr.name, isNameChar c = true) (hplain : '"' ∉ attr.value)
    (hvalue : ¬ ' ' :: (key ++ ['=']) <:+: attr.value) (hne : attr.name ≠ key) (rest : Text) :
    ¬ (quotedAttribute key).opening.StartsIn attr.text rest := by
  have hopening : (quotedAttribute key).opening = (' ' :: (key ++ ['='])) ++ '"' :: [] := by
    simp [quotedAttribute]
  have hkey' : '"' ∉ ' ' :: (key ++ ['=']) := by simp [hkey]
  rintro ⟨tail, htail, hs, hp⟩
  have hquote : ∀ {front back : Text}, '"' ∉ front →
      (quotedAttribute key).opening <+: front ++ '"' :: back → ' ' :: (key ++ ['=']) = front := by
    intro front back hfront hp
    rw [hopening, append_cons_prefix_iff hkey' hfront] at hp
    exact hp.1
  rw [attr.text_eq] at hs
  rcases suffix_append_cases hs with hs | ⟨front, hfront, hsuffix, rfl⟩
  · rcases List.suffix_cons_iff.1 hs with rfl | hs
    · simp [hopening, List.cons_prefix_cons] at hp
    rcases suffix_append_cases hs with hs | ⟨front, -, hsuffix, rfl⟩
    · rcases List.suffix_cons_iff.1 hs with rfl | hs
      · simp [hopening, List.cons_prefix_cons] at hp
      · exact htail (List.suffix_nil.1 hs)
    · -- the opening would end at the closing quote of the value
      have hfront : '"' ∉ front := fun hm => hplain (hsuffix.mem hm)
      rw [List.append_assoc] at hp
      exact hvalue (hquote hfront hp ▸ hsuffix.isInfix)
  · have hnone : '"' ∉ front := by
      intro hm
      have hname := notMem_name hregular (c := '"') (by decide)
      have hmem := hsuffix.mem hm
      simp [hname] at hmem
    rw [List.append_assoc] at hp
    obtain rfl := hquote hnone hp
    rcases List.suffix_cons_iff.1 hsuffix with he | hsuffix
    · exact hne (by simpa using he.symm)
    · have hspace := notMem_name hregular (c := ' ') (by decide)
      have hmem : ' ' ∈ attr.name ++ ['='] := hsuffix.mem (by simp)
      simp [hspace] at hmem

section
variable {key : Text} {attributes : List Attribute}

theorem substitute_attributesText (hkey : '"' ∉ key)
    (h : ∀ attr ∈ attributes, attr.Regular ∧ ¬ ' ' :: (key ++ ['=']) <:+: attr.value)
    (edit : Text → Text) :
    (quotedAttribute key).substitute edit (attributesText attributes) =
      attributes.flatMap (fun attr => if attr.name = key then edit attr.value else attr.text) ++
        [']'] := by
  have hspan := quotedAttribute_delimited hkey
  induction attributes with
  | nil =>
    rw [attributesText_nil, QuotedSpan.substitute,
      QuotedSpan.pieces_of_quote_notMem hspan (by simp)]
    rfl
  | cons attr attributes ih =>
    obtain ⟨⟨hattr, hvalue⟩, hrest⟩ := List.forall_mem_cons.1 h
    rw [attributesText_cons, List.flatMap_cons, List.append_assoc, ← ih hrest]
    by_cases hname : attr.name = key
    · rw [if_pos hname, Attribute.text, hname, QuotedSpan.substitute_span hspan hattr.quote]
    · rw [if_neg hname, QuotedSpan.substitute_append_of_not_startsIn
        (not_startsIn_attribute hkey hattr.name hattr.quote hvalue hname _)]

theorem runs_attributesText (hkey : '"' ∉ key)
    (h : ∀ attr ∈ attributes, attr.Regular ∧ ¬ ' ' :: (key ++ ['=']) <:+: attr.value) :
    (quotedAttribute key).runs (attributesText attributes) =
      (attributes.filter (·.name = key)).map (·.value) := by
  have hspan := quotedAttribute_delimited hkey
  induction attributes with
  | nil =>
    rw [attributesText_nil, QuotedSpan.runs, QuotedSpan.pieces_of_quote_notMem hspan (by simp)]
    rfl
  | cons attr attributes ih =>
    obtain ⟨⟨hattr, hvalue⟩, hrest⟩ := List.forall_mem_cons.1 h
    rw [attributesText_cons]
    by_cases hname : attr.name = key
    · rw [Attribute.text, hname, QuotedSpan.runs_span hspan hattr.quote, ih hrest,
        List.filter_cons_of_pos (by simpa using hname), List.map_cons]
    · rw [QuotedSpan.runs_append_of_not_startsIn
        (not_startsIn_attribute hkey hattr.name hattr.quote hvalue hname _), ih hrest,
        List.filter_cons_of_neg (by simpa using hname)]

theorem not_startsIn_marker (rest : Text) :
    ¬ (quotedAttribute key).opening.StartsIn extResourceMarker rest := by
  intro h
  have hspace : (quotedAttribute key).opening.head? = some ' ' := by simp [quotedAttribute]
  have hmem := h.head_mem hspace
  revert hmem
  decide

end

/-- The attributes of a declaration without `uid`, with the older texture type. -/
def olderAttributes (attributes : List Attribute) : List Attribute :=
  (attributes.map .older).filter (·.name ≠ uidName)

/-- The value with the older texture type in it. -/
def olderValue (value : Text) : Text := value.replaceAll "Texture2D".toList "Texture".toList

/-- The attributes of a declaration, with `id` as the one id among them. -/
structure Declares (attributes : List Attribute) (id : Text) : Prop where
  regular : ∀ attr ∈ attributes, attr.Regular
  ids : attributes.filter (·.name = idName) = [⟨idName, id⟩]

instance (attributes : List Attribute) (id : Text) : Decidable (Declares attributes id) :=
  decidable_of_iff
    ((∀ attr ∈ attributes, attr.Regular) ∧
      attributes.filter (·.name = idName) = [⟨idName, id⟩])
    ⟨fun ⟨h₁, h₂⟩ => ⟨h₁, h₂⟩, fun ⟨h₁, h₂⟩ => ⟨h₁, h₂⟩⟩

section
variable {attributes : List Attribute} {id : Text}

theorem Declares.value_eq (h : Declares attributes id) {attr : Attribute}
    (hattr : attr ∈ attributes) (hname : attr.name = idName) : attr.value = id := by
  have hmem : attr ∈ attributes.filter (·.name = idName) :=
    List.mem_filter.2 ⟨hattr, by simpa using hname⟩
  rw [h.ids, List.mem_singleton] at hmem
  rw [hmem]

theorem exists_of_mem_olderAttributes {attr : Attribute} (h : attr ∈ olderAttributes attributes) :
    ∃ source ∈ attributes, source.older = attr :=
  List.mem_map.1 (List.mem_filter.1 h).1

theorem flatMap_olderAttributes (attributes : List Attribute) (write : Attribute → Text) :
    (olderAttributes attributes).flatMap write =
      attributes.flatMap fun attr => if attr.name = uidName then [] else write attr.older := by
  induction attributes with
  | nil => rfl
  | cons attr attributes ih =>
    have hname : attr.older.name = attr.name := rfl
    rw [List.flatMap_cons, ← ih, olderAttributes, List.map_cons]
    by_cases huid : attr.name = uidName
    · rw [if_pos huid, List.filter_cons_of_neg (by simp [hname, huid])]
      rfl
    · rw [if_neg huid, List.filter_cons_of_pos (by simpa [hname] using huid)]
      rfl

theorem plainDeclaration_declarationText (h : ∀ attr ∈ attributes, attr.Regular) :
    plainDeclaration (declarationText attributes) =
      declarationText (olderAttributes attributes) := by
  have hmarker : ¬ StartsIn "Texture2D".toList extResourceMarker (attributesText attributes) := by
    intro hs
    have hmem := hs.head_mem (c := 'T') (by decide)
    revert hmem
    decide
  have holder : ∀ attr ∈ attributes.map Attribute.older,
      attr.Regular ∧ ¬ ' ' :: (uidName ++ ['=']) <:+: attr.value := by
    intro attr hattr
    obtain ⟨source, hsource, rfl⟩ := List.mem_map.1 hattr
    exact ⟨(h source hsource).older, (h source hsource).older.uid⟩
  have huid : uidAttribute = quotedAttribute uidName := rfl
  rw [plainDeclaration, declarationText, replaceAll_append_of_not_startsIn hmarker,
    replaceAll_attributesText h, QuotedSpan.removeFrom_eq, huid,
    QuotedSpan.substitute_append_of_not_startsIn (not_startsIn_marker _),
    substitute_attributesText (by decide) holder, List.flatMap_map, declarationText, attributesText,
    flatMap_olderAttributes]
  rfl

/-- The older declaration has the id with the older texture type in it. -/
theorem Declares.older (h : Declares attributes id) :
    Declares (olderAttributes attributes)
      (id.replaceAll "Texture2D".toList "Texture".toList) := by
  constructor
  · intro attr hattr
    obtain ⟨source, hsource, rfl⟩ := exists_of_mem_olderAttributes hattr
    exact (h.regular source hsource).older
  · have hname : ∀ attr ∈ attributes.map Attribute.older,
        (decide (attr.name = idName) && decide (attr.name ≠ uidName)) =
          decide (attr.name = idName) := by
      intro attr _
      by_cases hid : attr.name = idName
      · have hne : idName ≠ uidName := by decide
        simp [hid, hne]
      · simp [hid]
    have hsame : ((fun attr : Attribute => decide (attr.name = idName)) ∘ Attribute.older) =
        fun attr => decide (attr.name = idName) := rfl
    rw [olderAttributes, List.filter_filter, List.filter_congr hname, List.filter_map, hsame, h.ids]
    rfl

theorem Declares.runs_eq (h : Declares attributes id) :
    idAttribute.runs (declarationText attributes) = [id] := by
  have hspan : idAttribute = quotedAttribute idName := rfl
  rw [hspan, declarationText, QuotedSpan.runs_append_of_not_startsIn (not_startsIn_marker _),
    runs_attributesText (by decide) fun attr hattr =>
      ⟨h.regular attr hattr, (h.regular attr hattr).id⟩,
    h.ids]
  rfl

/-- The replacement of the id finds the one attribute that holds it. -/
theorem Declares.replaceAll_eq (h : Declares attributes id) (new : Text) :
    (declarationText attributes).replaceAll (idAttribute.around id) new =
      extResourceMarker ++
        (attributes.flatMap (fun attr => if attr.name = idName then new else attr.text) ++
          [']']) := by
  have hne : idAttribute.around id ≠ [] := idAttribute_delimited.around_ne_nil id
  have hopening : (quotedAttribute idName).opening <+: idAttribute.around id := by
    rw [QuotedSpan.around, List.append_assoc]
    exact List.prefix_append _ _
  have hvalue : ∀ attr ∈ attributes, attr.name = idName → attr.value = id := fun _ => h.value_eq
  have hregular := h.regular
  rw [declarationText, replaceAll_append_of_not_startsIn fun hs =>
    not_startsIn_marker _ (hs.of_isPrefix hopening)]
  congr 1
  clear h
  induction attributes with
  | nil => exact replaceAll_of_notMem (c := ' ') (hopening.mem (by decide)) (by decide)
  | cons attr attributes ih =>
    obtain ⟨hattr, hrest⟩ := List.forall_mem_cons.1 hregular
    obtain ⟨hid, hids⟩ := List.forall_mem_cons.1 hvalue
    rw [attributesText_cons, List.flatMap_cons, List.append_assoc, ← ih hids hrest]
    by_cases hname : attr.name = idName
    · have htext : attr.text = idAttribute.around id := by
        rw [Attribute.text, hname, hid hname]
        rfl
      rw [if_pos hname, htext, replaceAll_found hne]
    · rw [if_neg hname, replaceAll_append_of_not_startsIn fun hs =>
        not_startsIn_attribute (by decide) hattr.name hattr.quote hattr.id hname _
          (hs.of_isPrefix hopening)]

theorem Declares.declaredId?_eq (h : Declares attributes id) :
    declaredId? (plainDeclaration (declarationText attributes)) =
      some (id.replaceAll "Texture2D".toList "Texture".toList) := by
  rw [declaredId?, plainDeclaration_declarationText h.regular, h.older.runs_eq]
  rfl

/-- An attribute in a downgraded declaration, where `number` stands for the id. -/
def Attribute.numbered (number : Nat) (attr : Attribute) : Text :=
  if attr.name = idName then numberAttribute number else attr.text

/-- A downgraded declaration depends on its id by the numeral alone. -/
theorem Declares.declare_line (h : Declares attributes id) (table : ResourceTable) :
    (table.declare (declarationText attributes)).line =
      extResourceMarker ++ ((olderAttributes attributes).flatMap (Attribute.numbered
        (table.assign (id.replaceAll "Texture2D".toList "Texture".toList)).number) ++ [']']) := by
  rw [ResourceTable.declare, h.declaredId?_eq, plainDeclaration_declarationText h.regular]
  exact h.older.replaceAll_eq _

end

end SceneDowngrade.Scene
