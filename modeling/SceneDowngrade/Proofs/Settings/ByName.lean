import SceneDowngrade.Proofs.Settings.Members

/-!
# Settings are read by name

The settings of a JSON object are those of its members `suffix` and `in_place`, whatever the
spelling and the order of the members and whatever else there is. If one of the two is there twice,
or has a value of another type, there are no settings.
-/
namespace SceneDowngrade.Settings

open Json

/-- The values of the members with this name. -/
def valuesOf (name : Text) (members : List (Text × Value)) : List Value :=
  (members.filter (·.1 = name)).map (·.2)

theorem valuesOf_cons_self (name : Text) (value : Value) (members : List (Text × Value)) :
    valuesOf name ((name, value) :: members) = value :: valuesOf name members := by
  simp [valuesOf]

theorem valuesOf_cons_of_ne {name other : Text} (h : other ≠ name) (value : Value)
    (members : List (Text × Value)) :
    valuesOf name ((other, value) :: members) = valuesOf name members := by
  simp [valuesOf, h]

/-- What was found of a field, and the values that are still to come, are one value or none, and of
the type that is wanted. -/
def Settles {α : Type} (wrap : α → Value) (found : Option α) (values : List Value)
    (result : Option α) : Prop :=
  found.toList.map wrap ++ values = result.toList.map wrap

section Settles
variable {α : Type} {wrap : α → Value} {found result : Option α}

theorem settles_nil_iff (hwrap : wrap.Injective) :
    Settles wrap found [] result ↔ found = result := by
  cases found <;> cases result <;> simp [Settles, hwrap.eq_iff]

theorem settles_cons_iff {value : Value} {values : List Value} :
    Settles wrap found (value :: values) result ↔
      found = none ∧ ∃ a, value = wrap a ∧ Settles wrap (some a) values result := by
  cases found with
  | some a => cases result <;> simp [Settles]
  | none =>
    constructor
    · intro h
      cases result with
      | none => cases h
      | some a =>
        obtain ⟨rfl, rfl⟩ : value = wrap a ∧ values = [] := by simpa [Settles] using h
        exact ⟨rfl, a, rfl, rfl⟩
    · rintro ⟨-, a, rfl, h⟩
      exact h

end Settles

section Add
variable {fields next : Fields} {value : Value}

theorem add_suffix_eq_some_iff : fields.add (suffixField, value) = some next ↔
    fields.suffix = none ∧ ∃ s, value = .string s ∧ { fields with suffix := some s } = next := by
  rw [Fields.add, if_pos rfl]
  cases fields.suffix <;> cases value <;> simp [Value.string?]

theorem add_inPlace_eq_some_iff : fields.add (inPlaceField, value) = some next ↔
    fields.inPlace = none ∧ ∃ b, value = .boolean b ∧ { fields with inPlace := some b } = next := by
  have hne : inPlaceField ≠ suffixField := by decide
  rw [Fields.add, if_neg hne, if_pos rfl]
  cases fields.inPlace <;> cases value <;> simp [Value.boolean?]

theorem add_unknown {name : Text} (hsuffix : name ≠ suffixField) (hinPlace : name ≠ inPlaceField) :
    fields.add (name, value) = some fields := by
  rw [Fields.add, if_neg hsuffix, if_neg hinPlace]

end Add

/-- Adding the members one by one comes to what the values of the two fields settle. -/
theorem foldlM_add_eq_some_iff {members : List (Text × Value)} {fields result : Fields} :
    members.foldlM Fields.add fields = some result ↔
      Settles .string fields.suffix (valuesOf suffixField members) result.suffix ∧
        Settles .boolean fields.inPlace (valuesOf inPlaceField members) result.inPlace := by
  induction members generalizing fields with
  | nil =>
    have hstring : Function.Injective Value.string := fun _ _ => Value.string.inj
    have hboolean : Function.Injective Value.boolean := fun _ _ => Value.boolean.inj
    obtain ⟨suffix, inPlace⟩ := fields
    obtain ⟨suffix', inPlace'⟩ := result
    simp [valuesOf, settles_nil_iff hstring, settles_nil_iff hboolean]
  | cons member members ih =>
    obtain ⟨name, value⟩ := member
    rw [List.foldlM_cons, Option.bind_eq_bind, Option.bind_eq_some_iff]
    simp only [ih]
    by_cases hsuffix : name = suffixField
    · subst hsuffix
      rw [valuesOf_cons_self, valuesOf_cons_of_ne (by decide), settles_cons_iff]
      simp only [add_suffix_eq_some_iff]
      constructor
      · rintro ⟨_, ⟨hnone, s, hvalue, rfl⟩, hs, hb⟩
        exact ⟨⟨hnone, s, hvalue, hs⟩, hb⟩
      · rintro ⟨⟨hnone, s, hvalue, hs⟩, hb⟩
        exact ⟨_, ⟨hnone, s, hvalue, rfl⟩, hs, hb⟩
    · rw [valuesOf_cons_of_ne hsuffix]
      by_cases hinPlace : name = inPlaceField
      · subst hinPlace
        rw [valuesOf_cons_self, settles_cons_iff]
        simp only [add_inPlace_eq_some_iff]
        constructor
        · rintro ⟨_, ⟨hnone, b, hvalue, rfl⟩, hs, hb⟩
          exact ⟨hs, hnone, b, hvalue, hb⟩
        · rintro ⟨hs, hnone, b, hvalue, hb⟩
          exact ⟨_, ⟨hnone, b, hvalue, rfl⟩, hs, hb⟩
      · rw [valuesOf_cons_of_ne hinPlace]
        simp [add_unknown hsuffix hinPlace]

/-- The members with this name are one with the value `given`, or none. -/
def Given {α : Type} (wrap : α → Value) (name : Text) (members : List (Text × Value))
    (given : Option α) : Prop :=
  valuesOf name members = given.toList.map wrap

/-- An object has settings exactly if its members give at most one suffix, a string, and at most one
flag, a boolean. -/
theorem ofJson_eq_ok_iff {members : List (Text × Value)} {text : Text}
    (h : Spells (.element (.object members)) text) {settings : Settings} :
    ofJson text = .ok settings ↔
      ∃ suffix inPlace, Given .string suffixField members suffix ∧
        Given .boolean inPlaceField members inPlace ∧
        settings = ⟨suffix.getD ".new".toList, inPlace.getD false⟩ := by
  have hok : ofJson text = .ok settings ↔ (ofJson text).toOption = some settings := by
    cases ofJson text <;> simp [Except.toOption]
  rw [hok, toOption_ofJson h, Option.map_eq_some_iff]
  constructor
  · rintro ⟨fields, hfields, rfl⟩
    obtain ⟨hsuffix, hinPlace⟩ := foldlM_add_eq_some_iff.1 hfields
    exact ⟨fields.suffix, fields.inPlace, hsuffix, hinPlace, rfl⟩
  · rintro ⟨suffix, inPlace, hsuffix, hinPlace, rfl⟩
    exact ⟨⟨suffix, inPlace⟩, foldlM_add_eq_some_iff.2 ⟨hsuffix, hinPlace⟩, rfl⟩

/-- The names of the fields that are read. -/
def knownFields : List Text := [suffixField, inPlaceField]

/-- The members that are not passed over. -/
def knownMembers (members : List (Text × Value)) : List (Text × Value) :=
  members.filter (·.1 ∈ knownFields)

theorem valuesOf_knownMembers {name : Text} (h : name ∈ knownFields)
    (members : List (Text × Value)) :
    valuesOf name (knownMembers members) = valuesOf name members := by
  rw [valuesOf, knownMembers, List.filter_filter, valuesOf]
  congr 1
  refine List.filter_congr fun member _ => ?_
  by_cases hname : member.1 = name <;> simp [hname, h]

theorem eq_of_perm_toList {α β : Type} {f : α → β} {given : Option α} {values : List β}
    (h : values.Perm (given.toList.map f)) : values = given.toList.map f := by
  cases given with
  | none => exact h.eq_nil
  | some a => exact List.perm_singleton.1 h

theorem given_iff_of_perm {α : Type} {wrap : α → Value} {name : Text} (hname : name ∈ knownFields)
    {members others : List (Text × Value)}
    (h : (knownMembers members).Perm (knownMembers others)) {given : Option α} :
    Given wrap name members given ↔ Given wrap name others given := by
  have hvalues : (valuesOf name members).Perm (valuesOf name others) := by
    rw [← valuesOf_knownMembers hname, ← valuesOf_knownMembers hname others]
    exact (h.filter _).map _
  rw [Given, Given]
  constructor
  · intro hgiven
    exact eq_of_perm_toList (hgiven ▸ hvalues.symm)
  · intro hgiven
    exact eq_of_perm_toList (hgiven ▸ hvalues)

theorem not_given {α : Type} {wrap : α → Value} {name : Text} {members : List (Text × Value)}
    (h : 1 < (valuesOf name members).length ∨
      ∃ value ∈ valuesOf name members, ∀ a, value ≠ wrap a) (given : Option α) :
    ¬ Given wrap name members given := by
  intro hgiven
  rw [Given] at hgiven
  rw [hgiven] at h
  cases given with
  | none => simp at h
  | some a =>
    have hvalue : ∀ b, wrap a ≠ wrap b := by simpa using h
    exact hvalue a rfl

/-- Whatever the spelling of an object, its settings are the string of its member `suffix` and the
boolean of its member `in_place`, or their defaults where these are missing. They depend on the two
members alone. An object that has one of them twice or with a value of another type has no
settings. -/
theorem ofJson_by_name {members : List (Text × Value)} {text : Text}
    (h : Spells (.element (.object members)) text) :
    (∀ (suffix : Option Text) (inPlace : Option Bool),
      Given .string suffixField members suffix → Given .boolean inPlaceField members inPlace →
        ofJson text = .ok ⟨suffix.getD ".new".toList, inPlace.getD false⟩) ∧
      (1 < (valuesOf suffixField members).length ∨
        (∃ value ∈ valuesOf suffixField members, ∀ s, value ≠ .string s) ∨
        1 < (valuesOf inPlaceField members).length ∨
        (∃ value ∈ valuesOf inPlaceField members, ∀ b, value ≠ .boolean b) →
          ∃ e, ofJson text = .error e) ∧
      ∀ others otherText, Spells (.element (.object others)) otherText →
        (knownMembers members).Perm (knownMembers others) →
          (ofJson otherText).toOption = (ofJson text).toOption := by
  refine ⟨fun suffix inPlace hsuffix hinPlace => ?_, fun hwrong => ?_,
    fun others otherText hothers hperm => ?_⟩
  · exact (ofJson_eq_ok_iff h).2 ⟨suffix, inPlace, hsuffix, hinPlace, rfl⟩
  · cases hread : ofJson text with
    | error e => exact ⟨e, rfl⟩
    | ok settings =>
      obtain ⟨suffix, inPlace, hsuffix, hinPlace, -⟩ := (ofJson_eq_ok_iff h).1 hread
      rw [← or_assoc] at hwrong
      rcases hwrong with hwrong | hwrong
      · exact absurd hsuffix (not_given hwrong suffix)
      · exact absurd hinPlace (not_given hwrong inPlace)
  · have hsame (settings : Settings) :
        ofJson otherText = .ok settings ↔ ofJson text = .ok settings := by
      rw [ofJson_eq_ok_iff hothers, ofJson_eq_ok_iff h]
      simp only [given_iff_of_perm (by decide : suffixField ∈ knownFields) hperm,
        given_iff_of_perm (by decide : inPlaceField ∈ knownFields) hperm]
    refine Option.ext fun settings => ?_
    cases hother : ofJson otherText <;> cases hread : ofJson text <;>
      simp_all [Except.toOption]

def flagMember : Text × Value := (inPlaceField, .boolean true)

def suffixMember : Text × Value := (suffixField, .string [Char.ofNat 0x1F600, '\n'])

def nestedMember : Text × Value :=
  ("x".toList, .list [.number "-1.5E2".toList, .object [(suffixField, .null)]])

def flagText : Text := "\"in\\u005Fplace\" :true".toList

def suffixText : Text := "\"suffix\":\"\\uD83D\\uDE00\\n\"".toList

def nestedText : Text := "\"x\":[-1.5E2, \x7b\"suffix\":null\x7d]".toList

theorem spells_flagText : Spells (.member flagMember) flagText := by
  have hunit : UnitText 0x5F "\\u005F".toList :=
    @UnitText.mk _ _ _ _ 0 0 5 15 (by decide) (by decide) (by decide) (by decide)
  have hunderscore : CharText '_' "\\u005F".toList :=
    .units (show List.Forall₂ UnitText (codeUnits '_') [_] from .cons hunit .nil)
  have hname : StringText inPlaceField "in\\u005Fplace".toList :=
    (StringText.of_plain (by decide : ∀ c ∈ "in".toList, _)).append
      (.cons hunderscore (.of_plain (by decide : ∀ c ∈ "place".toList, _)))
  have hnone : Space [] := by decide
  have hspace : Space [' '] := by decide
  have hmember := Spells.member hnone hname hspace (.element hnone .true hnone)
  exact hmember

theorem spells_suffixText : Spells (.member suffixMember) suffixText := by
  have hhigh : UnitText 0xD83D "\\uD83D".toList :=
    @UnitText.mk _ _ _ _ 13 8 3 13 (by decide) (by decide) (by decide) (by decide)
  have hlow : UnitText 0xDE00 "\\uDE00".toList :=
    @UnitText.mk _ _ _ _ 13 14 0 0 (by decide) (by decide) (by decide) (by decide)
  have hface : CharText (Char.ofNat 0x1F600) "\\uD83D\\uDE00".toList :=
    .units (show List.Forall₂ UnitText (codeUnits (Char.ofNat 0x1F600)) [_, _] from
      .cons hhigh (.cons hlow .nil))
  have hbreak : CharText '\n' "\\n".toList := .letter (by decide)
  have hname : StringText suffixField suffixField := .of_plain (by decide)
  have hnone : Space [] := by decide
  have hmember := Spells.member hnone hname hnone
    (.element hnone (.string (.cons hface (.cons hbreak .nil))) hnone)
  exact hmember

theorem spells_nestedText : Spells (.member nestedMember) nestedText := by
  have hpower : PowerText "E2".toList :=
    @PowerText.some 'E' [] ['2'] (by decide) (by decide) (by decide)
  have hnumber : NumberText "-1.5E2".toList :=
    @NumberText.mk ['-'] ['1'] _ _ (by decide) (by decide) (.some (by decide : Digits ['5'])) hpower
  have hname : StringText "x".toList "x".toList := .of_plain (by decide)
  have hsuffix : StringText suffixField suffixField := .of_plain (by decide)
  have hnone : Space [] := by decide
  have hspace : Space [' '] := by decide
  have hinner := Spells.element hspace
    (.object (.lastMember (.member hnone hsuffix hnone (.element hnone .null hnone)))) hnone
  have hmember := Spells.member hnone hname hnone (.element hnone
    (.list (.nextElement (.element hnone (.number hnumber) hnone) (.lastElement hinner))) hnone)
  exact hmember

/-- The name of a field may be escaped and a character may take two code units. Nothing inside an
unknown member counts, and neither does the order; a field that is there twice is an error. -/
theorem ofJson_by_name_escaped :
    let space := "\n\t".toList
    let object (inner : Text) := space ++ (('\x7b' :: (inner ++ ['\x7d'])) ++ space)
    let text := object (flagText ++ ',' :: (nestedText ++ ',' :: suffixText))
    let swapped := object (suffixText ++ ',' :: flagText)
    ofJson text = .ok ⟨[Char.ofNat 0x1F600, '\n'], true⟩ ∧
      (ofJson swapped).toOption = (ofJson text).toOption ∧
      ∃ e, ofJson (object (suffixText ++ ',' :: suffixText)) = .error e := by
  intro space object text swapped
  have hspace : Space space := by decide
  have hobject {members : List (Text × Value)} {inner : Text}
      (h : Spells (.members members) inner) :
      Spells (.element (.object members)) (object inner) := .element hspace (.object h) hspace
  have hflag := spells_flagText
  have hsuffix := spells_suffixText
  obtain ⟨hread, -, hsame⟩ := ofJson_by_name
    (hobject (.nextMember hflag (.nextMember spells_nestedText (.lastMember hsuffix))))
  obtain ⟨-, hrepeated, -⟩ := ofJson_by_name (hobject (.nextMember hsuffix (.lastMember hsuffix)))
  refine ⟨hread (some _) (some true) rfl rfl, ?_, hrepeated (.inl (by decide))⟩
  refine hsame [suffixMember, flagMember] _ (hobject (.nextMember hsuffix (.lastMember hflag))) ?_
  exact List.Perm.swap suffixMember flagMember []

end SceneDowngrade.Settings
