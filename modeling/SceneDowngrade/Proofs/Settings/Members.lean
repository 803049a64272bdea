import SceneDowngrade.Proofs.Json.Values
import SceneDowngrade.Settings

/-!
# The members of an object, one after another

Reading an object comes to adding its members to the fields in their order. A member that is known
is added if its field is free and its value has the right type, and an unknown one changes nothing.
-/
namespace SceneDowngrade.Settings

open Json

/-- The fields with one more member. None if the member is known and is there already, or has a
value of another type. -/
def Fields.add (fields : Fields) (member : Text × Value) : Option Fields :=
  if member.1 = suffixField then
    if fields.suffix.isSome then none
    else member.2.string?.map fun s => { fields with suffix := some s }
  else if member.1 = inPlaceField then
    if fields.inPlace.isSome then none
    else member.2.boolean?.map fun b => { fields with inPlace := some b }
  else some fields

theorem toOption_bind {α β : Type} (result : Except Error α) (next : α → Except Error β) :
    (result.bind next).toOption = result.toOption.bind fun a => (next a).toOption := by
  cases result <;> rfl

theorem readField_eq (fields : Fields) (name : Text) {space text rest : Text} {value : Value}
    (hspace : Space space) (h : Spells (.element value) text) (hrest : EndsNumber rest) :
    ∃ after, Space after ∧
      (fields.readField name (space ++ ':' :: (text ++ rest))).toOption =
        (fields.add (name, value)).map fun next => (next, after ++ rest) := by
  rw [Fields.readField, Fields.add, readColon_append hspace]
  by_cases hsuffix : name = suffixField
  · obtain ⟨after, hafter, hread⟩ := reads_readText.element h rest
    refine ⟨after, hafter, ?_⟩
    simp only [if_pos hsuffix]
    cases fields.suffix with
    | some s => rfl
    | none =>
      refine (toOption_bind (readText (text ++ rest)) _).trans ?_
      rw [hread]
      cases value.string? <;> rfl
  · simp only [if_neg hsuffix]
    by_cases hinPlace : name = inPlaceField
    · obtain ⟨after, hafter, hread⟩ := reads_readFlag.element h rest
      refine ⟨after, hafter, ?_⟩
      simp only [if_pos hinPlace]
      cases fields.inPlace with
      | some b => rfl
      | none =>
        refine (toOption_bind (readFlag (text ++ rest)) _).trans ?_
        rw [hread]
        cases value.boolean? <;> rfl
    · obtain ⟨after, hafter, hskip⟩ := skipValue_element h hrest
      refine ⟨after, hafter, ?_⟩
      simp only [if_neg hinPlace]
      refine (toOption_bind (skipValue (text ++ rest)) _).trans ?_
      rw [hskip]
      rfl

/-- What stands before a member: nothing before the first one, and else a comma. -/
def Lead (first : Bool) (lead : Text) : Prop :=
  if first then lead = [] else ∃ space, Space space ∧ lead = space ++ [',']

theorem nextName_member {first : Bool} {lead before : Text} (hlead : Lead first lead)
    (hbefore : Space before) (rest : Text) :
    nextName first (lead ++ (before ++ '"' :: rest)) = .ok (true, rest) := by
  cases first with
  | true =>
    obtain rfl : lead = [] := hlead
    rw [List.nil_append, nextName, skipSpace_append hbefore, skipSpace_cons (by decide)]
    rfl
  | false =>
    obtain ⟨space, hspace, rfl⟩ := hlead
    rw [List.append_assoc, nextName, skipSpace_append hspace, List.singleton_append,
      skipSpace_cons (by decide)]
    simp [skipSpace_append hbefore, skipSpace_cons (by decide : isSpace '"' = false)]

theorem nextName_end (first : Bool) {space : Text} (h : Space space) (rest : Text) :
    nextName first (space ++ '\x7d' :: rest) = .ok (false, rest) := by
  rw [nextName, skipSpace_append h, skipSpace_cons (by decide)]
  rfl

theorem readFields_end (fuel : Nat) (first : Bool) (fields : Fields) {space : Text}
    (h : Space space) (rest : Text) :
    readFields (fuel + 1) first fields (space ++ '\x7d' :: rest) = .ok (fields, rest) := by
  rw [readFields, nextName_end first h]
  rfl

theorem readFields_member {member : Text × Value} {text : Text}
    (h : Spells (.member member) text) {first : Bool} {lead : Text} (hlead : Lead first lead)
    {rest : Text} (hrest : EndsNumber rest) (fuel : Nat) (fields : Fields) :
    ∃ after, Space after ∧
      (readFields (fuel + 1) first fields (lead ++ (text ++ rest))).toOption =
        (fields.add member).bind fun next =>
          (readFields fuel false next (after ++ rest)).toOption := by
  cases h with
  | @member name value before written space text hbefore hname hspace hvalue =>
    obtain ⟨after, hafter, hread⟩ := readField_eq fields name hspace hvalue hrest
    refine ⟨after, hafter, ?_⟩
    have htext : lead ++ (before ++ '"' :: (written ++ '"' :: (space ++ ':' :: text)) ++ rest) =
        lead ++ (before ++ '"' :: (written ++ '"' :: (space ++ ':' :: (text ++ rest)))) := by
      simp
    rw [readFields, htext, nextName_member hlead hbefore]
    refine (toOption_bind (readString (written ++ _)) _).trans ?_
    rw [readString_of_stringText hname]
    refine (toOption_bind (fields.readField name _) _).trans ?_
    rw [hread]
    cases fields.add (name, value) <;> rfl

/-- All members are added in turn, and the reader stops behind the end of the object. -/
theorem readFields_members {members : List (Text × Value)} {text : Text}
    (h : Spells (.members members) text) {first : Bool} {lead : Text} (hlead : Lead first lead)
    {fuel : Nat} (hfuel : members.length < fuel) (fields : Fields) (rest : Text) :
    (readFields fuel first fields (lead ++ (text ++ '\x7d' :: rest))).toOption =
      (members.foldlM Fields.add fields).map fun result => (result, rest) := by
  induction members generalizing text first lead fuel fields with
  | nil => cases h
  | cons member members ih =>
    obtain ⟨fuel, rfl⟩ := Nat.exists_eq_succ_of_ne_zero (Nat.ne_of_gt (Nat.zero_lt_of_lt hfuel))
    cases h with
    | lastMember hmember =>
      have hends : EndsNumber ('\x7d' :: rest) := @endsNumber_cons _ .object (.inr rfl) _
      obtain ⟨after, hafter, hread⟩ := readFields_member hmember hlead hends fuel fields
      obtain ⟨fuel, rfl⟩ := Nat.exists_eq_succ_of_ne_zero (by simpa using Nat.ne_of_gt hfuel)
      rw [hread, List.foldlM_cons]
      cases fields.add member with
      | none => rfl
      | some next => simp [readFields_end _ _ _ hafter, Except.toOption]
    | @nextMember _ _ text more hmember hmembers =>
      have hends : EndsNumber (',' :: (more ++ '\x7d' :: rest)) :=
        @endsNumber_cons _ .object (.inl rfl) _
      obtain ⟨after, hafter, hread⟩ := readFields_member hmember hlead hends fuel fields
      have hnext : Lead false (after ++ [',']) := ⟨after, hafter, rfl⟩
      have hcut : text ++ ',' :: more ++ '\x7d' :: rest =
          text ++ ',' :: (more ++ '\x7d' :: rest) := by simp
      rw [hcut, hread, List.foldlM_cons]
      cases fields.add member with
      | none => rfl
      | some next =>
        have hrest := ih hmembers hnext (Nat.lt_of_succ_lt_succ hfuel) next
        simpa using hrest

theorem length_le_of_members {members : List (Text × Value)} {text : Text}
    (h : Spells (.members members) text) : members.length ≤ text.length := by
  induction members generalizing text with
  | nil => exact Nat.zero_le _
  | cons member members ih =>
    cases h with
    | lastMember hmember =>
      obtain ⟨before, c, rest, rfl, -⟩ := hmember.opens
      simp
      omega
    | nextMember _ hmembers =>
      have hle := ih hmembers
      simp only [List.length_cons, List.length_append]
      omega

theorem toOption_ofJson_object {before : Text} (hbefore : Space before) (body : Text) :
    (ofJson (before ++ '\x7b' :: body)).toOption =
      (readFields (body.length + 1) true {} body).toOption.bind fun read =>
        if (skipSpace read.2).isEmpty then some read.1.settings else none := by
  rw [ofJson, readSettings, skipSpace_append hbefore, skipSpace_cons (by decide)]
  refine (toOption_bind (readObject body) _).trans ?_
  rw [readObject]
  refine (congrArg (Option.bind · _) (toOption_bind (readFields _ true {} body) _)).trans ?_
  rw [Option.bind_assoc]
  congr 1
  funext read
  change (if _ then _ else _ : Except Error Settings).toOption = _
  split_ifs <;> rfl

/-- The settings of an object are those of its members, added in turn. -/
theorem toOption_ofJson {members : List (Text × Value)} {text : Text}
    (h : Spells (.element (.object members)) text) :
    (ofJson text).toOption = (members.foldlM Fields.add {}).map Fields.settings := by
  cases h with
  | @element _ before object after hbefore hobject hafter =>
    have hclosed : ∀ body : Text, object = '\x7b' :: body →
        (readFields ((body ++ after).length + 1) true {} (body ++ after)).toOption =
          (members.foldlM Fields.add {}).map fun result => (result, after) := by
      cases hobject with
      | emptyObject hspace =>
        rintro _ ⟨⟩
        rw [List.append_assoc, List.singleton_append, readFields_end _ _ _ hspace]
        rfl
      | object hmembers =>
        rintro _ ⟨⟩
        have hfirst : Lead true [] := rfl
        have hle := length_le_of_members hmembers
        rw [List.append_assoc, List.singleton_append]
        refine readFields_members hmembers hfirst ?_ {} after
        simp only [List.length_append]
        omega
    obtain ⟨body, rfl⟩ : ∃ body, object = '\x7b' :: body := by cases hobject <;> exact ⟨_, rfl⟩
    rw [List.cons_append, toOption_ofJson_object hbefore, hclosed body rfl]
    cases members.foldlM Fields.add {} <;> simp [skipSpace_of_space hafter]

end SceneDowngrade.Settings
