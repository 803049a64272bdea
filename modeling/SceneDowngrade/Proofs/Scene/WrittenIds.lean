import SceneDowngrade.Proofs.Scene.Ranks
import SceneDowngrade.Proofs.Scene.Renaming
import SceneDowngrade.Proofs.Scene.Resolution

/-!
# Ids as they are written

A declaration is numbered by its id with the older texture type in it, a reference by the id as it
is written. The two are the same exactly if the newer texture type is not in the id: else the
reference never gets the numeral of the declaration, and two declarations may share one.
-/
namespace SceneDowngrade.Scene

open Text

theorem olderValue_eq_self_iff {value : Text} :
    olderValue value = value ↔ ¬ "Texture2D".toList <:+: value :=
  replaceAll_eq_self_iff (by decide)

theorem numeral_injective : Function.Injective numeral := by
  have hread : Function.LeftInverse (fun digits => Nat.ofDigitChars 10 digits 0) numeral :=
    fun _ => Nat.ofDigitChars_ten_toDigits
  exact hread.injective

theorem numberedReference_injective : Function.Injective numberedReference := by
  intro number other h
  rw [numberedReference_eq, numberedReference_eq, List.append_cancel_left_eq, List.cons_inj_right,
    List.cons_inj_right, List.append_cancel_right_eq] at h
  exact numeral_injective h

theorem numberedReference_ne_reference (number : Nat) (id : Text) :
    numberedReference number ≠ reference id := by
  rw [numberedReference_eq, reference_eq, Ne, List.append_cancel_left_eq]
  simp

/-- The declarations are rows of attributes with one id each, which has no parentheses. -/
def DeclaresRows (lines : List Text) : Prop :=
  ∀ raw ∈ lines, LineKind.ofTrimmed raw.trim = .extResource →
    ∃ id, DeclaredOn raw id ∧ '(' ∉ id ∧ ')' ∉ id

/-- The output line at this position has this numeral for its id. -/
def HasNumeral (scene : Downgraded) (position number : Nat) : Prop :=
  ∃ text, scene.lines[position]? = some text ∧ fieldOn? idName text = some (.bare (numeral number))

theorem HasNumeral.unique {scene : Downgraded} {position number other : Nat}
    (h : HasNumeral scene position number) (ho : HasNumeral scene position other) :
    number = other := by
  obtain ⟨text, htext, hnumber⟩ := h
  obtain ⟨same, hsame, hother⟩ := ho
  obtain rfl := Option.some_inj.1 (htext.symm.trans hsame)
  have hvalue := hnumber.symm.trans hother
  exact numeral_injective (FieldValue.bare.inj (Option.some_inj.1 hvalue))

section
variable {raw id : Text}

theorem DeclaredOn.quote (h : DeclaredOn raw id) : '"' ∉ id := by
  obtain ⟨attributes, -, hdeclares⟩ := h
  have hmem : (⟨idName, id⟩ : Attribute) ∈ attributes.filter (·.name = idName) := by
    simp [hdeclares.ids]
  exact (hdeclares.regular _ (List.mem_filter.1 hmem).1).quote

theorem DeclaredOn.fieldOn?_id (h : DeclaredOn raw id) (header : Text) (above below : List Text) :
    fieldOn? idName (settledLine header above raw below) =
      some (.bare (numeral ((capturedIds (above ++ raw :: below)).idxOf (olderValue id) + 1))) := by
  have hrank := number_assign_eq_rank h.captured above below
  obtain ⟨attributes, hraw, hdeclares⟩ := h
  rw [hdeclares.fieldOn?_id hraw, hrank]

theorem DeclaredOn.mem_capturedIds (h : DeclaredOn raw id) (above below : List Text) :
    olderValue id ∈ capturedIds (above ++ raw :: below) := by
  rw [capturedIds, List.mem_eraseDups, List.mem_filterMap]
  exact ⟨raw, by simp, h.captured⟩

end

theorem DeclaresRows.bare {lines : List Text} (h : DeclaresRows lines) {raw id : Text}
    (hraw : raw ∈ lines) (hid : capturedId? raw = some id) : Bare id := by
  obtain ⟨written, hwritten, hopen, hclose⟩ := h raw hraw (kind_of_captured hid)
  obtain rfl := Option.some_inj.1 (hwritten.captured.symm.trans hid)
  have hne : "Texture2D".toList ≠ [] := by decide
  exact ⟨notMem_replaceAll hne (by decide) hwritten.quote,
    notMem_replaceAll hne (by decide) hopen, notMem_replaceAll hne (by decide) hclose⟩

section
variable {raw id : Text} {above : List Text} {number : Nat}

/-- A reference gets a numeral exactly if the table has it under the id as it is written. -/
theorem settledLine_eq_numbered_iff (hkind : LineKind.ofTrimmed raw.trim = .property)
    (hbare : ∀ line ∈ above, ∀ other, capturedId? line = some other → Bare other)
    (hid : '"' ∉ id) {front back : Text} (hraw : raw.trim = front ++ reference id ++ back)
    (header : Text) (below : List Text) :
    settledLine header above raw below =
        editedPart header above raw below front ++ numberedReference number ++
          editedPart header above raw below back ↔
      (ResourceTable.afterLines {} above).get? id = some number := by
  cases hget : (ResourceTable.afterLines {} above).get? id with
  | none =>
    rw [settledLine_append_undeclared hkind hbare hid hget hraw, List.append_cancel_right_eq,
      List.append_cancel_left_eq]
    exact iff_of_false (numberedReference_ne_reference number _).symm (by simp)
  | some given =>
    rw [settledLine_append_reference hkind hbare hget hraw, List.append_cancel_right_eq,
      List.append_cancel_left_eq, numberedReference_injective.eq_iff, Option.some_inj]

end

/-- Two declarations share a numeral exactly if their ids are the same once the older texture type
is in them. A reference on a property line gets the numeral of a declaration of its id exactly if
the newer texture type is not in the id. -/
theorem written_ids_iff {lines : List Text} (h : DeclaresRows lines) (header : Text) :
    ∃ scene, downgradeLines (header :: lines) = .ok scene ∧
      ∀ above raw rest id, lines = above ++ raw :: rest → DeclaredOn raw id →
        ∃ number, HasNumeral scene (entryCount (above ++ [raw])) number ∧
          (∀ above' raw' rest' id' number', lines = above' ++ raw' :: rest' →
            DeclaredOn raw' id' → HasNumeral scene (entryCount (above' ++ [raw'])) number' →
              (number = number' ↔ olderValue id = olderValue id')) ∧
          ∀ between line below, rest = between ++ line :: below →
            LineKind.ofTrimmed line.trim = .property →
              ∀ front back, line.trim = front ++ reference id ++ back →
                let before := above ++ raw :: between
                (scene.lines[entryCount (before ++ [line])]? =
                    some (editedPart header before line below front ++ numberedReference number ++
                      editedPart header before line below back) ↔
                  ¬ "Texture2D".toList <:+: id) := by
  obtain ⟨hlines, -, -⟩ := Pass.start_run_finish header lines
  refine ⟨_, rfl, ?_⟩
  have hposition : ∀ above raw rest id, lines = above ++ raw :: rest → DeclaredOn raw id →
      HasNumeral (((Pass.start header).run 1 header lines).finish) (entryCount (above ++ [raw]))
        ((capturedIds lines).idxOf (olderValue id) + 1) := by
    rintro above raw rest id rfl hid
    refine ⟨settledLine header above raw rest, ?_, hid.fieldOn?_id header above rest⟩
    rw [hlines, getElem?_twoPassLines (by simp [hid.kind])]
  intro above raw rest id he hid
  refine ⟨_, hposition above raw rest id he hid, ?_, ?_⟩
  · intro above' raw' rest' id' number' he' hid' hnumber'
    obtain rfl := hnumber'.unique (hposition above' raw' rest' id' he' hid')
    have hmem : olderValue id ∈ capturedIds lines := he ▸ hid.mem_capturedIds above rest
    rw [Nat.add_right_cancel_iff, List.idxOf_inj hmem]
  · rintro between line below rfl hkind front back hline before
    have hbefore : before ++ line :: below = lines := by simp [before, he]
    have hbare : ∀ other ∈ before, ∀ captured, capturedId? other = some captured →
        Bare captured := fun other hother captured hcaptured =>
      h.bare (hbefore ▸ List.mem_append_left _ hother) hcaptured
    have hmem : olderValue id ∈ capturedIds before := hid.mem_capturedIds above between
    rw [hlines, ← hbefore, getElem?_twoPassLines (by simp [hkind]), Option.some_inj,
      settledLine_eq_numbered_iff hkind hbare hid.quote hline, rank_append hmem,
      get?_eq_rank_iff hmem, eq_comm, olderValue_eq_self_iff]

theorem declaresRows_icon : DeclaresRows [iconDeclaration, iconProperty] := by
  intro raw hraw hkind
  simp only [List.mem_cons, List.not_mem_nil, or_false] at hraw
  rcases hraw with rfl | rfl
  · exact ⟨_, declaredOn_iconDeclaration, by decide, by decide⟩
  · cases kind_icon.2.symm.trans hkind

theorem written_ids_iff_icon :
    DeclaresRows [iconDeclaration, iconProperty] ∧
      ∃ scene number,
        downgradeLines ["[gd_scene]".toList, iconDeclaration, iconProperty] = .ok scene ∧
        HasNumeral scene 1 number ∧
        scene.lines[2]? = some ("texture = ".toList ++ numberedReference number) := by
  have hfront : editedPart "[gd_scene]".toList [iconDeclaration] iconProperty []
      "texture = ".toList = "texture = ".toList := by decide +kernel
  have hback : editedPart "[gd_scene]".toList [iconDeclaration] iconProperty [] [] = [] := by
    decide
  obtain ⟨scene, hscene, hall⟩ := written_ids_iff declaresRows_icon "[gd_scene]".toList
  obtain ⟨number, hnumber, -, hreference⟩ :=
    hall [] iconDeclaration [iconProperty] _ rfl declaredOn_iconDeclaration
  have hline := (hreference [] iconProperty [] rfl kind_icon.2 "texture = ".toList [] (by decide)).2
    (by decide)
  simp only [List.nil_append] at hline
  rw [hfront, hback, List.append_nil] at hline
  exact ⟨declaresRows_icon, scene, number, hscene, hnumber, hline⟩

def newerIdLines : List Text :=
  ["[ext_resource id=\"1_Texture2D\"]".toList, "[ext_resource id=\"1_Texture\"]".toList,
    "script = ExtResource(\"1_Texture2D\")".toList]

theorem declaredOn_newerIdLines :
    DeclaredOn newerIdLines[0] "1_Texture2D".toList ∧
      DeclaredOn newerIdLines[1] "1_Texture".toList :=
  ⟨⟨[⟨idName, "1_Texture2D".toList⟩], by decide, by decide⟩,
    ⟨[⟨idName, "1_Texture".toList⟩], by decide, by decide⟩⟩

/-- Two ids share a numeral, and the reference to the first is left as it is. -/
theorem written_ids_confused :
    DeclaresRows newerIdLines ∧ DeclaredOn newerIdLines[0] "1_Texture2D".toList ∧
      DeclaredOn newerIdLines[1] "1_Texture".toList ∧
      ∃ scene, downgradeLines ("[gd_scene]".toList :: newerIdLines) = .ok scene ∧
        HasNumeral scene 1 1 ∧ HasNumeral scene 2 1 ∧
        LineKind.ofTrimmed (trim newerIdLines[2]) = .property ∧
        reference "1_Texture2D".toList <:+: newerIdLines[2] ∧
        scene.lines[3]? = some newerIdLines[2] := by
  obtain ⟨hfirst, hsecond⟩ := declaredOn_newerIdLines
  refine ⟨?_, hfirst, hsecond, _, rfl, ⟨_, rfl, by decide +kernel⟩, ⟨_, rfl, by decide +kernel⟩,
    by decide, ⟨"script = ".toList, [], by decide⟩, by decide +kernel⟩
  intro raw hraw hkind
  simp only [newerIdLines, List.mem_cons, List.not_mem_nil, or_false] at hraw
  rcases hraw with rfl | rfl | rfl
  · exact ⟨_, hfirst, by decide, by decide⟩
  · exact ⟨_, hsecond, by decide, by decide⟩
  · exact absurd hkind (by decide)

end SceneDowngrade.Scene
