import SceneDowngrade.Proofs.Scene.Edits
import SceneDowngrade.Proofs.Scene.TwoPasses

/-!
# What becomes of references

A reference below the declaration of its id is numbered if it stands on a property line. A node line
is only ever edited by the presets, so a reference on it stays as it is.
-/
namespace SceneDowngrade.Scene

open Text

/-- The edits that reach the source line `raw` after its references are numbered. -/
def editsOn (header : Text) (above : List Text) (raw : Text) (below : List Text) :
    List (Text × Text) :=
  let table := ResourceTable.afterLines {} above
  let draft := Draft.ofLine table (above.getLastD header) raw
  (if draft.kind = .property then tokenRenames else []) ++ draft.rules.flatMap (·.renames) ++
    (firstRules (firstPass (table.afterLine raw) raw below)).map (·.expansionPair)

theorem safeEdits_editsOn (header : Text) (above : List Text) (raw : Text) (below : List Text) :
    SafeEdits (editsOn header above raw below) := by
  intro pair hpair
  rw [editsOn, List.mem_append, List.mem_append] at hpair
  rcases hpair with (htoken | hrename) | hexpansion
  · split_ifs at htoken
    · exact safeEdits_tokenRenames pair htoken
    · simp at htoken
  · obtain ⟨rule, hrule, hpair⟩ := List.mem_flatMap.1 hrename
    exact (AnchorRule.safeEdits rule (Draft.rules_subset _ hrule)).1 pair hpair
  · obtain ⟨rule, hrule, rfl⟩ := List.mem_map.1 hexpansion
    exact (AnchorRule.safeEdits rule (firstRules_subset _ hrule)).2

theorem settledLine_of_node {raw : Text} (hkind : LineKind.ofTrimmed raw.trim = .node)
    (header : Text) (above below : List Text) :
    settledLine header above raw below = raw.trim.replaceEach (editsOn header above raw below) := by
  simp [settledLine, editsOn, Draft.settled, Draft.renamed, Draft.rules, Draft.ofLine, hkind]

theorem settledLine_of_property {raw : Text} (hkind : LineKind.ofTrimmed raw.trim = .property)
    (header : Text) (above below : List Text) :
    settledLine header above raw below =
      (numberReferences (ResourceTable.afterLines {} above) raw.trim).replaceEach
        (editsOn header above raw below) := by
  simp [settledLine, editsOn, Draft.settled, Draft.renamed, Draft.ofLine, hkind, renameTokens,
    replaceEach_append]

/-- The ids captured above a line are those that its references can be numbered by. -/
theorem mem_ids_above_iff {above : List Text} {id : Text} :
    id ∈ (ResourceTable.afterLines {} above).ids ↔ ∃ line ∈ above, capturedId? line = some id := by
  rw [ResourceTable.mem_ids_afterLines_iff]
  simp [ResourceTable.ids]

theorem quote_notMem_ids_above {above : List Text} :
    ∀ id ∈ (ResourceTable.afterLines {} above).ids, '"' ∉ id := by
  intro id hid
  obtain ⟨line, -, hline⟩ := mem_ids_above_iff.1 hid
  exact quote_notMem_of_capturedId? hline

theorem bare_ids_above {above : List Text}
    (h : ∀ line ∈ above, ∀ id, capturedId? line = some id → Bare id) :
    ∀ id ∈ (ResourceTable.afterLines {} above).ids, Bare id := by
  intro id hid
  obtain ⟨line, hline, hcaptured⟩ := mem_ids_above_iff.1 hid
  exact h line hline id hcaptured

/-- A reference in the output of a line comes from one on the line that was not numbered, by
whatever the edits make of its id. -/
theorem infix_settledLine_iff {raw id : Text} (hid : Bare id)
    (hkind : LineKind.ofTrimmed raw.trim = .node ∨ LineKind.ofTrimmed raw.trim = .property)
    (header : Text) (above below : List Text) :
    reference id <:+: settledLine header above raw below ↔
      ∃ other, reference other <:+: raw.trim ∧
        (LineKind.ofTrimmed raw.trim = .property → ∀ line ∈ above, capturedId? line ≠ some other) ∧
        other.replaceEach (editsOn header above raw below) = id := by
  have hsafe := safeEdits_editsOn header above raw below
  rcases hkind with hkind | hkind
  · rw [settledLine_of_node hkind, hsafe.infix_replaceEach_iff]
    simp [hkind]
  · rw [settledLine_of_property hkind, hsafe.infix_replaceEach_iff]
    refine exists_congr fun other => ?_
    have hundeclared : other ∉ (ResourceTable.afterLines {} above).ids ↔
        (LineKind.ofTrimmed raw.trim = .property →
          ∀ line ∈ above, capturedId? line ≠ some other) := by
      rw [mem_ids_above_iff]
      simp [hkind]
    rw [← hundeclared, ← and_assoc]
    refine and_congr_left fun he => infix_numberReferences_iff quote_notMem_ids_above ?_ raw.trim
    rw [← hsafe.bare_replaceEach_iff, he]
    exact hid

def editedPart (header : Text) (above : List Text) (raw : Text) (below : List Text) (part : Text) :
    Text :=
  (numberReferences (ResourceTable.afterLines {} above) part).replaceEach
    (editsOn header above raw below)

theorem settledLine_append_reference {raw id : Text} {number : Nat} {above : List Text}
    (hkind : LineKind.ofTrimmed raw.trim = .property)
    (hbare : ∀ line ∈ above, ∀ other, capturedId? line = some other → Bare other)
    (hget : (ResourceTable.afterLines {} above).get? id = some number) {front back : Text}
    (hraw : raw.trim = front ++ reference id ++ back) (header : Text) (below : List Text) :
    settledLine header above raw below =
      editedPart header above raw below front ++ numberedReference number ++
        editedPart header above raw below back := by
  rw [settledLine_of_property hkind, hraw,
    numberReferences_append_reference (bare_ids_above hbare) hget,
    (safeEdits_editsOn header above raw below).replaceEach_append_numbered]
  rfl

theorem settledLine_append_undeclared {raw id : Text} {above : List Text}
    (hkind : LineKind.ofTrimmed raw.trim = .property)
    (hbare : ∀ line ∈ above, ∀ other, capturedId? line = some other → Bare other)
    (hid : '"' ∉ id) (hget : (ResourceTable.afterLines {} above).get? id = none)
    {front back : Text} (hraw : raw.trim = front ++ reference id ++ back) (header : Text)
    (below : List Text) :
    settledLine header above raw below =
      editedPart header above raw below front ++
        reference (id.replaceEach (editsOn header above raw below)) ++
        editedPart header above raw below back := by
  rw [settledLine_of_property hkind, hraw,
    numberReferences_append_undeclared (bare_ids_above hbare) hid hget,
    (safeEdits_editsOn header above raw below).replaceEach_append_reference]
  rfl

/-- Below the declaration of an id, a reference to it is left in the output of a line exactly if
the line had a reference that is not numbered there and whose id the edits make into this one: any
reference on a node line, one to an undeclared id on a property line. If no declared id has quotes
or parentheses, every reference on a property line gives way to the numeral of the table. -/
theorem reference_left_iff {raw id : Text} {above : List Text} (hid : Bare id)
    (hcaptured : ∃ line ∈ above, capturedId? line = some id)
    (hkind : LineKind.ofTrimmed raw.trim = .node ∨ LineKind.ofTrimmed raw.trim = .property)
    (header : Text) (below : List Text) :
    ∃ scene text number,
      downgradeLines (header :: (above ++ raw :: below)) = .ok scene ∧
      scene.lines[entryCount (above ++ [raw])]? = some text ∧
      scene.table.get? id = some number ∧
      (reference id <:+: text ↔ ∃ other, reference other <:+: raw.trim ∧
        (LineKind.ofTrimmed raw.trim = .property → ∀ line ∈ above, capturedId? line ≠ some other) ∧
        other.replaceEach (editsOn header above raw below) = id) ∧
      (LineKind.ofTrimmed raw.trim = .property →
        (∀ line ∈ above, ∀ other, capturedId? line = some other → Bare other) →
        ∀ front back, raw.trim = front ++ reference id ++ back →
          text = editedPart header above raw below front ++ numberedReference number ++
            editedPart header above raw below back) := by
  have hnotBlank : LineKind.ofTrimmed raw.trim ≠ .blank := by
    rcases hkind with h | h <;> simp [h]
  obtain ⟨hlines, htable, -⟩ := Pass.start_run_finish header (above ++ raw :: below)
  obtain ⟨number, hget⟩ : ∃ number, (ResourceTable.afterLines {} above).get? id = some number := by
    refine Option.ne_none_iff_exists'.1 fun hnone => ?_
    exact ResourceTable.get?_eq_none_iff.1 hnone (mem_ids_above_iff.2 hcaptured)
  refine ⟨_, settledLine header above raw below, number, rfl, ?_, ?_,
    infix_settledLine_iff hid hkind header above below, ?_⟩
  · rw [hlines]
    exact getElem?_twoPassLines hnotBlank header above below
  · rw [htable, ResourceTable.afterLines_append]
    exact ResourceTable.get?_afterLines_of_get? hget _
  · intro hproperty hbare front back hraw
    exact settledLine_append_reference hproperty hbare hget hraw header below

def sampleHeader : Text := "[gd_scene format=3]".toList

def sampleDeclaration : Text := "[ext_resource type=\"PackedScene\" id=\"a\"]".toList

def sampleProperty : Text := "scene = ExtResource(\"a\")".toList

def sampleNode : Text := "[node instance=ExtResource(\"a\")]".toList

theorem reference_left_iff_on_property :
    ∃ scene number, downgradeLines [sampleHeader, sampleDeclaration, sampleProperty] = .ok scene ∧
      scene.table.get? ['a'] = some number ∧
      scene.lines[2]? = some ("scene = ".toList ++ numberedReference number) := by
  have hcaptured : capturedId? sampleDeclaration = some ['a'] := by decide
  have hkind : LineKind.ofTrimmed (Text.trim sampleProperty) = .property := by decide
  have hbare : ∀ line ∈ [sampleDeclaration], ∀ other, capturedId? line = some other →
      Bare other := by
    intro line hline other hother
    rw [List.mem_singleton.1 hline, hcaptured] at hother
    exact Option.some_inj.1 hother ▸ by decide
  have hcount : entryCount ([sampleDeclaration] ++ [sampleProperty]) = 2 := by decide
  have hfront : editedPart sampleHeader [sampleDeclaration] sampleProperty [] "scene = ".toList =
      "scene = ".toList := by decide
  have hback : editedPart sampleHeader [sampleDeclaration] sampleProperty [] [] = [] := by decide
  obtain ⟨scene, text, number, hscene, htext, hget, -, hbecome⟩ :=
    reference_left_iff (by decide) ⟨_, List.mem_singleton_self _, hcaptured⟩ (.inr hkind)
      sampleHeader []
  have hbecome := hbecome hkind hbare "scene = ".toList [] (by decide)
  rw [hfront, hback, List.append_nil] at hbecome
  rw [hcount, hbecome] at htext
  exact ⟨scene, number, hscene, hget, htext⟩

/-- A node line keeps its reference although the declaration is numbered. -/
theorem reference_left_on_node :
    ∃ scene, downgradeLines [sampleHeader, sampleDeclaration, sampleNode] = .ok scene ∧
      capturedId? sampleDeclaration = some ['a'] ∧ Bare ['a'] ∧
      LineKind.ofTrimmed (Text.trim sampleNode) = .node ∧
      scene.lines[3]? = some sampleNode ∧ reference ['a'] <:+: sampleNode := by
  refine ⟨_, rfl, by decide, by decide, by decide, by decide, ?_⟩
  exact ⟨"[node instance=".toList, [']'], by decide⟩

end SceneDowngrade.Scene
