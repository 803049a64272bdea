import SceneDowngrade.Proofs.Scene.DeclaredRows

/-!
# Paths

The output declares the resources of the source in their order, and the k-th one is at the path of
the k-th one of the source. Only a preset in the path gives way to its anchors, if the line directly
below sets it off.
-/
namespace SceneDowngrade.Scene

open Text

def pathName : Text := "path".toList

/-- The lines that declare a resource, in their order. -/
def declarations (lines : List Text) : List Text :=
  lines.filter fun line => LineKind.ofTrimmed line = .extResource

/-- The line is a row of attributes with different names. -/
def RowOn (raw : Text) : Prop :=
  ∃ attributes, raw.trim = declarationText attributes ∧
    (∀ attr ∈ attributes, attr.Regular) ∧ (attributes.map (·.name)).Nodup

theorem declarations_append (lines more : List Text) :
    declarations (lines ++ more) = declarations lines ++ declarations more :=
  List.filter_append lines more

theorem declarations_cons (line : Text) (lines : List Text) :
    declarations (line :: lines) =
      (if LineKind.ofTrimmed line = .extResource then [line] else []) ++ declarations lines := by
  by_cases h : LineKind.ofTrimmed line = .extResource <;> simp [declarations, h]

theorem declarations_entries {below : List AnchorRule} (h : below ⊆ anchorRules)
    (table : ResourceTable) (above raw : Text) :
    declarations ((Draft.ofLine table above raw).kind.entries
        ((Draft.ofLine table above raw).settled below)) =
      if LineKind.ofTrimmed raw.trim = .extResource then
        [(Draft.ofLine table above raw).settled below] else [] := by
  have hkind := Draft.ofTrimmed_settled h table above raw
  have hempty : LineKind.ofTrimmed [] = .blank := by decide
  rw [Draft.kind_ofLine]
  cases hraw : LineKind.ofTrimmed raw.trim <;>
    simp [declarations, LineKind.entries, hkind, hraw, hempty]

/-- The declarations among some lines come before those below them. -/
theorem declarations_secondPass (table : ResourceTable) (above : Text) (lines : List Text)
    (drafts : List Draft) :
    ∃ front, front.length = (declarations (lines.map trim)).length ∧
      declarations (secondPass (firstPass table above lines ++ drafts)) =
        front ++ declarations (secondPass drafts) := by
  induction lines generalizing table above with
  | nil => exact ⟨[], rfl, rfl⟩
  | cons raw lines ih =>
    obtain ⟨front, hlength, hfront⟩ := ih (table.afterLine raw) raw
    rw [firstPass, List.cons_append, secondPass_cons, declarations_append, hfront,
      declarations_entries (firstRules_subset _), List.map_cons, declarations_cons,
      ← List.append_assoc]
    refine ⟨_, ?_, rfl⟩
    rw [List.length_append, List.length_append, hlength]
    split_ifs <;> rfl

theorem length_declarations (header : Text) (lines : List Text) :
    (declarations (twoPassLines header lines).tail).length =
      (declarations (lines.map trim)).length := by
  obtain ⟨front, hlength, hfront⟩ := declarations_secondPass {} header lines []
  have hnone : declarations (secondPass []) = [] := rfl
  rw [List.append_nil, hnone, List.append_nil] at hfront
  rw [twoPassLines, List.tail_cons, hfront, hlength]

theorem getElem?_declarations {raw : Text} (hkind : LineKind.ofTrimmed raw.trim = .extResource)
    (header : Text) (above below : List Text) :
    (declarations (twoPassLines header (above ++ raw :: below)).tail)[
        (declarations (above.map trim)).length]? =
      some (settledLine header above raw below) := by
  obtain ⟨front, hlength, hfront⟩ := declarations_secondPass {} header above
    (firstPass (.afterLines {} above) (above.getLastD header) (raw :: below))
  rw [twoPassLines, List.tail_cons, firstPass_append, hfront, ← hlength,
    List.getElem?_append_right (Nat.le_refl _), Nat.sub_self, firstPass, secondPass_cons,
    declarations_append, declarations_entries (firstRules_subset _), if_pos hkind]
  rfl

theorem expandEach_of_presetless {rules : List AnchorRule} (hrules : rules ⊆ anchorRules)
    {text : Text} (h : Presetless text) : expandEach rules text = text := by
  induction rules with
  | nil => rfl
  | cons rule rules ih =>
    obtain ⟨hrule, hrest⟩ := List.cons_subset.1 hrules
    have hkept : rule.expand text = text :=
      replaceAll_of_not_isInfix (occursIn_eq_false_iff.1 (h rule hrule))
    have hstep : expandEach (rule :: rules) text = expandEach rules (rule.expand text) := rfl
    rw [hstep, hkept, ih hrest]

theorem fieldOn?_path {raw : Text} (h : RowOn raw) (header : Text) (above below : List Text) :
    fieldOn? pathName (settledLine header above raw below) =
      (fieldOn? pathName raw.trim).map
        (.edit fun value => expandEach (rulesBelow above raw below) (olderValue value)) := by
  obtain ⟨attributes, hraw, hregular, hnames⟩ := h
  exact fieldOn?_settledLine hregular hnames hraw (by decide) (by decide) header above below

/-- If the declarations are rows of attributes, the output has as many of them in the same order.
Each has a path exactly if its source has one, and a path without the newer texture type is the same
but for the presets in it that the line directly below sets off. -/
theorem paths_kept {lines : List Text}
    (h : ∀ raw ∈ lines, LineKind.ofTrimmed raw.trim = .extResource → RowOn raw) (header : Text) :
    ∃ scene, downgradeLines (header :: lines) = .ok scene ∧
      (declarations scene.lines.tail).length = (declarations (lines.map trim)).length ∧
      ∀ above raw below, lines = above ++ raw :: below →
        LineKind.ofTrimmed raw.trim = .extResource →
          ∃ text, (declarations (lines.map trim))[(declarations (above.map trim)).length]? =
              some raw.trim ∧
            (declarations scene.lines.tail)[(declarations (above.map trim)).length]? = some text ∧
            (fieldOn? pathName text = none ↔ fieldOn? pathName raw.trim = none) ∧
            ∀ path, fieldOn? pathName raw.trim = some (.quoted path) →
              ¬ "Texture2D".toList <:+: path →
                fieldOn? pathName text =
                    some (.quoted (expandEach (rulesBelow above raw below) path)) ∧
                  (Presetless path → fieldOn? pathName text = some (.quoted path)) := by
  obtain ⟨hlines, -, -⟩ := Pass.start_run_finish header lines
  refine ⟨_, rfl, ?_, ?_⟩
  · rw [hlines, length_declarations]
  rintro above raw below rfl hkind
  have hrow := fieldOn?_path (h raw (by simp) hkind) header above below
  refine ⟨settledLine header above raw below, ?_, ?_, ?_, ?_⟩
  · rw [List.map_append, declarations_append, List.getElem?_append_right (Nat.le_refl _),
      Nat.sub_self, List.map_cons, declarations_cons, if_pos hkind]
    rfl
  · rw [hlines, getElem?_declarations hkind]
  · rw [hrow, Option.map_eq_none_iff]
  · intro path hpath htexture
    have holder : olderValue path = path := replaceAll_of_not_isInfix htexture
    have hedited : fieldOn? pathName (settledLine header above raw below) =
        some (.quoted (expandEach (rulesBelow above raw below) path)) := by
      rw [hrow, hpath, Option.map_some, FieldValue.edit, holder]
    refine ⟨hedited, fun hpresetless => ?_⟩
    rw [hedited, expandEach_of_presetless (rulesBelow_subset above raw below) hpresetless]

def iconLine : Text := "[ext_resource type=\"Texture2D\" path=\"res://icon.png\" id=\"1\"]".toList

theorem rowOn_iconLine : RowOn iconLine :=
  ⟨[⟨"type".toList, "Texture2D".toList⟩, ⟨pathName, "res://icon.png".toList⟩, ⟨idName, ['1']⟩],
    by decide, by decide, by decide⟩

theorem paths_kept_icon :
    RowOn iconLine ∧ ∃ scene text, downgradeLines ["[gd_scene]".toList, iconLine] = .ok scene ∧
      (declarations scene.lines.tail)[0]? = some text ∧
      fieldOn? pathName text = some (.quoted "res://icon.png".toList) := by
  have hkind : LineKind.ofTrimmed iconLine.trim = .extResource := by decide
  have hpath : fieldOn? pathName iconLine.trim = some (.quoted "res://icon.png".toList) := by
    decide
  have hpresetless : Presetless "res://icon.png".toList := by decide
  have hrows : ∀ raw ∈ [iconLine], LineKind.ofTrimmed raw.trim = .extResource → RowOn raw := by
    intro raw hraw _
    rw [List.mem_singleton.1 hraw]
    exact rowOn_iconLine
  obtain ⟨scene, hscene, -, hall⟩ := paths_kept hrows "[gd_scene]".toList
  obtain ⟨text, -, htext, -, hvalue⟩ := hall [] iconLine [] rfl hkind
  exact ⟨rowOn_iconLine, scene, text, hscene, htext,
    (hvalue _ hpath (by decide)).2 hpresetless⟩

/-- The layout mode on the next line expands the preset in a path as it does any other. -/
theorem path_expanded :
    (∀ raw ∈ presetPathLines, LineKind.ofTrimmed raw.trim = .extResource → RowOn raw) ∧
      ∃ scene, downgradeLines ("[gd_scene]".toList :: presetPathLines) = .ok scene ∧
        (declarations (presetPathLines.map trim)).map (fieldOn? pathName) =
          [some (.quoted "res://anchors_preset = 8.png".toList)] ∧
        (declarations scene.lines.tail).map (fieldOn? pathName) ≠
          (declarations (presetPathLines.map trim)).map (fieldOn? pathName) := by
  constructor
  · intro raw hraw hkind
    simp only [presetPathLines, List.mem_cons, List.not_mem_nil, or_false] at hraw
    rcases hraw with rfl | rfl
    · exact ⟨[⟨pathName, "res://anchors_preset = 8.png".toList⟩, ⟨idName, ['1']⟩], by decide,
        by decide, by decide⟩
    · exact absurd hkind (by decide)
  · exact ⟨_, rfl, by decide, by decide +kernel⟩

end SceneDowngrade.Scene
