import Mathlib.Data.List.Chain
import SceneDowngrade.Proofs.Scene.LineBreaks

/-!
# Scenes that are old already

A scene in the older format, with blank lines exactly where the older format has them, has nothing
in it that the downgrade looks for. It is written again as it is: the blank line before each node is
dropped and put back.
-/
namespace SceneDowngrade.Scene

open Text

instance (text : Text) : Decidable (uidAttribute.Absent text) :=
  decidable_of_iff _ (QuotedSpan.runs_eq_nil_iff uidAttribute_delimited)

instance (text : Text) : Decidable (idAttribute.Absent text) :=
  decidable_of_iff _ (QuotedSpan.runs_eq_nil_iff idAttribute_delimited)

/-- A header line of the older format. -/
structure OlderHeader (header : Text) : Prop where
  trimmed : header.Trimmed
  format : ¬ newFormat <:+: header
  uid : uidAttribute.Absent header

/-- A line below the header that has nothing of the newer format in it. -/
structure OlderLine (line : Text) : Prop where
  trimmed : line.Trimmed
  declaration : LineKind.ofTrimmed line = .extResource →
    ¬ "Texture2D".toList <:+: line ∧ uidAttribute.Absent line ∧ idAttribute.Absent line
  property : LineKind.ofTrimmed line = .property →
    ∀ rename ∈ tokenRenames, ¬ rename.1 <:+: line

instance (line : Text) : Decidable (OlderLine line) :=
  decidable_of_iff
    (line.Trimmed ∧
      (LineKind.ofTrimmed line = .extResource →
        ¬ "Texture2D".toList <:+: line ∧ uidAttribute.Absent line ∧ idAttribute.Absent line) ∧
      (LineKind.ofTrimmed line = .property → ∀ rename ∈ tokenRenames, ¬ rename.1 <:+: line))
    ⟨fun ⟨h₁, h₂, h₃⟩ => ⟨h₁, h₂, h₃⟩, fun ⟨h₁, h₂, h₃⟩ => ⟨h₁, h₂, h₃⟩⟩

/-- The line sets off no preset in the line above it. -/
def KeepsPresets (above line : Text) : Prop :=
  LineKind.ofTrimmed line = .property →
    ∀ rule ∈ anchorRules, ¬ (rule.layoutMode <:+: line ∧ rule.token <:+: above)

instance (above line : Text) : Decidable (KeepsPresets above line) :=
  inferInstanceAs (Decidable (_ → _))

/-- A scene of the older format. Below its header an empty line stands before each line that opens a
node and nowhere else; the line right below the header opens none. -/
structure OlderScene (header : Text) (lines : List Text) : Prop where
  top : OlderHeader header
  body : ∀ line ∈ lines, OlderLine line
  breaks : ∀ line ∈ header :: lines, ∀ c ∈ terminators, c ∉ line
  presets : (header :: lines).IsChain KeepsPresets
  spacing : lines.IsChain fun line next => line = [] ↔ nodeMarker <+: next
  first : ∀ line ∈ lines.head?, ¬ nodeMarker <+: line
  last : ∀ line ∈ lines.getLast?, line ≠ []

theorem OlderHeader.downgradeHeader_eq {header : Text} (h : OlderHeader header) :
    downgradeHeader header = header := by
  rw [downgradeHeader, trim_of_trimmed h.trimmed, replaceAll_of_not_isInfix h.format,
    QuotedSpan.removeFrom_of_absent uidAttribute_delimited h.uid]

namespace OlderLine

variable {line : Text}

theorem plainDeclaration_eq (h : OlderLine line) (hkind : LineKind.ofTrimmed line = .extResource) :
    plainDeclaration line = line := by
  obtain ⟨htexture, huid, -⟩ := h.declaration hkind
  rw [plainDeclaration, replaceAll_of_not_isInfix htexture,
    QuotedSpan.removeFrom_of_absent uidAttribute_delimited huid]

theorem declaredId?_eq (h : OlderLine line) (hkind : LineKind.ofTrimmed line = .extResource) :
    declaredId? (plainDeclaration line) = none := by
  obtain ⟨-, -, hid⟩ := h.declaration hkind
  rw [h.plainDeclaration_eq hkind, declaredId?,
    (QuotedSpan.runs_eq_nil_iff idAttribute_delimited).2 hid, List.head?_nil]

theorem afterLine_eq (h : OlderLine line) (table : ResourceTable) :
    table.afterLine line = table := by
  have hnone : capturedId? line = none := by
    rw [capturedId?, trim_of_trimmed h.trimmed]
    split
    · exact h.declaredId?_eq ‹_›
    · rfl
  rw [ResourceTable.afterLine_eq, hnone, Option.map_none, Option.getD_none]

/-- Below a table without entries the first pass keeps the line. -/
theorem ofLine_eq (h : OlderLine line) (above : Text) :
    Draft.ofLine {} above line = ⟨LineKind.ofTrimmed line, above, line⟩ := by
  rw [Draft.ofLine, trim_of_trimmed h.trimmed]
  cases hkind : LineKind.ofTrimmed line with
  | extResource =>
    simp only [ResourceTable.declare, h.declaredId?_eq hkind]
    rw [h.plainDeclaration_eq hkind]
  | node => rfl
  | property =>
    have hsame : renameTokens line = line := replaceEach_of_not_isInfix (h.property hkind)
    simp only [numberReferences_nil, hsame]
  | blank =>
    rw [ofTrimmed_eq_blank_iff.1 hkind]

theorem rules_eq_nil (h : OlderLine line) {above : Text} (hpresets : KeepsPresets above line) :
    (Draft.ofLine {} above line).rules = [] := by
  rw [h.ofLine_eq, Draft.rules]
  split_ifs with hkind
  · refine List.filter_eq_nil_iff.2 fun rule hrule happlies => hpresets hkind rule hrule ?_
    rwa [AnchorRule.applies, Bool.and_eq_true, occursIn_iff_infix, occursIn_iff_infix] at happlies
  · rfl

end OlderLine

/-- The empty line that the downgrade puts before these lines. -/
def gapBefore (lines : List Text) : List Text :=
  if ∃ line ∈ lines.head?, nodeMarker <+: line then [[]] else []

theorem gapBefore_cons (line : Text) (lines : List Text) :
    gapBefore (line :: lines) = if nodeMarker <+: line then [[]] else [] := by
  simp [gapBefore]

theorem gapBefore_below {line : Text} {lines : List Text}
    (hspacing : (line :: lines).IsChain fun line next => line = [] ↔ nodeMarker <+: next)
    (hlast : ∀ last ∈ (line :: lines).getLast?, last ≠ []) :
    gapBefore lines = if line = [] then [[]] else [] := by
  cases lines with
  | nil =>
    rw [if_neg (hlast line rfl)]
    rfl
  | cons next lines =>
    obtain ⟨hnext, -⟩ := List.isChain_cons_cons.1 hspacing
    rw [gapBefore_cons]
    split_ifs <;> simp_all

/-- The entries of a line that keeps its text, and the gap below it if it is empty. -/
theorem entries_append_gap (line : Text) :
    (LineKind.ofTrimmed line).entries line ++ (if line = [] then [[]] else []) =
      (if nodeMarker <+: line then [[]] else []) ++ [line] := by
  by_cases hempty : line = []
  · rw [hempty]
    decide
  · rw [if_neg hempty, List.append_nil,
      LineKind.entries_of_not_blank (mt ofTrimmed_eq_blank_iff.1 hempty)]
    simp only [ofTrimmed_eq_node_iff]

/-- An empty line is dropped, and comes back as the gap before the lines below it. -/
theorem secondPass_of_older {above : Text} {lines : List Text}
    (hbody : ∀ line ∈ lines, OlderLine line)
    (hpresets : (above :: lines).IsChain KeepsPresets)
    (hspacing : lines.IsChain fun line next => line = [] ↔ nodeMarker <+: next)
    (hlast : ∀ line ∈ lines.getLast?, line ≠ []) :
    firstRules (firstPass {} above lines) = [] ∧
      secondPass (firstPass {} above lines) = gapBefore lines ++ lines := by
  induction lines generalizing above with
  | nil => exact ⟨rfl, rfl⟩
  | cons line lines ih =>
    obtain ⟨hline, hrest⟩ := List.forall_mem_cons.1 hbody
    obtain ⟨hpreset, hchain⟩ := List.isChain_cons_cons.1 hpresets
    have hgap := gapBefore_below hspacing hlast
    have hlast' : ∀ line ∈ lines.getLast?, line ≠ [] := fun last hmem =>
      hlast last (by rw [List.getLast?_cons, hmem]; rfl)
    obtain ⟨hrules, hpass⟩ := ih hrest hchain hspacing.tail hlast'
    have hnone := hline.rules_eq_nil hpreset
    rw [firstPass, hline.afterLine_eq, firstRules_cons, secondPass_cons, hrules, hpass, hgap]
    have hsettled : (Draft.ofLine {} above line).settled [] = line := by
      rw [Draft.settled_of_no_rules hnone, hline.ofLine_eq]
      rfl
    refine ⟨hnone, ?_⟩
    rw [hsettled, Draft.kind_ofLine, trim_of_trimmed hline.trimmed, gapBefore_cons,
      ← List.append_assoc, entries_append_gap, List.append_assoc, List.singleton_append]

/-- A scene that is old already is downgraded to itself. -/
theorem downgrade_ofLines_of_older {header : Text} {lines : List Text}
    (h : OlderScene header lines) :
    downgrade (ofLines (header :: lines)) = .ok (ofLines (header :: lines)) := by
  have hread : (ofLines (header :: lines)).lines = header :: lines :=
    lines_ofLines_of_notMem (List.cons_ne_nil _ _) fun line hline =>
      ⟨h.breaks line hline _ (by decide), h.breaks line hline _ (by decide)⟩
  obtain ⟨hrules, hpass⟩ := secondPass_of_older h.body h.presets h.spacing h.last
  have hgap : gapBefore lines = [] := by
    rw [gapBefore, if_neg]
    rintro ⟨line, hline, hnode⟩
    exact h.first line hline hnode
  have hlines : twoPassLines header lines = header :: lines := by
    rw [twoPassLines, hrules, hpass, hgap, h.top.downgradeHeader_eq]
    rfl
  obtain ⟨hscene, -, -⟩ := Pass.start_run_finish header lines
  rw [downgrade, downgradeText, hread]
  change Except.ok (ofLines ((Pass.start header).run 1 header lines).finish.lines) = _
  rw [hscene, hlines]

def olderHeader : Text := "[gd_scene load_steps=2 format=2]".toList

/-- A numbered declaration, a node with a reference to it, and a preset whose layout mode is not on
the next line. -/
def olderLines : List Text :=
  ["[ext_resource path=\"res://a.png\" type=\"Texture\" id=1]".toList, [],
    "[node name=\"S\" type=\"Sprite2D\"]".toList, "texture = ExtResource( 1 )".toList,
    "anchors_preset = 8".toList, "layout_mode = 3".toList]

theorem olderScene_older : OlderScene olderHeader olderLines where
  top := ⟨by decide, by decide, by decide⟩
  body := by decide +kernel
  breaks := by
    have hbreaks : ∀ line ∈ olderHeader :: olderLines, '\n' ∉ line ∧ '\r' ∉ line := by
      decide +kernel
    intro line hline
    obtain ⟨hfeed, hreturn⟩ := hbreaks line hline
    exact List.forall_mem_cons.2 ⟨hfeed, List.forall_mem_singleton.2 hreturn⟩
  presets := by decide +kernel
  spacing := by decide +kernel
  first := by decide +kernel
  last := by decide +kernel

theorem downgrade_ofLines_of_older_numbered : OlderScene olderHeader olderLines ∧
    downgrade (ofLines (olderHeader :: olderLines)) = .ok (ofLines (olderHeader :: olderLines)) :=
  ⟨olderScene_older, downgrade_ofLines_of_older olderScene_older⟩

end SceneDowngrade.Scene
