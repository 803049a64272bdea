import SceneDowngrade.Proofs.Scene.TwoPasses

/-!
# Indented lines

Every line is trimmed before it is looked at, except where the anchor rules look for a preset in the
source line above. A preset token neither begins nor ends with a blank character, so it is in that
line exactly if it is in the trimmed one, and scenes that differ in indentation only are downgraded
alike.
-/
namespace SceneDowngrade.Scene

open Text

theorem AnchorRule.trimmed_token : ∀ rule ∈ anchorRules, rule.token ≠ [] ∧ rule.token.Trimmed := by
  decide +kernel

theorem rulesFor_trim (above line : Text) : rulesFor above.trim line = rulesFor above line := by
  refine List.filter_congr fun rule hrule => ?_
  obtain ⟨hne, htrimmed⟩ := AnchorRule.trimmed_token rule hrule
  have htoken : rule.token.occursIn above.trim = rule.token.occursIn above := by
    rw [Bool.eq_iff_iff, occursIn_iff_infix, occursIn_iff_infix, infix_trim_iff hne htrimmed]
  rw [AnchorRule.applies, AnchorRule.applies, htoken]

theorem downgradeHeader_trim (header : Text) :
    downgradeHeader header.trim = downgradeHeader header := by
  rw [downgradeHeader, downgradeHeader, trim_trim]

namespace Pass

theorem setProperty_trim (pass : Pass) (index : Nat) (above line : Text) :
    pass.setProperty index above.trim line = pass.setProperty index above line := by
  simp only [setProperty, expandAnchors_eq, rulesFor_trim, Anchoring.preset?, Anchoring.notices]

theorem step_trim (pass : Pass) (index : Nat) (above raw : Text) :
    pass.step index above.trim raw.trim = pass.step index above raw := by
  rw [step, step, trim_trim]
  cases LineKind.ofTrimmed raw.trim with
  | extResource | node | blank => rfl
  | property => exact setProperty_trim pass index above raw.trim

theorem run_map_trim (pass : Pass) (index : Nat) (above : Text) (lines : List Text) :
    pass.run index above.trim (lines.map trim) = pass.run index above lines := by
  induction lines generalizing pass index above with
  | nil => rfl
  | cons raw lines ih => rw [List.map_cons, run, run, step_trim, ih]

end Pass

theorem downgradeLines_map_trim (lines : List Text) :
    downgradeLines (lines.map trim) = downgradeLines lines := by
  cases lines with
  | nil => rfl
  | cons header lines =>
    have hstart : Pass.start header.trim = Pass.start header := by
      rw [Pass.start, Pass.start, downgradeHeader_trim]
    rw [List.map_cons, downgradeLines, downgradeLines, hstart, Pass.run_map_trim]

/-- Scenes whose lines are the same once trimmed are downgraded to the same lines, with the same
table, statistics and notices. -/
theorem downgradeLines_congr_trim {lines others : List Text}
    (h : lines.map trim = others.map trim) : downgradeLines lines = downgradeLines others := by
  rw [← downgradeLines_map_trim lines, h, downgradeLines_map_trim]

/-- A preset and its layout mode between blank characters of several kinds. -/
def indentedLines : List Text :=
  ["\t[gd_scene format=3] ".toList, "  anchors_preset = 8\x0b".toList,
    "\u3000layout_mode = 1 offset_left = 10\u0085".toList]

def flushLines : List Text :=
  ["[gd_scene format=3]".toList, "anchors_preset = 8".toList,
    "layout_mode = 1 offset_left = 10".toList]

theorem downgradeLines_congr_trim_indented : indentedLines.map trim = flushLines.map trim ∧
    indentedLines ≠ flushLines ∧ downgradeLines indentedLines = downgradeLines flushLines := by
  have h : indentedLines.map trim = flushLines.map trim := by decide
  exact ⟨h, by decide, downgradeLines_congr_trim h⟩

end SceneDowngrade.Scene
