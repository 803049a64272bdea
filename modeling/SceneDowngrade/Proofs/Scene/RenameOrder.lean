import SceneDowngrade.Proofs.Text.ReplacementOrder
import SceneDowngrade.Scene.Property

/-!
# Token renames in any order

The renames of property lines meet in few places. A theme override may begin with the last letter of
an alignment, and the older name of the horizontal alignment completes the vertical one where the
newer name was written into it. On a line without these the renames may be made in any order.
-/
namespace SceneDowngrade.Scene

open Text

/-- An alignment whose last letter begins a theme override. -/
def themedAlignment : Text := "alignmentheme_override_".toList

/-- The horizontal alignment written into the vertical one. -/
def nestedAlignment : Text := "vertical_horizontal_alignmentment".toList

theorem tokenRenames_interchangeable : Interchangeable tokenRenames where
  meets := by decide +kernel
  kept := by decide +kernel

theorem clashes_tokenRenames : ∀ first ∈ tokenRenames, ∀ second ∈ tokenRenames, first ≠ second →
    ∀ clash ∈ clashes first second, themedAlignment <:+: clash ∨ nestedAlignment <:+: clash := by
  decide +kernel

theorem noClashes_tokenRenames {line : Text} (hthemed : ¬ themedAlignment <:+: line)
    (hnested : ¬ nestedAlignment <:+: line) : NoClashes tokenRenames line := by
  intro first hfirst second hsecond hne clash hclash hi
  rcases clashes_tokenRenames first hfirst second hsecond hne clash hclash with h | h
  · exact hthemed (h.trans hi)
  · exact hnested (h.trans hi)

/-- The renames may be made in any order on a line without the two places where they meet. -/
theorem renameTokens_perm {line : Text} (hthemed : ¬ themedAlignment <:+: line)
    (hnested : ¬ nestedAlignment <:+: line) {order : List (Text × Text)}
    (horder : order.Perm tokenRenames) : line.replaceEach order = renameTokens line := by
  have honce : tokenRenames.Nodup := by decide
  exact tokenRenames_interchangeable.replaceEach_perm horder (List.Subset.refl _) honce
    (noClashes_tokenRenames hthemed hnested)

/-- Newer names that stand right beside one another, or are written into themselves. -/
def crowdedLine : Text :=
  "Array[Texture2D]vertical_alignmenthorizontal_horizontal_alignmentmentSprite2D2D".toList

theorem renameTokens_perm_crowded :
    ¬ themedAlignment <:+: crowdedLine ∧ ¬ nestedAlignment <:+: crowdedLine ∧
      tokenRenames.reverse.Perm tokenRenames ∧
      crowdedLine.replaceEach tokenRenames.reverse =
        "Arrayvalignhorizontal_alignmentSprite2D".toList := by
  have hthemed : ¬ themedAlignment <:+: crowdedLine := by decide +kernel
  have hnested : ¬ nestedAlignment <:+: crowdedLine := by decide +kernel
  have horder : tokenRenames.reverse.Perm tokenRenames := List.reverse_perm _
  refine ⟨hthemed, hnested, horder, (renameTokens_perm hthemed hnested horder).trans ?_⟩
  decide +kernel

/-- Where an alignment runs into a theme override, the order of their renames shows. -/
example : replaceEach "horizontal_alignmentheme_override_constants".toList tokenRenames.reverse ≠
    renameTokens "horizontal_alignmentheme_override_constants".toList := by
  decide +kernel

end SceneDowngrade.Scene
