import SceneDowngrade.Proofs.Text.Rejoining
import SceneDowngrade.Scene.Property

/-!
# Newer names after the renames

Each rename inserts an older name, which could join with its surroundings into a newer name again:
the one just renamed, or one whose turn is over. For three of the names this cannot happen. The
other three come back only where they were written into themselves.
-/
namespace SceneDowngrade.Scene

open Text

section Renames

variable {k : Nat} {name older front back : Text}

theorem tokenRenames_split (h : tokenRenames[k]? = some (name, older)) :
    tokenRenames = tokenRenames.take k ++ (name, older) :: tokenRenames.drop (k + 1) := by
  obtain ⟨hk, hpair⟩ := List.getElem?_eq_some_iff.1 h
  rw [← hpair, ← List.drop_eq_getElem_cons hk, List.take_append_drop]

/-- The renames before that of a name, that one, and the renames after it. -/
theorem renameTokens_eq (h : tokenRenames[k]? = some (name, older)) (line : Text) :
    renameTokens line =
      ((line.replaceEach (tokenRenames.take k)).replaceAll name older).replaceEach
        (tokenRenames.drop (k + 1)) := by
  conv_lhs => rw [renameTokens, tokenRenames_split h]
  rw [replaceEach_append, replaceEach_cons]

theorem not_isInfix_renameTokens (h : tokenRenames[k]? = some (name, older)) (hne : name ≠ [])
    (hself : name.Independent older)
    (hlater : ∀ pair ∈ tokenRenames.drop (k + 1), pair.1 ≠ [] ∧ name.Independent pair.2)
    (line : Text) : ¬ name <:+: renameTokens line := by
  rw [renameTokens, tokenRenames_split h]
  exact not_isInfix_replaceEach hne hself hlater _ line

/-- A name that begins with its older name is left where the rest of it was written twice. -/
theorem infix_renameTokens_iff (h : tokenRenames[k]? = some (name, older))
    (hjoins : JoinsInto older name [] back)
    (hearlier : ∀ pair ∈ tokenRenames.take k,
      pair.1 ≠ [] ∧ (name ++ back).Independent pair.1 ∧ (name ++ back).Independent pair.2)
    (hlater : ∀ pair ∈ tokenRenames.drop (k + 1),
      pair.1 ≠ [] ∧ name.Independent pair.1 ∧ name.Independent pair.2) (line : Text) :
    name <:+: renameTokens line ↔ name ++ back <:+: line := by
  have hwhole : name ++ back ≠ [] := by simp [hjoins.old_ne]
  rw [renameTokens_eq h, infix_replaceEach_iff hjoins.old_ne hlater, hjoins.infix_replaceAll_iff,
    infix_replaceEach_iff hwhole hearlier]

/-- A name that has its older name inside is left at most where it was written into itself. -/
theorem infix_of_infix_renameTokens (h : tokenRenames[k]? = some (name, older))
    (hjoins : JoinsInto older name front back)
    (hearlier : ∀ pair ∈ tokenRenames.take k,
      pair.1 ≠ [] ∧ (front ++ name ++ back).Independent pair.2)
    (hlater : ∀ pair ∈ tokenRenames.drop (k + 1), pair.1 ≠ [] ∧ name.Independent pair.2)
    {line : Text} (hi : name <:+: renameTokens line) : front ++ name ++ back <:+: line := by
  have hwhole : front ++ name ++ back ≠ [] := by simp [hjoins.old_ne]
  rw [renameTokens_eq h] at hi
  have hleft := infix_of_replaceEach hjoins.old_ne hlater hi
  exact infix_of_replaceEach hwhole hearlier (hjoins.infix_of_replaceAll hleft)

end Renames

/-- Of the newer names, three are gone from every renamed line. Two others are there exactly if the
line had them with their last part doubled, and the last one only if the line had it written into
itself. -/
theorem newer_names_left (line : Text) :
    ¬ "theme_override_constants".toList <:+: renameTokens line ∧
      ¬ "theme_override_font_sizes".toList <:+: renameTokens line ∧
      ¬ "vertical_alignment".toList <:+: renameTokens line ∧
      ("Sprite2D".toList <:+: renameTokens line ↔ "Sprite2D2D".toList <:+: line) ∧
      ("Array[Texture2D]".toList <:+: renameTokens line ↔
        "Array[Texture2D][Texture2D]".toList <:+: line) ∧
      ("horizontal_alignment".toList <:+: renameTokens line →
        "horizontal_horizontal_alignmentment".toList <:+: line) := by
  refine ⟨?constants, ?sizes, ?vertical, ?sprite, ?array, ?horizontal⟩
  case constants =>
    have hname : tokenRenames[1]? =
        some ("theme_override_constants".toList, "custom_constants".toList) := rfl
    exact not_isInfix_renameTokens hname (by decide) (by decide +kernel) (by decide +kernel) line
  case sizes =>
    have hname : tokenRenames[2]? =
        some ("theme_override_font_sizes".toList, "custom_font_sizes".toList) := rfl
    exact not_isInfix_renameTokens hname (by decide) (by decide +kernel) (by decide +kernel) line
  case vertical =>
    have hname : tokenRenames[4]? = some ("vertical_alignment".toList, "valign".toList) := rfl
    exact not_isInfix_renameTokens hname (by decide) (by decide +kernel) (by decide +kernel) line
  case sprite =>
    have hname : tokenRenames[0]? = some ("Sprite2D".toList, "Sprite".toList) := rfl
    have hjoins : JoinsInto "Sprite".toList "Sprite2D".toList [] "2D".toList := by decide +kernel
    exact infix_renameTokens_iff hname hjoins (by decide +kernel) (by decide +kernel) line
  case array =>
    have hname : tokenRenames[5]? = some ("Array[Texture2D]".toList, "Array".toList) := rfl
    have hjoins : JoinsInto "Array".toList "Array[Texture2D]".toList [] "[Texture2D]".toList := by
      decide +kernel
    exact infix_renameTokens_iff hname hjoins (by decide +kernel) (by decide +kernel) line
  case horizontal =>
    have hname : tokenRenames[3]? = some ("horizontal_alignment".toList, "align".toList) := rfl
    have hjoins : JoinsInto "align".toList "horizontal_alignment".toList "horizontal_".toList
        "ment".toList := by decide +kernel
    exact infix_of_infix_renameTokens hname hjoins (by decide +kernel) (by decide +kernel)

example : renameTokens "horizontal_horizontal_alignmentment".toList =
    "horizontal_alignment".toList := by
  decide +kernel

end SceneDowngrade.Scene
