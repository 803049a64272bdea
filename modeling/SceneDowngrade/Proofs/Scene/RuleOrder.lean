import Mathlib.Data.List.Pairwise
import Mathlib.Data.List.Sublists
import SceneDowngrade.Proofs.Scene.AnchorRules
import SceneDowngrade.Proofs.Text.ReplacementOrder
import SceneDowngrade.Scene.Notice

/-!
# Anchor rules in any order

The rules that apply to a line and the source line above it expand different places of the pending
line, which need not be that source line. So their order only settles which preset is reported.
-/
namespace SceneDowngrade.Scene

namespace AnchorRule

instance : Std.Symm fun rule other : AnchorRule => rule.Preserves other ∧ other.Preserves rule :=
  ⟨fun _ _ => And.symm⟩

theorem apart : ∀ rule ∈ anchorRules, ∀ other ∈ anchorRules, rule ≠ other →
    Text.Apart rule.expansionPair other.expansionPair := by
  intro rule hrule other hother hne
  have ⟨hthere, hback⟩ := anchorRules_pairwise.forall hrule hother hne
  exact ⟨hthere.token_ne, hback.token_ne, hback.token, hback.expansion, hthere.expansion⟩

theorem token_independent_expansion : ∀ rule ∈ anchorRules, ∀ other ∈ anchorRules,
    rule.token ≠ [] ∧ rule.token.Independent other.expansion := by
  decide +kernel

/-- Only the rule for the centre renames offsets. -/
theorem flatMap_renames : ∀ rules ∈ anchorRules.sublists, rules.flatMap (·.renames) =
    if AnchorPreset.center ∈ rules.map (·.preset) then offsetRenames else [] := by
  decide +kernel

end AnchorRule

theorem mem_rulesFor_iff {rule : AnchorRule} {above line : Text} : rule ∈ rulesFor above line ↔
    rule ∈ anchorRules ∧ rule.layoutMode <:+: line ∧ rule.token <:+: above := by
  rw [rulesFor, List.mem_filter, AnchorRule.applies, Bool.and_eq_true, Text.occursIn_iff_infix,
    Text.occursIn_iff_infix]

theorem foldl_expand (rules : List AnchorRule) (text : Text) :
    rules.foldl (fun text rule => rule.expand text) text =
      text.replaceEach (rules.map (·.expansionPair)) := by
  rw [Text.replaceEach, List.foldl_map]
  rfl

theorem expansions_perm {above line : Text} {order : List AnchorRule}
    (h : order.Perm (rulesFor above line)) (text : Text) :
    order.foldl (fun text rule => rule.expand text) text =
      text.replaceEach ((rulesFor above line).map (·.expansionPair)) := by
  rw [foldl_expand]
  refine Text.replaceEach_perm ?_ (h.map _) text
  intro first hfirst second hsecond hne
  obtain ⟨rule, hrule, rfl⟩ := List.mem_map.1 hfirst
  obtain ⟨other, hother, rfl⟩ := List.mem_map.1 hsecond
  exact AnchorRule.apart rule (mem_rulesFor_iff.1 hrule).1 other (mem_rulesFor_iff.1 hother).1
    fun hsame => hne (hsame ▸ rfl)

theorem token_not_isInfix_expanded {above line : Text} {rule : AnchorRule}
    (h : rule ∈ rulesFor above line) (text : Text) :
    ¬ rule.token <:+: text.replaceEach ((rulesFor above line).map (·.expansionPair)) := by
  have hrule := (mem_rulesFor_iff.1 h).1
  obtain ⟨hne, hself⟩ := AnchorRule.token_independent_expansion rule hrule rule hrule
  obtain ⟨before, after, hsplit⟩ := List.append_of_mem h
  rw [hsplit, List.map_append, List.map_cons]
  refine Text.not_isInfix_replaceEach hne hself ?_ _ text
  intro pair hpair
  obtain ⟨other, hafter, rfl⟩ := List.mem_map.1 hpair
  have hmem : other ∈ rulesFor above line := by simp [hsplit, hafter]
  have hother := (mem_rulesFor_iff.1 hmem).1
  exact ⟨(AnchorRule.token_independent_expansion other hother other hother).1,
    (AnchorRule.token_independent_expansion rule hrule other hother).2⟩

section Expanded

variable (above line : Text) (pending : Option Text)

theorem expandAnchors_pending : (expandAnchors above line pending).pending =
    pending.map (·.replaceEach ((rulesFor above line).map (·.expansionPair))) := by
  rw [expandAnchors_eq]

theorem expandAnchors_line : (expandAnchors above line pending).line =
    if AnchorPreset.center ∈ (rulesFor above line).map (·.preset) then
      line.replaceEach offsetRenames else line := by
  have hrules : rulesFor above line ∈ anchorRules.sublists :=
    List.mem_sublists.2 List.filter_sublist
  rw [expandAnchors_eq]
  dsimp only
  rw [AnchorRule.flatMap_renames _ hrules]
  split_ifs <;> rfl

theorem expandAnchors_preset? : (expandAnchors above line pending).preset? =
    (rulesFor above line).getLast?.map (·.preset) := by
  rw [expandAnchors_eq]
  rfl

theorem expandAnchors_notices : (expandAnchors above line pending).notices =
    (rulesFor above line).map fun rule => .expanded rule.preset rule.layoutMode := by
  rw [expandAnchors_eq]
  rfl

end Expanded

/-- The rules that apply are settled by the two texts as they are given. The pending text is what
these rules make of it in any order, and has none of their tokens; the line has its offsets renamed
if the rule for the centre is one of them; and the last one gives the preset. Whether there is a
pending text matters for nothing else. -/
theorem expandAnchors_independent (above line : Text) (pending : Option Text) :
    let rules := rulesFor above line
    let result := expandAnchors above line pending
    (∀ rule, rule ∈ rules ↔
      rule ∈ anchorRules ∧ rule.layoutMode <:+: line ∧ rule.token <:+: above) ∧
      (∀ order : List AnchorRule, order.Perm rules → result.pending =
        pending.map fun text => order.foldl (fun text rule => rule.expand text) text) ∧
      (∀ text, result.pending = some text → ∀ rule ∈ rules, ¬ rule.token <:+: text) ∧
      result.line = (if AnchorPreset.center ∈ rules.map (·.preset) then
        line.replaceEach offsetRenames else line) ∧
      result.preset? = rules.getLast?.map (·.preset) ∧
      (result.preset? = none → result.pending = pending) ∧
      result.notices = rules.map (fun rule => .expanded rule.preset rule.layoutMode) ∧
      ∀ other, (expandAnchors above line other).line = result.line ∧
        (expandAnchors above line other).preset? = result.preset? ∧
        (expandAnchors above line other).notices = result.notices := by
  intro rules result
  have hpending : result.pending = _ := expandAnchors_pending above line pending
  have hpreset : result.preset? = _ := expandAnchors_preset? above line pending
  refine ⟨fun rule => mem_rulesFor_iff, fun order horder => ?_, fun text htext rule hrule => ?_,
    expandAnchors_line _ _ _, hpreset, fun hnone => ?_, expandAnchors_notices _ _ _,
    fun other => ⟨?_, ?_, ?_⟩⟩
  · simp only [expansions_perm horder, hpending]
  · rw [hpending] at htext
    obtain ⟨before, -, rfl⟩ := Option.map_eq_some_iff.1 htext
    exact token_not_isInfix_expanded hrule before
  · rw [hpreset, Option.map_eq_none_iff, List.getLast?_eq_none_iff] at hnone
    simp [hpending, hnone]
  · exact (expandAnchors_line _ _ _).trans (expandAnchors_line _ _ _).symm
  · exact (expandAnchors_preset? _ _ _).trans hpreset.symm
  · exact (expandAnchors_notices _ _ _).trans (expandAnchors_notices _ _ _).symm

/-- Two presets in the line above the layout mode, and one of them in a pending line of its own. -/
theorem expandAnchors_independent_two_presets :
    (expandAnchors "anchors_preset = 15 anchors_preset = 8".toList
        "layout_mode = 1 offset_top = 2".toList (some "x = anchors_preset = 8".toList)).pending =
      some ("x = ".toList ++ centerAnchors) ∧
    (expandAnchors "anchors_preset = 15 anchors_preset = 8".toList
        "layout_mode = 1 offset_top = 2".toList none).preset? = some .center := by
  obtain ⟨-, hpending, -, -, hpreset, -, -, hother⟩ := expandAnchors_independent
    "anchors_preset = 15 anchors_preset = 8".toList "layout_mode = 1 offset_top = 2".toList
    (some "x = anchors_preset = 8".toList)
  refine ⟨(hpending _ (List.reverse_perm _)).trans (by decide +kernel), ?_⟩
  exact (hother none).2.1.trans (hpreset.trans (by decide +kernel))

end SceneDowngrade.Scene
