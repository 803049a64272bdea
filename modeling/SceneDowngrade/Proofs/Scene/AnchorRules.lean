import SceneDowngrade.Proofs.Text.Replacement
import SceneDowngrade.Scene.AnchorPreset

/-!
# Anchor rules one after another and all at once

The rules run in order, each on the texts that the rules before it left. Yet no rule makes or breaks
what another one looks for, so the rules applied are those that apply to the two texts as they stood
at the start.
-/
namespace SceneDowngrade.Scene

namespace AnchorRule

def expansionPair (rule : AnchorRule) : Text × Text := (rule.token, rule.expansion)

/-- Applying `rule` changes neither of the two things that `other` looks for. -/
structure Preserves (rule other : AnchorRule) : Prop where
  token_ne : rule.token ≠ []
  other_ne : other.token ≠ [] ∧ other.layoutMode ≠ []
  token : other.token.Independent rule.token
  expansion : other.token.Independent rule.expansion
  renames : ∀ pair ∈ rule.renames,
    pair.1 ≠ [] ∧ other.layoutMode.Independent pair.1 ∧ other.layoutMode.Independent pair.2

instance (rule other : AnchorRule) : Decidable (rule.Preserves other) :=
  decidable_of_iff
    ((rule.token ≠ [] ∧ (other.token ≠ [] ∧ other.layoutMode ≠ []) ∧
      other.token.Independent rule.token ∧ other.token.Independent rule.expansion) ∧
      ∀ pair ∈ rule.renames,
        pair.1 ≠ [] ∧ other.layoutMode.Independent pair.1 ∧ other.layoutMode.Independent pair.2)
    ⟨fun ⟨⟨h₁, h₂, h₃, h₄⟩, h₅⟩ => ⟨h₁, h₂, h₃, h₄, h₅⟩,
      fun ⟨h₁, h₂, h₃, h₄, h₅⟩ => ⟨⟨h₁, h₂, h₃, h₄⟩, h₅⟩⟩

theorem Preserves.applies {rule other : AnchorRule} (h : rule.Preserves other) (above line : Text) :
    other.applies (rule.expand above) (line.replaceEach rule.renames) =
      other.applies above line := by
  rw [AnchorRule.applies, AnchorRule.applies, Text.occursIn_replaceEach h.other_ne.2 h.renames,
    expand, Text.occursIn_replaceAll h.token_ne h.other_ne.1 h.token h.expansion]

end AnchorRule

def rulesFor (above line : Text) : List AnchorRule :=
  anchorRules.filter (·.applies above line)

namespace Anchoring

theorem foldl_apply {rules : List AnchorRule} (h : rules.Pairwise AnchorRule.Preserves)
    (state : Anchoring) :
    rules.foldl apply state =
      let applied := rules.filter (·.applies state.above state.line)
      { above := state.above.replaceEach (applied.map (·.expansionPair))
        line := state.line.replaceEach (applied.flatMap (·.renames))
        pending := state.pending.map (·.replaceEach (applied.map (·.expansionPair)))
        applied := state.applied ++ applied } := by
  induction rules generalizing state with
  | nil => simp
  | cons rule rules ih =>
    obtain ⟨hrule, hrules⟩ := List.pairwise_cons.1 h
    rw [List.foldl_cons, ih hrules]
    by_cases ha : rule.applies state.above state.line = true
    · have hfilter : rules.filter (·.applies (rule.expand state.above)
          (state.line.replaceEach rule.renames)) =
          rules.filter (·.applies state.above state.line) :=
        List.filter_congr fun other ho => (hrule other ho).applies _ _
      simp only [apply, ha, if_true, hfilter, List.filter_cons_of_pos]
      simp [Text.replaceEach_append, AnchorRule.expansionPair, AnchorRule.expand,
        Function.comp_def]
    · simp only [apply, ha, if_false, Bool.false_eq_true, not_false_eq_true,
        List.filter_cons_of_neg]

end Anchoring

theorem anchorRules_pairwise :
    anchorRules.Pairwise fun rule other => rule.Preserves other ∧ other.Preserves rule := by
  decide +kernel

/-- The rules in turn do what the rules that apply at the start do together. -/
theorem expandAnchors_eq (above line : Text) (pending : Option Text) :
    expandAnchors above line pending =
      { above := above.replaceEach ((rulesFor above line).map (·.expansionPair))
        line := line.replaceEach ((rulesFor above line).flatMap (·.renames))
        pending := pending.map (·.replaceEach ((rulesFor above line).map (·.expansionPair)))
        applied := rulesFor above line } := by
  rw [expandAnchors, Anchoring.foldl_apply (anchorRules_pairwise.imp And.left)]
  rfl

/-- A line without any preset token sets off no rule in the line below. -/
theorem rulesFor_eq_nil {above : Text}
    (h : ∀ rule ∈ anchorRules, rule.token.occursIn above = false) (line : Text) :
    rulesFor above line = [] := by
  refine List.filter_eq_nil_iff.2 fun rule hr => ?_
  simp [AnchorRule.applies, h rule hr]

end SceneDowngrade.Scene
