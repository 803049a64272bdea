import SceneDowngrade.Text.Basic

/-!
# Anchor presets

The newer format writes an anchor preset on the line above the layout mode. The older format has no
presets: the preset gives way to the anchors that it stands for, and around the centre the offsets
are called margins. A rule looks for its layout mode in the line and for its preset in the line
above. The rules run in order and each sees the texts as the rules before it left them.
-/
namespace SceneDowngrade.Scene

inductive AnchorPreset where
  | topLeftRoot
  | fullRect
  | center
  deriving DecidableEq, Repr

def AnchorPreset.name : AnchorPreset → Text
  | .topLeftRoot => "TopLeftRoot".toList
  | .fullRect => "FullRect".toList
  | .center => "Center".toList

/-- A preset, the two texts it is known by, the anchors it stands for, and the renames it brings. -/
structure AnchorRule where
  preset : AnchorPreset
  layoutMode : Text
  token : Text
  expansion : Text
  renames : List (Text × Text)
  deriving DecidableEq, Repr

def fullAnchors : Text := "anchor_right = 1.0\nanchor_bottom = 1.0".toList

def centerAnchors : Text :=
  "anchor_left = 0.5\nanchor_top = 0.5\nanchor_right = 0.5\nanchor_bottom = 0.5".toList

def offsetRenames : List (Text × Text) :=
  [("offset_left".toList, "margin_left".toList),
    ("offset_top".toList, "margin_top".toList),
    ("offset_right".toList, "margin_right".toList),
    ("offset_bottom".toList, "margin_bottom".toList)]

def anchorRules : List AnchorRule :=
  [⟨.topLeftRoot, "layout_mode = 3".toList, "anchors_preset = 0".toList, fullAnchors, []⟩,
    ⟨.fullRect, "layout_mode = 1".toList, "anchors_preset = 15".toList, fullAnchors, []⟩,
    ⟨.center, "layout_mode = 1".toList, "anchors_preset = 8".toList, centerAnchors, offsetRenames⟩]

namespace AnchorRule

def expand (rule : AnchorRule) (text : Text) : Text := text.replaceAll rule.token rule.expansion

def applies (rule : AnchorRule) (above line : Text) : Bool :=
  rule.layoutMode.occursIn line && rule.token.occursIn above

end AnchorRule

/-- A line, the source line above it, and the output of that line if it can still be edited, with
the rules that have been applied to them. -/
structure Anchoring where
  above : Text
  line : Text
  pending : Option Text
  applied : List AnchorRule := []
  deriving DecidableEq, Repr

namespace Anchoring

def apply (state : Anchoring) (rule : AnchorRule) : Anchoring :=
  if rule.applies state.above state.line then
    { above := rule.expand state.above
      line := state.line.replaceEach rule.renames
      pending := state.pending.map rule.expand
      applied := state.applied ++ [rule] }
  else state

def preset? (state : Anchoring) : Option AnchorPreset := state.applied.getLast?.map (·.preset)

end Anchoring

/-- All rules applied to a line, given the source line above it and the pending output of that. -/
def expandAnchors (above line : Text) (pending : Option Text) : Anchoring :=
  anchorRules.foldl Anchoring.apply { above, line, pending }

end SceneDowngrade.Scene
