import SceneDowngrade.Log.Level
import SceneDowngrade.Scene.AnchorPreset
import SceneDowngrade.Text.Quoted

/-!
# Notices

What the downgrade of a scene has to say about it, line by line.
-/
namespace SceneDowngrade.Scene

inductive Notice where
  | withoutId (line : Text)
  | numbered (id : Text) (number : Nat)
  | duplicate (id : Text) (number : Nat)
  | undeclared (id : Text)
  | expanded (preset : AnchorPreset) (layoutMode : Text)
  deriving DecidableEq, Repr

namespace Notice

def level : Notice → Log.Level
  | .duplicate _ _ | .undeclared _ => .warn
  | .withoutId _ | .numbered _ _ | .expanded _ _ => .debug

def message : Notice → Text
  | .withoutId line => "ext_resource without id: ".toList ++ line
  | .numbered id number =>
    "ext_resource ".toList ++ id.quoted ++ " -> ".toList ++ Text.numeral number
  | .duplicate id number =>
    "duplicate ext_resource id ".toList ++ id.quoted ++ ", reusing ".toList ++ Text.numeral number
  | .undeclared id => "reference to undeclared ext_resource ".toList ++ id.quoted
  | .expanded preset layoutMode =>
    "expanded ".toList ++ preset.name ++ " for ".toList ++ layoutMode.quoted

end Notice

def Anchoring.notices (state : Anchoring) : List Notice :=
  state.applied.map fun rule => .expanded rule.preset rule.layoutMode

end SceneDowngrade.Scene
