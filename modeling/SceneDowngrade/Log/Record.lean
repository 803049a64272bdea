import SceneDowngrade.Files.Fault
import SceneDowngrade.Scene.Document
import SceneDowngrade.Text.Terminal

/-!
# Log records

What a conversion logs, and how a record is written as a line of the log, without
terminal control sequences.
-/
namespace SceneDowngrade.Log

inductive Record where
  | scene (notice : Scene.Notice)
  | replaced (source staged : Text)
  | unremoved (staged : Text) (fault : Files.Fault)
  | usingSettings (path : Text)
  | summary (stats : Scene.Stats)
  deriving DecidableEq, Repr

namespace Record

def level : Record → Level
  | .scene notice => notice.level
  | .unremoved _ _ => .warn
  | .replaced _ _ | .usingSettings _ => .debug
  | .summary _ => .info

def message : Record → Text
  | .scene notice => notice.message
  | .replaced source staged => "replaced ".toList ++ source ++ " with ".toList ++ staged
  | .unremoved staged fault =>
    "cannot remove ".toList ++ staged ++ ": ".toList ++ fault.message
  | .usingSettings path => "using config ".toList ++ path
  | .summary stats =>
    Text.numeral stats.resources ++ " ext_resource(s), ".toList ++
      Text.numeral stats.nodes ++ " node(s), ".toList ++
      Text.numeral stats.anchorsExpanded ++ " anchor preset(s) expanded, ".toList ++
      Text.numeral stats.blankDropped ++ " blank line(s) dropped".toList

def origin : Record → Text
  | .scene (.withoutId _) | .scene (.numbered _ _) | .scene (.duplicate _ _) =>
    "tscnconv::resources".toList
  | .scene (.undeclared _) => "tscnconv::properties".toList
  | .scene (.expanded _ _) => "tscnconv::anchors".toList
  | _ => "tscnconv".toList

def levelWidth : Nat := 5

/-- The message with its further lines indented. -/
def indented (record : Record) : Text :=
  record.message.flatMap fun c => if c = '\n' then "\n    ".toList else [c]

/-- A record as it is logged, with its line end. A control string that the message leaves open takes
the line end with it. -/
def render (record : Record) : Text :=
  let name := record.level.name
  '[' :: name ++ List.replicate (levelWidth - name.length) ' ' ++ ' ' :: record.origin ++
    "] ".toList ++ Text.shown (record.indented ++ ['\n'])

end Record

end SceneDowngrade.Log
