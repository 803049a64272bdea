import SceneDowngrade.Scene.Property

/-!
# The downgrade of a scene

One pass over the lines of a scene, from the header down. The last line written is held back as
pending until the next one is known, since an anchor preset is expanded on the line above the one
that settles its meaning.
-/
namespace SceneDowngrade.Scene

/-- A line after the header is known by how it begins. -/
inductive LineKind where
  | extResource
  | node
  | property
  | blank
  deriving DecidableEq, Repr

def extResourceMarker : Text := "[ext_resource".toList

def nodeMarker : Text := "[node".toList

def LineKind.ofTrimmed (line : Text) : LineKind :=
  if extResourceMarker.isPrefixOf line then .extResource
  else if nodeMarker.isPrefixOf line then .node
  else if line.isEmpty then .blank
  else .property

structure Stats where
  resources : Nat := 0
  nodes : Nat := 0
  anchorsExpanded : Nat := 0
  blankDropped : Nat := 0
  deriving DecidableEq, Repr

/-- An output line that is held back, with the index of the source line it came from. -/
structure Pending where
  source : Nat
  text : Text
  deriving DecidableEq, Repr

/-- The state of the pass: the lines already written, the pending one, and what was gathered. -/
structure Pass where
  written : Array Text := #[]
  pending : Option Pending := none
  table : ResourceTable := {}
  stats : Stats := {}
  notices : Array Notice := #[]
  deriving DecidableEq, Repr

/-- A downgraded scene. An expanded anchor preset is one line with breaks inside. -/
structure Downgraded where
  lines : List Text
  table : ResourceTable
  stats : Stats
  notices : List Notice
  deriving DecidableEq, Repr

def Downgraded.toText (scene : Downgraded) : Text := Text.ofLines scene.lines

inductive Refusal where
  | emptyDocument
  deriving DecidableEq, Repr

def Refusal.message : Refusal → Text
  | .emptyDocument => "document is empty".toList

namespace Pass

def note (pass : Pass) (notices : List Notice) : Pass :=
  { pass with notices := pass.notices ++ notices }

/-- Write the pending line and hold back `text` in its place. -/
def emit (pass : Pass) (source : Nat) (text : Text) : Pass :=
  { pass with
    written := pass.written ++ (pass.pending.map (·.text)).toList
    pending := some ⟨source, text⟩ }

/-- The text of the pending line, if it came from the source line with this index. -/
def pendingFrom (pass : Pass) (source : Nat) : Option Text :=
  (pass.pending.filter (·.source = source)).map (·.text)

/-- Put another text in the place of the pending one. -/
def amend (pass : Pass) : Option Text → Pass
  | none => pass
  | some text => { pass with pending := pass.pending.map fun pending => { pending with text } }

def declare (pass : Pass) (index : Nat) (line : Text) : Pass :=
  let declared := pass.table.declare line
  ({ pass with table := declared.table }.note [declared.notice]).emit index declared.line

/-- A node, with one blank line before it. -/
def startNode (pass : Pass) (index : Nat) (line : Text) : Pass :=
  let stats := { pass.stats with nodes := pass.stats.nodes + 1 }
  ({ pass with stats }.emit index []).emit index line

/-- A property line below the source line `above`. -/
def setProperty (pass : Pass) (index : Nat) (above line : Text) : Pass :=
  let numbered := numberReferences pass.table line
  let anchoring := expandAnchors above (renameTokens numbered) (pass.pendingFrom (index - 1))
  let expanded := if anchoring.preset?.isSome then 1 else 0
  let stats := { pass.stats with anchorsExpanded := pass.stats.anchorsExpanded + expanded }
  let notices := danglingNotices numbered ++ anchoring.notices
  (({ pass with stats }.note notices).amend anchoring.pending).emit index anchoring.line

def dropBlank (pass : Pass) : Pass :=
  { pass with stats := { pass.stats with blankDropped := pass.stats.blankDropped + 1 } }

/-- One source line after the header, with its index and the source line above it. -/
def step (pass : Pass) (index : Nat) (above raw : Text) : Pass :=
  let line := raw.trim
  match LineKind.ofTrimmed line with
  | .extResource => pass.declare index line
  | .node => pass.startNode index line
  | .property => pass.setProperty index above line
  | .blank => pass.dropBlank

/-- The source lines from `index` on, below the source line `above`. -/
def run (pass : Pass) (index : Nat) (above : Text) : List Text → Pass
  | [] => pass
  | raw :: rest => (pass.step index above raw).run (index + 1) raw rest

def start (header : Text) : Pass := ({} : Pass).emit 0 (downgradeHeader header)

/-- Write the pending line and count the resources. -/
def finish (pass : Pass) : Downgraded :=
  { lines := pass.written.toList ++ (pass.pending.map (·.text)).toList
    table := pass.table
    stats := { pass.stats with resources := pass.table.size }
    notices := pass.notices.toList }

end Pass

/-- The downgrade of a scene given as lines. Blank lines are dropped, and each node has exactly one
blank line before it. -/
def downgradeLines : List Text → Except Refusal Downgraded
  | [] => .error .emptyDocument
  | header :: rest => .ok (((Pass.start header).run 1 header rest).finish)

/-- The downgrade of a scene given as text, with all that was gathered on the way. -/
def downgradeText (text : Text) : Except Refusal Downgraded := downgradeLines text.lines

def downgrade (text : Text) : Except Refusal Text := (downgradeText text).map Downgraded.toText

end SceneDowngrade.Scene
