import SceneDowngrade.Proofs.Scene.TwoPasses

/-!
# The notices of a pass

What the pass has to say is a sum over the source lines. A line says what it is about by itself, given
the table of the declarations above it, and then which rules it sets off on the line above. The line
held back plays no part in it.
-/
namespace SceneDowngrade.Scene

/-- The notice of a rule that has been applied. -/
def AnchorRule.notice (rule : AnchorRule) : Notice := .expanded rule.preset rule.layoutMode

/-- The notices of a source line that do not depend on the line above it. -/
def ownNotices (table : ResourceTable) (raw : Text) : List Notice :=
  match LineKind.ofTrimmed raw.trim with
  | .extResource => [(table.declare raw.trim).notice]
  | .property => danglingNotices (numberReferences table raw.trim)
  | .node | .blank => []

/-- The notices of a source line below the source line `above`. -/
def lineNotices (table : ResourceTable) (above raw : Text) : List Notice :=
  ownNotices table raw ++ (Draft.ofLine table above raw).rules.map (·.notice)

/-- The notices of some lines below the source line `above`. -/
def noticesFrom : ResourceTable → (above : Text) → List Text → List Notice
  | _, _, [] => []
  | table, above, raw :: rest =>
    lineNotices table above raw ++ noticesFrom (table.afterLine raw) raw rest

namespace Pass

@[simp] theorem table_amend (pass : Pass) (text : Option Text) :
    (pass.amend text).table = pass.table := by
  cases text <;> rfl

@[simp] theorem notices_amend (pass : Pass) (text : Option Text) :
    (pass.amend text).notices = pass.notices := by
  cases text <;> rfl

theorem table_step (pass : Pass) (index : Nat) (above raw : Text) :
    (pass.step index above raw).table = pass.table.afterLine raw := by
  rw [step, ResourceTable.afterLine]
  cases LineKind.ofTrimmed raw.trim <;> simp [declare, startNode, setProperty, dropBlank, emit, note]

theorem notices_step (pass : Pass) (index : Nat) (above raw : Text) :
    (pass.step index above raw).notices.toList =
      pass.notices.toList ++ lineNotices pass.table above raw := by
  rw [step, lineNotices, ownNotices, Draft.ofLine]
  cases LineKind.ofTrimmed raw.trim with
  | extResource => simp [declare, emit, note, Draft.rules]
  | node => simp [startNode, emit, Draft.rules]
  | blank => simp [dropBlank, Draft.rules]
  | property =>
    simp [setProperty, emit, note, expandAnchors_eq, Anchoring.notices, Draft.rules,
      AnchorRule.notice]

theorem notices_run (pass : Pass) (index : Nat) (above : Text) (lines : List Text) :
    (pass.run index above lines).notices.toList =
      pass.notices.toList ++ noticesFrom pass.table above lines := by
  induction lines generalizing pass index above with
  | nil => simp [run, noticesFrom]
  | cons raw lines ih =>
    rw [run, ih, notices_step, table_step, noticesFrom, List.append_assoc]

end Pass

end SceneDowngrade.Scene
