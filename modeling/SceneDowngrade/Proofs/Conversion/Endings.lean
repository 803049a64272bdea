import SceneDowngrade.Conversion

/-!
# The ways a conversion ends

A conversion can fail at five points and succeed in two ways. Each ending says what the result is,
what the tree is, and what came before, and every run has one.
-/
namespace SceneDowngrade.Conversion

open Files (Tree Volume Fault)

def treeAfter (tree : Tree) (source dest : Text) (settings : Settings) : Tree :=
  ((convertFile source dest settings : StateM Tree Report).run tree).2

def resultOf (tree : Tree) (source dest : Text) (settings : Settings) : Except Error Converted :=
  ((convertFile source dest settings : StateM Tree Report).run tree).1.result

/-- Whether a conversion takes the two paths for the same file. -/
def takenForSame (tree : Tree) (source dest : Text) : Bool :=
  (Files.Route.ofPath source).alike (.ofPath dest) || tree.sameLocation source dest

/-- The destination is not refused, and the text at the source has been downgraded. -/
structure Prepared (tree : Tree) (source dest text : Text) (scene : Scene.Downgraded) : Prop where
  differ : takenForSame tree source dest = false
  read : tree.read source = .ok text
  scene : Scene.downgradeText text = .ok scene

/-- The tree without the entry that the path names, if it can be removed. -/
def cleared (tree : Tree) (path : Text) : Tree :=
  match tree.remove path with
  | .ok next => next
  | .error _ => tree

/-- What is logged about the removal of the entry that the path names. -/
def removalRecords (tree : Tree) (path : Text) : List Log.Record :=
  match tree.remove path with
  | .ok _ => []
  | .error fault => [.unremoved path fault]

/-- The results and final trees that a conversion can have, each with what led to it. -/
inductive Ending (tree : Tree) (source dest : Text) (settings : Settings) :
    Except Error Converted → Tree → Prop
  | refusedDestination : takenForSame tree source dest = true →
    Ending tree source dest settings (.error (.sameDestination dest)) tree
  | unread {fault} : takenForSame tree source dest = false → tree.read source = .error fault →
    Ending tree source dest settings (.error (.file source fault)) tree
  | refusedText {text refusal} : tree.read source = .ok text →
    Scene.downgradeText text = .error refusal →
    Ending tree source dest settings (.error (.refused refusal)) tree
  | unwritten {text scene fault} : Prepared tree source dest text scene →
    tree.write dest scene.toText = .error fault →
    Ending tree source dest settings (.error (.file dest fault)) tree
  | copied {text scene next} : Prepared tree source dest text scene →
    tree.write dest scene.toText = .ok next → settings.inPlace = false →
    Ending tree source dest settings (.ok ⟨dest, scene.stats⟩) next
  | unmoved {text scene staged fault} : Prepared tree source dest text scene →
    tree.write dest scene.toText = .ok staged → settings.inPlace = true →
    staged.rename dest source = .error fault →
    Ending tree source dest settings (.error (.file source fault)) (cleared staged dest)
  | moved {text scene staged next} : Prepared tree source dest text scene →
    tree.write dest scene.toText = .ok staged → settings.inPlace = true →
    staged.rename dest source = .ok next →
    Ending tree source dest settings (.ok ⟨source, scene.stats⟩) next

variable {tree : Tree} {source dest text : Text} {settings : Settings} {scene : Scene.Downgraded}

theorem Prepared.downgrade (h : Prepared tree source dest text scene) :
    Scene.downgrade text = .ok scene.toText := by
  rw [Scene.downgrade, h.scene]
  rfl

theorem run_sameFile (tree : Tree) (a b : Text) :
    (sameFile a b : StateM Tree Bool).run tree = (takenForSame tree a b, tree) := by
  rw [sameFile, takenForSame]
  cases (Files.Route.ofPath a).alike (.ofPath b) <;> rfl

theorem run_read (tree : Tree) (path : Text) :
    (Volume.read path : StateM Tree (Except Fault Text)).run tree = (tree.read path, tree) := rfl

theorem run_write (tree : Tree) (path text : Text) :
    (Volume.write path text : StateM Tree (Except Fault Unit)).run tree =
      match tree.write path text with
      | .ok next => (.ok (), next)
      | .error fault => (.error fault, tree) := rfl

theorem run_rename (tree : Tree) (path newPath : Text) :
    (Volume.rename path newPath : StateM Tree (Except Fault Unit)).run tree =
      match tree.rename path newPath with
      | .ok next => (.ok (), next)
      | .error fault => (.error fault, tree) := rfl

theorem run_remove (tree : Tree) (path : Text) :
    (Volume.remove path : StateM Tree (Except Fault Unit)).run tree =
      match tree.remove path with
      | .ok next => (.ok (), next)
      | .error fault => (.error fault, tree) := rfl

theorem run_convertFile (h : takenForSame tree source dest = false) :
    (convertFile source dest settings : StateM Tree Report).run tree =
      match tree.read source with
      | .error fault => ({ result := .error (.file source fault) }, tree)
      | .ok text =>
        match Scene.downgradeText text with
        | .error refusal => ({ result := .error (.refused refusal) }, tree)
        | .ok scene => (deliver source dest settings scene : StateM Tree Report).run tree := by
  rw [convertFile, StateT.run_bind, run_sameFile, h]
  change StateT.run (if (false : Bool) = true then _ else _) tree = _
  rw [if_neg (by decide), StateT.run_bind, run_read]
  cases tree.read source with
  | error fault => rfl
  | ok text =>
    dsimp only [bind]
    cases Scene.downgradeText text <;> rfl

theorem run_replaceSource (tree : Tree) (staged source : Text) :
    (replaceSource staged source : StateM Tree (Except Fault Unit × List Log.Record)).run tree =
      match tree.rename staged source with
      | .ok next => ((.ok (), [.replaced source staged]), next)
      | .error fault => ((.error fault, removalRecords tree staged), cleared tree staged) := by
  rw [replaceSource, StateT.run_bind, run_rename]
  cases tree.rename staged source with
  | ok next => rfl
  | error fault =>
    refine (StateT.run_bind (Volume.remove staged) _ tree).trans ?_
    rw [run_remove, cleared, removalRecords]
    cases tree.remove staged <;> rfl

theorem run_deliver_copy {next : Tree} (hplace : settings.inPlace = false)
    (hwrite : tree.write dest scene.toText = .ok next) :
    (deliver source dest settings scene : StateM Tree Report).run tree =
      (⟨.ok ⟨dest, scene.stats⟩, scene.notices.map .scene⟩, next) := by
  rw [deliver, StateT.run_bind, run_write, hwrite, hplace]
  rfl

theorem run_deliver_inPlace {staged : Tree} (hplace : settings.inPlace = true)
    (hwrite : tree.write dest scene.toText = .ok staged) :
    (deliver source dest settings scene : StateM Tree Report).run tree =
      match staged.rename dest source with
      | .error fault =>
        (⟨.error (.file source fault), scene.notices.map .scene ++ removalRecords staged dest⟩,
          cleared staged dest)
      | .ok next =>
        (⟨.ok ⟨source, scene.stats⟩, scene.notices.map .scene ++ [.replaced source dest]⟩, next) := by
  rw [deliver, StateT.run_bind, run_write, hwrite, hplace]
  refine (StateT.run_bind (replaceSource dest source) _ staged).trans ?_
  rw [run_replaceSource]
  cases staged.rename dest source <;> rfl

theorem run_convertFile_of_prepared (h : Prepared tree source dest text scene) :
    (convertFile source dest settings : StateM Tree Report).run tree =
      (deliver source dest settings scene : StateM Tree Report).run tree := by
  rw [run_convertFile h.differ, h.read]
  dsimp only
  rw [h.scene]

theorem ending_of_prepared (h : Prepared tree source dest text scene) :
    Ending tree source dest settings (resultOf tree source dest settings)
      (treeAfter tree source dest settings) := by
  rw [resultOf, treeAfter, run_convertFile_of_prepared h]
  cases hwrite : tree.write dest scene.toText with
  | error fault =>
    rw [deliver, StateT.run_bind, run_write, hwrite]
    exact .unwritten h hwrite
  | ok staged =>
    cases hplace : settings.inPlace with
    | false =>
      rw [run_deliver_copy hplace hwrite]
      exact .copied h hwrite hplace
    | true =>
      rw [run_deliver_inPlace hplace hwrite]
      cases hrename : staged.rename dest source with
      | error fault => exact .unmoved h hwrite hplace hrename
      | ok next => exact .moved h hwrite hplace hrename

/-- Every conversion has one of the endings. -/
theorem ending (tree : Tree) (source dest : Text) (settings : Settings) :
    Ending tree source dest settings (resultOf tree source dest settings)
      (treeAfter tree source dest settings) := by
  cases hdiffer : takenForSame tree source dest with
  | true =>
    rw [resultOf, treeAfter, convertFile, StateT.run_bind, run_sameFile, hdiffer]
    exact .refusedDestination hdiffer
  | false =>
    cases hread : tree.read source with
    | error fault =>
      rw [resultOf, treeAfter, run_convertFile hdiffer, hread]
      exact .unread hdiffer hread
    | ok text =>
      cases hscene : Scene.downgradeText text with
      | error refusal =>
        rw [resultOf, treeAfter, run_convertFile hdiffer, hread]
        dsimp only
        rw [hscene]
        exact .refusedText hread hscene
      | ok scene => exact ending_of_prepared ⟨hdiffer, hread, hscene⟩

end SceneDowngrade.Conversion
