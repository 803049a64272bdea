import SceneDowngrade.Files.Volume
import SceneDowngrade.Log.Record
import SceneDowngrade.Settings

/-!
# Converting a file

A scene is read from its source, downgraded, and written to its destination. Converting in place,
the destination is only a stage: once written in full, it is moved over the source, and if it cannot
be moved, it is removed.
-/
namespace SceneDowngrade.Conversion

open Files (Fault Volume)

inductive Error where
  | refused (refusal : Scene.Refusal)
  | file (path : Text) (fault : Fault)
  | sameDestination (path : Text)
  deriving DecidableEq, Repr

def Error.message : Error → Text
  | .refused refusal => refusal.message
  | .file path fault => path ++ ": ".toList ++ fault.message
  | .sameDestination path => "destination ".toList ++ path ++ " is the source file".toList

/-- Where the converted scene ended up, and its statistics. -/
structure Converted where
  path : Text
  stats : Scene.Stats
  deriving DecidableEq, Repr

structure Report where
  result : Except Error Converted
  log : List Log.Record := []

variable {m : Type → Type} [Monad m] [Volume m]

def sameFile (a b : Text) : m Bool := do
  if (Files.Route.ofPath a).alike (.ofPath b) then return true
  Volume.sameLocation a b

/-- Move the staged file over the source; if that fails, remove it. -/
def replaceSource (staged source : Text) : m (Except Fault Unit × List Log.Record) := do
  match ← Volume.rename staged source with
  | .ok () => return (.ok (), [.replaced source staged])
  | .error fault =>
    match ← Volume.remove staged with
    | .ok () => return (.error fault, [])
    | .error cleanup => return (.error fault, [.unremoved staged cleanup])

/-- Write a downgraded scene to the destination and, in place, move it over the source. -/
def deliver (source dest : Text) (settings : Settings) (scene : Scene.Downgraded) : m Report := do
  let log := scene.notices.map .scene
  match ← Volume.write dest scene.toText with
  | .error fault => return ⟨.error (.file dest fault), log⟩
  | .ok () =>
    if !settings.inPlace then return ⟨.ok ⟨dest, scene.stats⟩, log⟩
    let (moved, records) ← replaceSource dest source
    match moved with
    | .error fault => return ⟨.error (.file source fault), log ++ records⟩
    | .ok () => return ⟨.ok ⟨source, scene.stats⟩, log ++ records⟩

/-- Convert the source into the destination. The source is only ever replaced in place. -/
def convertFile (source dest : Text) (settings : Settings) : m Report := do
  if ← sameFile source dest then return { result := .error (.sameDestination dest) }
  match ← Volume.read source with
  | .error fault => return { result := .error (.file source fault) }
  | .ok text =>
    match Scene.downgradeText text with
    | .error refusal => return { result := .error (.refused refusal) }
    | .ok scene => deliver source dest settings scene

end SceneDowngrade.Conversion
