import SceneDowngrade.Files.Route

/-!
# File trees

A tree has directories, and objects that are files or symbolic links. An object carries all its
names, so that one file may stand in several places; losing its last name it is gone. Some
directories may be the roots of other devices.
-/
namespace SceneDowngrade.Files

/-- The names that lead from the root to an entry. -/
abbrev Location := List Text

instance (priority := high) decidableEqBytes : DecidableEq ByteArray := ByteArray.instDecidableEq

inductive Content where
  | data (bytes : ByteArray)
  | link (target : Text)
  deriving DecidableEq

structure Object where
  names : List Location
  content : Content
  deriving DecidableEq

inductive Entry where
  | directory
  | object (content : Content)
  deriving DecidableEq

structure Tree where
  directories : List Location := []
  objects : List Object := []
  mounts : List Location := []
  working : Location := []
  deriving DecidableEq

namespace Tree

def isDirectory (tree : Tree) (location : Location) : Bool :=
  location.isEmpty || tree.directories.contains location

def object? (tree : Tree) (location : Location) : Option Object :=
  tree.objects.find? (·.names.contains location)

def entry? (tree : Tree) (location : Location) : Option Entry :=
  if tree.isDirectory location then some .directory
  else (tree.object? location).map fun object => .object object.content

def data? (tree : Tree) (location : Location) : Option ByteArray :=
  match tree.entry? location with
  | some (.object (.data bytes)) => some bytes
  | _ => none

def isSameObject (tree : Tree) (a b : Location) : Bool :=
  match tree.object? a with
  | some object => object.names.contains b
  | none => false

/-- The root of the device that a directory is on. -/
def device (tree : Tree) (directory : Location) : Location :=
  tree.mounts.foldl (fun best mount =>
    if mount.isPrefixOf directory && best.length < mount.length then mount else best) []

/-- The object with this name changed, all others kept. -/
def changeObject (location : Location) (change : Object → Object) : List Object → List Object
  | [] => []
  | object :: rest =>
    if object.names.contains location then change object :: rest
    else object :: changeObject location change rest

/-- Other content for the object with this name, under all its names. -/
def setContent (tree : Tree) (location : Location) (content : Content) : Tree :=
  { tree with
    objects := changeObject location (fun object => { object with content }) tree.objects }

def create (tree : Tree) (location : Location) (content : Content) : Tree :=
  { tree with objects := ⟨[location], content⟩ :: tree.objects }

def addName (tree : Tree) (location new : Location) : Tree :=
  { tree with
    objects := changeObject location (fun object => { object with names := new :: object.names })
      tree.objects }

def addDirectory (tree : Tree) (location : Location) : Tree :=
  { tree with directories := location :: tree.directories }

def withoutName (location : Location) (object : Object) : Option Object :=
  if object.names.contains location then
    let names := object.names.filter (· ≠ location)
    if names.isEmpty then none else some { object with names }
  else some object

def unlink (tree : Tree) (location : Location) : Tree :=
  { tree with objects := tree.objects.filterMap (withoutName location) }

/-- Put `target` in the place of the name `source`, over whatever had that name. -/
def move (tree : Tree) (source target : Location) : Tree :=
  let change := fun object : Object =>
    { object with names := object.names.map fun name => if name = source then target else name }
  let cleared := tree.unlink target
  { cleared with objects := changeObject source change cleared.objects }

end Tree

end SceneDowngrade.Files
