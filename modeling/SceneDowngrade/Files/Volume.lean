import SceneDowngrade.Files.Walk

/-!
# Volumes

The operations on files that a conversion needs, and what they do to a tree. An operation that fails
leaves the tree as it was.
-/
namespace SceneDowngrade.Files

class Volume (m : Type → Type) where
  /-- Whether both paths lead somewhere, and to the same place. -/
  sameLocation : Text → Text → m Bool
  isFile : Text → m Bool
  read : Text → m (Except Fault Text)
  /-- Put a text into a file, in place of what it held; a file that is missing is made. -/
  write : Text → Text → m (Except Fault Unit)
  /-- Give the first path's entry the second path as its name, over the entry that has it. -/
  rename : Text → Text → m (Except Fault Unit)
  remove : Text → m (Except Fault Unit)

namespace Tree

def sameLocation (tree : Tree) (a b : Text) : Bool :=
  match tree.canonical? a, tree.canonical? b with
  | some a, some b => a = b
  | _, _ => false

def isFile (tree : Tree) (path : Text) : Bool :=
  match tree.place .find path with
  | .ok (.present location) => (tree.data? location).isSome
  | _ => false

def readBytes (tree : Tree) (path : Text) : Except Fault ByteArray := do
  match ← tree.place .find path with
  | .absent _ => throw .notFound
  | .present location =>
    match tree.data? location with
    | some bytes => return bytes
    | none => throw .isADirectory

def read (tree : Tree) (path : Text) : Except Fault Text := do
  match Text.ofBytes? (← tree.readBytes path) with
  | some text => return text
  | none => throw .invalidText

def writeBytes (tree : Tree) (path : Text) (bytes : ByteArray) : Except Fault Tree := do
  match ← tree.place .write path with
  | .absent location => return tree.create location (.data bytes)
  | .present location =>
    if tree.isDirectory location then throw .isADirectory
    return tree.setContent location (.data bytes)

def write (tree : Tree) (path text : Text) : Except Fault Tree := tree.writeBytes path text.bytes

/-- The object that a path names, which is not followed if it is a link. -/
def namedObject (tree : Tree) (path : Text) : Except Fault Location := do
  match ← tree.place .entry path with
  | .absent _ => throw .notFound
  | .present location =>
    if tree.isDirectory location then throw .isADirectory
    return location

def nameFor (tree : Tree) (path : Text) : Except Fault Location := do
  match ← tree.place .entry path with
  | .absent location => return location
  | .present location =>
    if tree.isDirectory location then throw .isADirectory
    return location

/-- Two names of one object both stay. -/
def rename (tree : Tree) (path newPath : Text) : Except Fault Tree := do
  let source ← tree.namedObject path
  let target ← tree.nameFor newPath
  if tree.device source.dropLast ≠ tree.device target.dropLast then throw .otherDevice
  if tree.isSameObject source target then return tree
  return tree.move source target

def remove (tree : Tree) (path : Text) : Except Fault Tree := do
  return tree.unlink (← tree.namedObject path)

/-- Keep the tree of an operation that succeeds. -/
def commit (operation : Tree → Except Fault Tree) : StateM Tree (Except Fault Unit) :=
  fun tree =>
    match operation tree with
    | .ok next => (.ok (), next)
    | .error fault => (.error fault, tree)

instance : Volume (StateM Tree) where
  sameLocation a b tree := (tree.sameLocation a b, tree)
  isFile path tree := (tree.isFile path, tree)
  read path tree := (tree.read path, tree)
  write path text := commit (·.write path text)
  rename path newPath := commit (·.rename path newPath)
  remove path := commit (·.remove path)

end Tree

end SceneDowngrade.Files
