import SceneDowngrade.Files.Volume

/-!
# Growing and listing trees

Directories, links and further names for a tree, and the list of what a tree holds below its working
directory.
-/
namespace SceneDowngrade.Files.Tree

/-- Make a directory; one that is there already is kept. -/
def makeDirectory (tree : Tree) (path : Text) : Tree :=
  match tree.place .find path with
  | .ok (.absent location) => tree.addDirectory location
  | _ => tree

/-- The paths that a path extends, shortest first, and the path itself. -/
def ancestors (path : Text) : List Text :=
  let parts := path.splitOn '/'
  (List.range parts.length).map fun k => ['/'].intercalate (parts.take (k + 1))

def makeDirectories (tree : Tree) (path : Text) : Tree :=
  (ancestors path).foldl makeDirectory tree

def makeParents (tree : Tree) (path : Text) : Tree :=
  (ancestors path).dropLast.foldl makeDirectory tree

def makeLink (tree : Tree) (path target : Text) : Except Fault Tree := do
  return tree.create (← tree.nameFor path) (.link target)

def makeName (tree : Tree) (path newPath : Text) : Except Fault Tree := do
  return tree.addName (← tree.namedObject path) (← tree.nameFor newPath)

def locations (tree : Tree) : List Location :=
  tree.directories ++ tree.objects.flatMap (·.names)

def pathBelow? (directory location : Location) : Option Text :=
  if directory.isPrefixOf location && directory.length < location.length then
    some (['/'].intercalate (location.drop directory.length))
  else none

/-- All entries below the working directory with their paths from there, in order of the paths. -/
def listing (tree : Tree) : List (Text × Entry) :=
  let found := tree.locations.filterMap fun location => do
    return (← pathBelow? tree.working location, ← tree.entry? location)
  found.mergeSort fun a b => !b.1.lex a.1 fun c d => c.toNat < d.toNat

end SceneDowngrade.Files.Tree
