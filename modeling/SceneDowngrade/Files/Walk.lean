import SceneDowngrade.Files.Tree

/-!
# Walks along paths

A path is walked step by step from a directory; a symbolic link on the way is followed by walking
its target from the directory that holds the link. At most forty links are followed.
-/
namespace SceneDowngrade.Files

/-- What a path is walked for: to find what it leads to, to write there, or for the entry itself,
where a link in the last place is not followed. -/
inductive Purpose where
  | find
  | write
  | entry
  deriving DecidableEq, Repr

/-- Where a walk ends: at an entry, or at a name that its directory does not have. -/
inductive Place where
  | present (location : Location)
  | absent (location : Location)
  deriving DecidableEq, Repr

/-- A walk up to its end, or up to the first link to follow, with the directory of the link and the
steps after it. -/
inductive Leg where
  | stopped (place : Place)
  | failed (fault : Fault)
  | crossing (directory : Location) (target : Text) (rest : List Step)
  deriving DecidableEq, Repr

def maxLinks : Nat := 40

/-- The steps of a route and whether its last name is marked by a slash. Only a walk for writing
keeps the mark; for others the slash is a step that needs a directory. -/
def Route.plan (route : Route) : Purpose → List Step × Bool
  | .write => (route.steps, route.slash)
  | _ => (if route.slash then route.steps ++ [.stay] else route.steps, false)

namespace Tree

def startOf (tree : Tree) (route : Route) : Location := if route.absolute then [] else tree.working

/-- Walk from a directory to the first link to follow. -/
def leg (tree : Tree) (purpose : Purpose) (slash : Bool) : Location → List Step → Leg
  | here, [] => .stopped (.present here)
  | here, .stay :: rest => leg tree purpose slash here rest
  | here, .up :: rest => leg tree purpose slash here.dropLast rest
  | here, .enter name :: rest =>
    if rest.isEmpty && slash then .failed .isADirectory
    else if maxNameLength < name.byteLength then .failed .nameTooLong
    else
      match tree.entry? (here ++ [name]) with
      | none => if rest.isEmpty then .stopped (.absent (here ++ [name])) else .failed .notFound
      | some .directory => leg tree purpose slash (here ++ [name]) rest
      | some (.object (.data _)) =>
        if rest.isEmpty then .stopped (.present (here ++ [name])) else .failed .notADirectory
      | some (.object (.link target)) =>
        if rest.isEmpty && purpose = .entry then .stopped (.present (here ++ [name]))
        else .crossing here target rest

/-- Walk to the end, following `links` links at most. -/
def walk (tree : Tree) (purpose : Purpose) (links : Nat) (slash : Bool) (here : Location)
    (steps : List Step) : Except Fault Place :=
  match tree.leg purpose slash here steps with
  | .stopped place => .ok place
  | .failed fault => .error fault
  | .crossing directory target rest =>
    match links with
    | 0 => .error .linkLoop
    | links + 1 =>
      let route := Route.ofPath target
      let start := if route.absolute then [] else directory
      let plan := route.plan purpose
      walk tree purpose links (if rest.isEmpty then plan.2 else slash) start (plan.1 ++ rest)

/-- The place that a path leads to, however long the path is. -/
def resolve (tree : Tree) (purpose : Purpose) (path : Text) : Except Fault Place :=
  let route := Route.ofPath path
  let plan := route.plan purpose
  tree.walk purpose maxLinks plan.2 (tree.startOf route) plan.1

/-- The place that a path given to the system leads to. -/
def place (tree : Tree) (purpose : Purpose) (path : Text) : Except Fault Place :=
  match pathFault? path with
  | some fault => .error fault
  | none => tree.resolve purpose path

/-- The location that a path leads to, free of links and dots. -/
def canonical? (tree : Tree) (path : Text) : Option Location :=
  if path.isEmpty || path.contains '\x00' then none
  else
    match tree.resolve .find path with
    | .ok (.present location) => some location
    | _ => none

end Tree

end SceneDowngrade.Files
