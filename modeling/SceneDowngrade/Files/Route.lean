import SceneDowngrade.Files.Fault

/-!
# Paths

A path is a route of steps, from the root or from the working directory. Two paths are alike if
their routes differ only in repeated slashes, dots after the start, and a final slash.
-/
namespace SceneDowngrade.Files

inductive Step where
  | stay
  | up
  | enter (name : Text)
  deriving DecidableEq, Repr

/-- A path taken apart; `slash` tells whether it ends in a slash. -/
structure Route where
  absolute : Bool
  steps : List Step
  slash : Bool
  deriving DecidableEq, Repr

namespace Route

/-- The step that a part between slashes stands for; an empty part is no step. -/
def step? (part : Text) : Option Step :=
  if part.isEmpty then none
  else if part = ".".toList then some .stay
  else if part = "..".toList then some .up
  else some (.enter part)

def ofPath (path : Text) : Route :=
  { absolute := path.head? = some '/'
    steps := (path.splitOn '/').filterMap step?
    slash := path.getLast? = some '/' }

/-- Whether the route begins with a dot that counts. -/
def startsHere (route : Route) : Bool := !route.absolute && route.steps.head? = some .stay

/-- Whether two routes are alike step by step, wherever they lead. -/
def alike (a b : Route) : Bool :=
  a.absolute = b.absolute && a.startsHere = b.startsHere &&
    a.steps.filter (· ≠ .stay) = b.steps.filter (· ≠ .stay)

end Route

def maxNameLength : Nat := 255

/-- The number of bytes from which on a path is too long. -/
def maxPathLength : Nat := 4096

/-- Why a path cannot be given to the system, whatever the files. -/
def pathFault? (path : Text) : Option Fault :=
  if path.contains '\x00' then some .nulInName
  else if path.isEmpty then some .notFound
  else if maxPathLength ≤ path.byteLength then some .nameTooLong
  else none

end SceneDowngrade.Files
