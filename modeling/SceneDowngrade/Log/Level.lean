import SceneDowngrade.Text.Basic

/-!
# Levels

Every log message has a level; a threshold shows the messages up to a level, or none.
-/
namespace SceneDowngrade.Log

inductive Level where
  | error
  | warn
  | info
  | debug
  | trace
  deriving DecidableEq, Repr

namespace Level

def name : Level → Text
  | .error => "ERROR".toList
  | .warn => "WARN".toList
  | .info => "INFO".toList
  | .debug => "DEBUG".toList
  | .trace => "TRACE".toList

/-- How much a threshold at this level lets through. -/
def rank : Level → Nat
  | .error => 1
  | .warn => 2
  | .info => 3
  | .debug => 4
  | .trace => 5

end Level

/-- The least weighty level shown, or none. -/
abbrev Threshold := Option Level

def Level.shownAt (level : Level) : Threshold → Bool
  | none => false
  | some least => level.rank ≤ least.rank

/-- Warnings and errors are shown unless something else is asked for. -/
def defaultThreshold : Threshold := some .warn

def levels : List Level := [.error, .warn, .info, .debug, .trace]

/-- The threshold with this name, in capitals or not. -/
def threshold? (name : Text) : Option Threshold :=
  let upper := name.map Char.toUpper
  if upper = "OFF".toList then some none
  else (levels.find? (·.name = upper)).map some

end SceneDowngrade.Log
