import SceneDowngrade.Command.Run

/-!
# The program

The command line program on the files of the system.
-/
namespace SceneDowngrade

open Files (Fault Volume)

/-- The number of a system error, which some calls report with the sign turned. -/
def errorNumber (n : UInt32) : Nat :=
  if n.toNat < Nat.pow 2 31 then n.toNat else Nat.pow 2 32 - n.toNat

def systemError : IO.Error → Nat × String
  | .alreadyExists _ n s | .invalidArgument _ n s | .permissionDenied _ n s
  | .resourceExhausted _ n s | .inappropriateType _ n s | .noSuchThing _ n s
  | .otherError n s | .resourceBusy n s | .resourceVanished n s | .unsupportedOperation n s
  | .hardwareFault n s | .unsatisfiedConstraints n s | .illegalOperation n s
  | .protocolError n s | .timeExpired n s | .interrupted _ n s
  | .noFileOrDirectory _ n s => (errorNumber n, s)
  | .unexpectedEof => (0, "unexpected end of file")
  | .userError s => (0, s)

/-- An action on a path, refused beforehand if the path cannot be given to the system. -/
def onPath {α : Type} (path : Text) (action : String → IO α) : IO (Except Fault α) := do
  if let some fault := Files.pathFault? path then return .error fault
  try
    return .ok (← action (String.ofList path))
  catch e =>
    let (number, description) := systemError e
    return .error (.ofNumber number description.toList)

/-- The path free of links and dots, or none if it leads nowhere. -/
def systemPath? (path : Text) : IO (Option String) := do
  match ← onPath path fun name => IO.FS.realPath name with
  | .ok name => return some name.toString
  | .error _ => return none

instance : Volume IO where
  sameLocation a b := do
    match ← systemPath? a, ← systemPath? b with
    | some a, some b => return a = b
    | _, _ => return false
  isFile path := do
    match ← onPath path fun name => do (← IO.FS.realPath name).metadata with
    | .ok data => return data.type == .file
    | .error _ => return false
  read path := do
    match ← onPath path fun name => IO.FS.readBinFile name with
    | .error fault => return .error fault
    | .ok data =>
      match Text.ofBytes? data with
      | some text => return .ok text
      | none => return .error .invalidText
  write path text := onPath path fun name => IO.FS.writeBinFile name text.bytes
  rename path newPath := onPath path fun name => IO.FS.rename name (String.ofList newPath)
  remove path := onPath path fun name => IO.FS.removeFile name

end SceneDowngrade

/-- The variable `RUST_LOG` names the least weighty messages to show. -/
def main (arguments : List String) : IO UInt32 := do
  let named ← IO.getEnv "RUST_LOG"
  let threshold := (named.bind fun name => SceneDowngrade.Log.threshold? name.toList).getD
    SceneDowngrade.Log.defaultThreshold
  let outcome ← SceneDowngrade.Command.run threshold (arguments.map String.toList)
  IO.eprint (String.ofList outcome.stderr)
  IO.print (String.ofList outcome.stdout)
  return outcome.exitCode.toUInt32
