import SceneDowngrade.Command.Arguments
import SceneDowngrade.Conversion

/-!
# The command line program

A run reads its settings, lets the arguments override them, and converts one file. Its output is
text for the two streams and an exit code: 1 for a run that fails, 2 for arguments that are no
request.
-/
namespace SceneDowngrade.Command

open Files (Fault Volume)

def helpLines : List Text :=
  ["Downgrade a Godot 4 scene (format=3) to the Godot 3 format (format=2)".toList,
    [],
    "Usage: tscnconv [OPTIONS] <SOURCE>".toList,
    [],
    "Arguments:".toList,
    "  <SOURCE>  Source scene; it is left untouched unless --in-place is given".toList,
    [],
    "Options:".toList,
    "  -o, --output <OUTPUT>  Output file (default: SOURCE plus the configured suffix)".toList,
    "      --suffix <SUFFIX>  Suffix appended to SOURCE to name the output ".toList ++
      "(default: from config or .new)".toList,
    "      --in-place         Overwrite SOURCE with the converted scene ".toList ++
      "(off by default; the original file is lost once the converted copy ".toList ++
      "is moved over it)".toList,
    "      --config <CONFIG>  Config file path".toList,
    "  -h, --help             Print help".toList]

/-- What the program shows when it is asked for help. -/
def helpText : Text := Text.ofLines helpLines

structure Outcome where
  exitCode : Nat
  stdout : Text := []
  stderr : Text := []
  deriving DecidableEq, Repr

inductive Failure where
  | unreadableSettings (path : Text) (fault : Fault)
  | invalidSettings (path : Text) (error : Json.Error)
  | conversion (error : Conversion.Error)
  deriving DecidableEq, Repr

def Failure.message : Failure → Text
  | .unreadableSettings path fault =>
    "cannot read config ".toList ++ path ++ ": ".toList ++ fault.message
  | .invalidSettings path error =>
    "invalid config JSON in ".toList ++ path ++ ": ".toList ++ error.message
  | .conversion error => error.message

def errorLine (message : Text) : Text := "error: ".toList ++ message ++ ['\n']

def logText (threshold : Log.Threshold) (log : List Log.Record) : Text :=
  (log.filter (·.level.shownAt threshold)).flatMap (·.render)

/-- The files that settings are looked for in, if no file is named. -/
def settingsPaths : List Text :=
  ["tscnconv.config.json".toList, "config/tscnconv.config.json".toList]

def Arguments.override (arguments : Arguments) (settings : Settings) : Settings :=
  { suffix := arguments.suffix.getD settings.suffix
    inPlace := arguments.inPlace || settings.inPlace }

/-- The output path, which is the source with the suffix if none is named. -/
def Arguments.destination (arguments : Arguments) (settings : Settings) : Text :=
  arguments.output.getD (settings.destination arguments.source)

variable {m : Type → Type} [Monad m] [Volume m]

def loadSettings (path : Text) : m (Except Failure Settings) := do
  match ← Volume.read path with
  | .error fault => return .error (.unreadableSettings path fault)
  | .ok text => return (Settings.ofJson text).mapError (.invalidSettings path)

def firstFile? : List Text → m (Option Text)
  | [] => return none
  | path :: rest => do if ← Volume.isFile path then return some path else firstFile? rest

/-- The settings of a run, and what looking for them logged. -/
def findSettings (named : Option Text) : m (Except Failure Settings × List Log.Record) := do
  match named with
  | some path => return (← loadSettings path, [])
  | none =>
    match ← firstFile? settingsPaths with
    | none => return (.ok {}, [])
    | some path => return (← loadSettings path, [.usingSettings path])

/-- The outcome of a conversion, after what was logged before it. -/
def reportOutcome (threshold : Log.Threshold) (source : Text) (earlier : List Log.Record)
    (report : Conversion.Report) : Outcome :=
  match report.result with
  | .ok converted =>
    { exitCode := 0
      stdout := "Converted ".toList ++ source ++ " to ".toList ++ converted.path ++ ['\n']
      stderr := logText threshold (earlier ++ report.log ++ [.summary converted.stats]) }
  | .error e =>
    { exitCode := 1
      stderr := logText threshold (earlier ++ report.log) ++
        errorLine (Failure.conversion e).message }

def convert (threshold : Log.Threshold) (arguments : Arguments) : m Outcome := do
  let (found, log) ← findSettings arguments.config
  match found with
  | .error failure =>
    return { exitCode := 1, stderr := logText threshold log ++ errorLine failure.message }
  | .ok settings =>
    let settings := arguments.override settings
    let dest := arguments.destination settings
    return reportOutcome threshold arguments.source log
      (← Conversion.convertFile arguments.source dest settings)

def run (threshold : Log.Threshold) (arguments : List Text) : m Outcome :=
  match Request.ofArguments arguments with
  | .help => return { exitCode := 0, stdout := helpText }
  | .usageError e => return { exitCode := 2, stderr := errorLine e.message }
  | .run arguments => convert threshold arguments

end SceneDowngrade.Command
