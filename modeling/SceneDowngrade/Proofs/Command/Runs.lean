import SceneDowngrade.Command.Run
import SceneDowngrade.Proofs.Command.Requests
import SceneDowngrade.Proofs.Conversion.SourceSafety

/-!
# What a run does

A run that an accepted command line asks for takes its settings from a file, lets the arguments
override them, and is then one conversion: the files are those of the conversion, and the exit code
and the message tell how it ended.
-/
namespace SceneDowngrade.Command

open Files (Tree Volume Fault)

/-- The file that the settings of a run are read from: the one that is named, or else the first of
two that is there. -/
def settingsFile? (tree : Tree) (named : Option Text) : Option Text :=
  named.or
    (["tscnconv.config.json".toList, "config/tscnconv.config.json".toList].find? tree.isFile)

/-- The settings of a run before the arguments override them. -/
inductive InForce (tree : Tree) (named : Option Text) : Settings → Prop
  | read {path text settings} : settingsFile? tree named = some path → tree.read path = .ok text →
    Settings.ofJson text = .ok settings → InForce tree named settings
  | default : settingsFile? tree named = none → InForce tree named {}

section Runs

variable {tree : Tree} {named : Option Text} {settings : Settings} {arguments : Arguments}
  {threshold : Log.Threshold}

theorem run_firstFile? (tree : Tree) (paths : List Text) :
    (firstFile? paths : StateM Tree (Option Text)).run tree = (paths.find? tree.isFile, tree) := by
  induction paths with
  | nil => rfl
  | cons path paths ih =>
    have hisFile : (Volume.isFile path : StateM Tree Bool).run tree = (tree.isFile path, tree) :=
      rfl
    rw [firstFile?, StateT.run_bind, hisFile, List.find?_cons]
    cases tree.isFile path with
    | true => rfl
    | false => exact ih

theorem run_loadSettings {path text : Text} (hread : tree.read path = .ok text)
    (hjson : Settings.ofJson text = .ok settings) :
    (loadSettings path : StateM Tree (Except Failure Settings)).run tree = (.ok settings, tree) := by
  rw [loadSettings, StateT.run_bind, Conversion.run_read, hread]
  change ((Settings.ofJson text).mapError _, tree) = _
  rw [hjson]
  rfl

/-- Looking for the settings, once their file is found, is loading them from it. -/
theorem run_findSettings_of_file {path : Text} {loaded : Except Failure Settings}
    (hfile : settingsFile? tree named = some path)
    (hload : (loadSettings path : StateM Tree (Except Failure Settings)).run tree = (loaded, tree)) :
    ∃ log, (findSettings named : StateM Tree (Except Failure Settings × List Log.Record)).run tree =
      ((loaded, log), tree) := by
  cases named with
  | some named =>
    cases hfile
    refine ⟨[], ?_⟩
    rw [findSettings, StateT.run_bind, hload]
    rfl
  | none =>
    refine ⟨[.usingSettings path], ?_⟩
    change settingsPaths.find? tree.isFile = some path at hfile
    rw [findSettings, StateT.run_bind, run_firstFile? tree settingsPaths, hfile]
    refine (StateT.run_bind (loadSettings path) _ tree).trans ?_
    rw [hload]
    rfl

/-- Looking for the settings changes no file and finds those in force. -/
theorem run_findSettings (h : InForce tree named settings) :
    ∃ log, (findSettings named : StateM Tree (Except Failure Settings × List Log.Record)).run tree =
      ((.ok settings, log), tree) := by
  cases h with
  | read hfile hread hjson => exact run_findSettings_of_file hfile (run_loadSettings hread hjson)
  | default hfile =>
    cases named with
    | some path => nomatch hfile
    | none =>
      refine ⟨[], ?_⟩
      change settingsPaths.find? tree.isFile = none at hfile
      rw [findSettings, StateT.run_bind, run_firstFile? tree settingsPaths, hfile]
      rfl

theorem run_convert (threshold : Log.Threshold) (h : InForce tree arguments.config settings) :
    ∃ log report, report.result = Conversion.resultOf tree arguments.source
        (arguments.destination (arguments.override settings)) (arguments.override settings) ∧
      (convert threshold arguments : StateM Tree Outcome).run tree =
        (reportOutcome threshold arguments.source log report,
          Conversion.treeAfter tree arguments.source
            (arguments.destination (arguments.override settings)) (arguments.override settings)) := by
  obtain ⟨log, hlog⟩ := run_findSettings h
  refine ⟨log, _, rfl, ?_⟩
  rw [convert, StateT.run_bind, hlog]
  rfl

theorem reportOutcome_ok {report : Conversion.Report} {converted : Conversion.Converted}
    (h : report.result = .ok converted) (source : Text) (log : List Log.Record) :
    (reportOutcome threshold source log report).exitCode = 0 ∧
      (reportOutcome threshold source log report).stdout =
        "Converted ".toList ++ source ++ " to ".toList ++ converted.path ++ ['\n'] := by
  rw [reportOutcome, h]
  exact ⟨rfl, rfl⟩

theorem reportOutcome_error {report : Conversion.Report} {error : Conversion.Error}
    (h : report.result = .error error) (source : Text) (log : List Log.Record) :
    (reportOutcome threshold source log report).exitCode = 1 ∧
      (reportOutcome threshold source log report).stdout = [] := by
  rw [reportOutcome, h]
  exact ⟨rfl, rfl⟩

end Runs

/-- The program accepts exactly the command lines that ask for a run, and the run they ask for is one
conversion under the settings in force, overridden by the arguments. -/
theorem run_converts {tree : Tree} {arguments : Arguments} {file : Settings}
    (hforce : InForce tree arguments.config file) (threshold : Log.Threshold) (words : List Text) :
    (Request.ofArguments words = .run arguments ↔ AsksFor words arguments) ∧
      (AsksFor words arguments →
        let settings : Settings :=
          { suffix := arguments.suffix.getD file.suffix
            inPlace := arguments.inPlace || file.inPlace }
        let dest := arguments.output.getD (arguments.source ++ settings.suffix)
        let ran := (run threshold words : StateM Tree Outcome).run tree
        ran.2 = Conversion.treeAfter tree arguments.source dest settings ∧
          (∀ converted, Conversion.resultOf tree arguments.source dest settings = .ok converted →
            ran.1.exitCode = 0 ∧ ran.1.stdout =
              "Converted ".toList ++ arguments.source ++ " to ".toList ++ converted.path ++ ['\n']) ∧
          (∀ error, Conversion.resultOf tree arguments.source dest settings = .error error →
            ran.1.exitCode = 1 ∧ ran.1.stdout = [])) := by
  refine ⟨ofArguments_eq_run_iff, fun hasks => ?_⟩
  obtain ⟨log, report, hresult, hconvert⟩ := run_convert threshold hforce
  have hrun : (run threshold words : StateM Tree Outcome).run tree =
      (convert threshold arguments : StateM Tree Outcome).run tree := by
    rw [run, ofArguments_eq_run_iff.2 hasks]
  rw [hrun, hconvert]
  refine ⟨rfl, fun converted hok => ?_, fun error herror => ?_⟩
  · exact reportOutcome_ok (hresult.trans hok) arguments.source log
  · exact reportOutcome_error (hresult.trans herror) arguments.source log

def settingsText : Text := "[\".old\", true]".toList

/-- A scene, and settings behind a symbolic link. -/
def configuredTree : Tree :=
  { objects := [⟨[[['m']]], .data Conversion.sampleText.bytes⟩,
      ⟨[["tscnconv.config.json".toList]], .link ['c']⟩,
      ⟨[[['c']]], .data settingsText.bytes⟩] }

/-- The suffix is overridden, and the settings ask for a conversion in place. -/
theorem run_converts_configured :
    InForce configuredTree none ⟨".old".toList, true⟩ ∧
      AsksFor ["--suffix=.3".toList, "--".toList, ['m']]
        ⟨['m'], none, some ".3".toList, none, false⟩ ∧
      ((run none ["--suffix=.3".toList, "--".toList, ['m']] : StateM Tree Outcome).run
        configuredTree).1.stdout = "Converted m to m\n".toList := by
  have hread : configuredTree.read "tscnconv.config.json".toList = .ok settingsText :=
    Tree.read_of_readBytes rfl
  have hforce : InForce configuredTree none ⟨".old".toList, true⟩ :=
    .read rfl hread (by decide +kernel)
  have hasks : AsksFor ["--suffix=.3".toList, "--".toList, ['m']]
      ⟨['m'], none, some ".3".toList, none, false⟩ :=
    ofArguments_eq_run_iff.1 (by decide +kernel)
  obtain ⟨scene, hscene⟩ : ∃ scene, Scene.downgradeText Conversion.sampleText = .ok scene :=
    ⟨_, rfl⟩
  have hprepared : Conversion.Prepared configuredTree ['m'] "m.3".toList
      Conversion.sampleText scene := ⟨rfl, Tree.read_of_readBytes rfl, hscene⟩
  have hwrite : configuredTree.write "m.3".toList scene.toText =
    .ok (configuredTree.create ["m.3".toList] (.data scene.toText.bytes)) := rfl
  have hresult : Conversion.resultOf configuredTree ['m'] "m.3".toList ⟨".3".toList, true⟩ =
      .ok ⟨['m'], scene.stats⟩ := by
    rw [Conversion.resultOf, Conversion.run_convertFile_of_prepared hprepared,
      Conversion.run_deliver_inPlace rfl hwrite]
    rfl
  have hrun := (run_converts hforce none _).2 hasks
  exact ⟨hforce, hasks, (hrun.2.1 _ hresult).2⟩

end SceneDowngrade.Command
