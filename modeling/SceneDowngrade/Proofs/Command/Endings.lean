import SceneDowngrade.Proofs.Command.Runs
import SceneDowngrade.Proofs.Conversion.Failures

/-!
# The ways a run ends

A run shows its help, refuses its arguments, has no settings, or is a conversion, and only a
conversion touches the files.
-/
namespace SceneDowngrade.Command

open Files (Tree)

/-- Why a run has no settings: the file for them cannot be read, or it is no text of settings. -/
inductive Unsettled (tree : Tree) (named : Option Text) : Failure → Prop
  | unreadable {path fault} : settingsFile? tree named = some path →
    tree.read path = .error fault → Unsettled tree named (.unreadableSettings path fault)
  | invalid {path text error} : settingsFile? tree named = some path →
    tree.read path = .ok text → Settings.ofJson text = .error error →
    Unsettled tree named (.invalidSettings path error)

/-- The outcomes and final trees that a run can have, each with what led to it. -/
inductive Ending (threshold : Log.Threshold) (tree : Tree) (words : List Text) :
    Outcome → Tree → Prop
  | helped : Request.ofArguments words = .help →
    Ending threshold tree words { exitCode := 0, stdout := helpText } tree
  | refused {error} : Request.ofArguments words = .usageError error →
    Ending threshold tree words { exitCode := 2, stderr := errorLine error.message } tree
  | unsettled {arguments failure log} : AsksFor words arguments →
    Unsettled tree arguments.config failure →
    Ending threshold tree words
      { exitCode := 1, stderr := logText threshold log ++ errorLine failure.message } tree
  | converted {arguments file log report} : AsksFor words arguments →
    InForce tree arguments.config file →
    report.result = Conversion.resultOf tree arguments.source
      (arguments.destination (arguments.override file)) (arguments.override file) →
    Ending threshold tree words (reportOutcome threshold arguments.source log report)
      (Conversion.treeAfter tree arguments.source
        (arguments.destination (arguments.override file)) (arguments.override file))

/-- The run that the arguments ask for converts under these settings into this file. -/
def ConvertsTo (tree : Tree) (arguments : Arguments) (settings : Settings) (dest : Text) : Prop :=
  ∃ file, InForce tree arguments.config file ∧ arguments.override file = settings ∧
    arguments.destination settings = dest

section Endings

variable {tree : Tree} {named : Option Text} {arguments : Arguments} {failure : Failure}
  {words : List Text} {threshold : Log.Threshold}

theorem inForce_or_unsettled (tree : Tree) (named : Option Text) :
    (∃ settings, InForce tree named settings) ∨ ∃ failure, Unsettled tree named failure := by
  cases hfile : settingsFile? tree named with
  | none => exact .inl ⟨_, .default hfile⟩
  | some path =>
    cases hread : tree.read path with
    | error fault => exact .inr ⟨_, .unreadable hfile hread⟩
    | ok text =>
      cases hjson : Settings.ofJson text with
      | error error => exact .inr ⟨_, .invalid hfile hread hjson⟩
      | ok settings => exact .inl ⟨settings, .read hfile hread hjson⟩

theorem InForce.unique {settings other : Settings} (h : InForce tree named settings)
    (h' : InForce tree named other) : settings = other := by
  cases h with
  | default hfile =>
    cases h' with
    | default => rfl
    | read hfile' => simp [hfile] at hfile'
  | read hfile hread hjson =>
    cases h' with
    | default hfile' => simp [hfile] at hfile'
    | read hfile' hread' hjson' =>
      obtain rfl := Option.some.inj (hfile.symm.trans hfile')
      obtain rfl := Except.ok.inj (hread.symm.trans hread')
      exact Except.ok.inj (hjson.symm.trans hjson')

theorem Unsettled.not_inForce (h : Unsettled tree named failure) (settings : Settings) :
    ¬ InForce tree named settings := by
  intro hforce
  cases hforce with
  | default hfile' => cases h with | unreadable hfile | invalid hfile => simp [hfile] at hfile'
  | read hfile' hread' hjson' =>
    cases h with
    | unreadable hfile hread =>
      obtain rfl := Option.some.inj (hfile.symm.trans hfile')
      simp [hread] at hread'
    | invalid hfile hread hjson =>
      obtain rfl := Option.some.inj (hfile.symm.trans hfile')
      obtain rfl := Except.ok.inj (hread.symm.trans hread')
      simp [hjson] at hjson'

theorem ConvertsTo.unique {settings other : Settings} {dest dest' : Text}
    (h : ConvertsTo tree arguments settings dest) (h' : ConvertsTo tree arguments other dest') :
    settings = other ∧ dest = dest' := by
  obtain ⟨file, hforce, rfl, rfl⟩ := h
  obtain ⟨file', hforce', rfl, rfl⟩ := h'
  obtain rfl := hforce.unique hforce'
  exact ⟨rfl, rfl⟩

/-- Looking for settings that cannot be had changes no file either. -/
theorem Unsettled.run_findSettings (h : Unsettled tree named failure) :
    ∃ log, (findSettings named : StateM Tree (Except Failure Settings × List Log.Record)).run tree =
      ((.error failure, log), tree) := by
  cases h with
  | @unreadable path fault hfile hread =>
    refine run_findSettings_of_file hfile ?_
    rw [loadSettings, StateT.run_bind, Conversion.run_read, hread]
    rfl
  | @invalid path text error hfile hread hjson =>
    refine run_findSettings_of_file hfile ?_
    rw [loadSettings, StateT.run_bind, Conversion.run_read, hread]
    change ((Settings.ofJson text).mapError _, tree) = _
    rw [hjson]
    rfl

theorem Unsettled.run_convert (h : Unsettled tree arguments.config failure)
    (threshold : Log.Threshold) :
    ∃ log, (convert threshold arguments : StateM Tree Outcome).run tree =
      ({ exitCode := 1, stderr := logText threshold log ++ errorLine failure.message }, tree) := by
  obtain ⟨log, hlog⟩ := h.run_findSettings
  refine ⟨log, ?_⟩
  rw [convert, StateT.run_bind, hlog]
  rfl

theorem run_of_help (h : Request.ofArguments words = .help) (threshold : Log.Threshold)
    (tree : Tree) : (run threshold words : StateM Tree Outcome).run tree =
      ({ exitCode := 0, stdout := helpText }, tree) := by
  rw [run, h]
  rfl

theorem run_of_usageError {error : UsageError} (h : Request.ofArguments words = .usageError error)
    (threshold : Log.Threshold) (tree : Tree) :
    (run threshold words : StateM Tree Outcome).run tree =
      ({ exitCode := 2, stderr := errorLine error.message }, tree) := by
  rw [run, h]
  rfl

theorem run_of_asksFor (h : AsksFor words arguments) (threshold : Log.Threshold) (tree : Tree) :
    (run threshold words : StateM Tree Outcome).run tree =
      (convert threshold arguments : StateM Tree Outcome).run tree := by
  rw [run, ofArguments_eq_run_iff.2 h]

/-- Every run has one of the endings. -/
theorem ending (threshold : Log.Threshold) (tree : Tree) (words : List Text) :
    Ending threshold tree words ((run threshold words : StateM Tree Outcome).run tree).1
      ((run threshold words : StateM Tree Outcome).run tree).2 := by
  cases hrequest : Request.ofArguments words with
  | help =>
    rw [run_of_help hrequest]
    exact .helped hrequest
  | usageError error =>
    rw [run_of_usageError hrequest]
    exact .refused hrequest
  | run arguments =>
    have hasks := ofArguments_eq_run_iff.1 hrequest
    rw [run_of_asksFor hasks]
    rcases inForce_or_unsettled tree arguments.config with ⟨file, hforce⟩ | ⟨failure, h⟩
    · obtain ⟨log, report, hresult, hconvert⟩ := run_convert threshold hforce
      rw [hconvert]
      exact .converted hasks hforce hresult
    · obtain ⟨log, hconvert⟩ := h.run_convert threshold
      rw [hconvert]
      exact .unsettled hasks h

theorem error_of_exitCode {source : Text} {log : List Log.Record} {report : Conversion.Report}
    (h : (reportOutcome threshold source log report).exitCode ≠ 0) :
    ∃ error, report.result = .error error := by
  cases hresult : report.result with
  | error error => exact ⟨error, rfl⟩
  | ok converted => exact absurd (reportOutcome_ok hresult source log).1 h

theorem Ending.stdout_eq_nil {outcome : Outcome} {next : Tree}
    (h : Ending threshold tree words outcome next) (hcode : outcome.exitCode ≠ 0) :
    outcome.stdout = [] := by
  cases h with
  | helped => exact absurd rfl hcode
  | refused | unsettled => rfl
  | @converted arguments file log report =>
    obtain ⟨error, herror⟩ := error_of_exitCode hcode
    exact (reportOutcome_error herror arguments.source log).2

theorem AsksFor.unique {other : Arguments} (h : AsksFor words arguments)
    (h' : AsksFor words other) : arguments = other :=
  Request.run.inj ((ofArguments_eq_run_iff.2 h).symm.trans (ofArguments_eq_run_iff.2 h'))

/-- A run that was asked for and fails was no conversion and has left the tree alone, or else it is
the conversion that failed. -/
theorem Ending.kept_or_conversion {outcome : Outcome} {next : Tree}
    (h : Ending threshold tree words outcome next) (hcode : outcome.exitCode ≠ 0)
    (hasks : AsksFor words arguments) :
    (next = tree ∧ ∀ settings dest, ¬ ConvertsTo tree arguments settings dest) ∨
      ∃ settings dest error, ConvertsTo tree arguments settings dest ∧
        Conversion.resultOf tree arguments.source dest settings = .error error ∧
        next = Conversion.treeAfter tree arguments.source dest settings := by
  have hrequest := ofArguments_eq_run_iff.2 hasks
  cases h with
  | helped hhelp => simp [hrequest] at hhelp
  | refused hrefused => simp [hrequest] at hrefused
  | unsettled hasks' hunsettled =>
    obtain rfl := hasks.unique hasks'
    refine .inl ⟨rfl, ?_⟩
    rintro settings dest ⟨file, hforce, -⟩
    exact hunsettled.not_inForce file hforce
  | @converted arguments' file log report hasks' hforce hresult =>
    obtain rfl := hasks.unique hasks'
    obtain ⟨error, herror⟩ := error_of_exitCode hcode
    exact .inr ⟨_, _, error, ⟨file, hforce, rfl, rfl⟩, hresult.symm.trans herror, rfl⟩

theorem Ending.usageError_of_exitCode {outcome : Outcome} {next : Tree}
    (h : Ending threshold tree words outcome next) (hcode : outcome.exitCode = 2) :
    ∃ error, Request.ofArguments words = .usageError error := by
  cases h with
  | helped | unsettled => simp at hcode
  | refused hrefused => exact ⟨_, hrefused⟩
  | @converted arguments file log report =>
    obtain ⟨error, herror⟩ := error_of_exitCode (by rw [hcode]; decide)
    simp [(reportOutcome_error herror arguments.source log).1] at hcode

theorem exitCode_eq_two_iff (threshold : Log.Threshold) (tree : Tree) (words : List Text) :
    ((run threshold words : StateM Tree Outcome).run tree).1.exitCode = 2 ↔
      ∃ error, Request.ofArguments words = .usageError error := by
  refine ⟨(ending threshold tree words).usageError_of_exitCode, ?_⟩
  rintro ⟨error, herror⟩
  rw [run_of_usageError herror]

end Endings

/-- What a run does that does not succeed. Help and usage errors are the same in every tree and
leave it as it is, and a run without settings leaves it too. Whenever the exit code is not zero,
there is no output, and the tree is as it was if the destination had no entry. The source reads as
before exactly unless the run was a conversion in place whose destination is a second name of the
source's file, on another device than the name of the source. -/
theorem failed_run_kept_iff (threshold : Log.Threshold) (tree : Tree) (words : List Text) :
    let ran (tree : Tree) := (run threshold words : StateM Tree Outcome).run tree
    (Request.ofArguments words = .help →
        ∀ other, ran other = ({ exitCode := 0, stdout := helpText }, other)) ∧
      ((ran tree).1.exitCode = 2 ↔ ∃ error, Request.ofArguments words = .usageError error) ∧
      (∀ error, Request.ofArguments words = .usageError error →
        ∀ other, ran other = ({ exitCode := 2, stderr := errorLine error.message }, other)) ∧
      (∀ arguments failure, AsksFor words arguments → Unsettled tree arguments.config failure →
        ∃ log, ran tree =
          ({ exitCode := 1, stderr := logText threshold log ++ errorLine failure.message }, tree)) ∧
      ((ran tree).1.exitCode ≠ 0 → (ran tree).1.stdout = [] ∧
        ∀ arguments, AsksFor words arguments → tree.Rooted →
          ((ran tree).2.readBytes arguments.source = tree.readBytes arguments.source ↔
            ∀ settings dest, ConvertsTo tree arguments settings dest →
              ¬ Conversion.LosesSource tree arguments.source dest settings) ∧
          ((∀ settings dest, ConvertsTo tree arguments settings dest → tree.Unnamed dest) →
            (ran tree).2 = tree)) := by
  have hending := ending threshold tree words
  refine ⟨fun hhelp => run_of_help hhelp threshold, exitCode_eq_two_iff threshold tree words,
    fun error herror => run_of_usageError herror threshold, fun arguments failure hasks h => ?_,
    fun hcode => ⟨hending.stdout_eq_nil hcode, fun arguments hasks hroot => ?_⟩⟩
  · dsimp only
    rw [run_of_asksFor hasks]
    exact h.run_convert threshold
  · rcases hending.kept_or_conversion hcode hasks with
      ⟨hkept, hnone⟩ | ⟨settings, dest, error, hconverts, herror, hafter⟩
    · dsimp only
      rw [hkept]
      refine ⟨iff_of_true rfl fun settings dest hconverts => ?_, fun _ => rfl⟩
      exact absurd hconverts (hnone settings dest)
    · dsimp only
      rw [hafter]
      refine ⟨⟨fun hkept settings' dest' hconverts' hloses => ?_, fun hkept => ?_⟩,
        fun hunnamed => ?_⟩
      · obtain ⟨rfl, rfl⟩ := hconverts.unique hconverts'
        exact (hloses.lost hroot).2 hkept
      · exact Conversion.readBytes_of_error hroot (hkept settings dest hconverts) herror
      · exact Conversion.treeAfter_of_unnamed hroot (hunnamed settings dest hconverts) herror

/-- A scene on a device of its own cannot be replaced, and what was staged elsewhere is removed. -/
theorem failed_run_kept_iff_across_devices :
    let ran := (run none ["--in-place".toList, "-ok".toList, "d/m".toList] :
      StateM Tree Outcome).run Conversion.mountedTree
    ran.1.exitCode = 1 ∧ ran.1.stdout = [] ∧
      ran.2.readBytes "d/m".toList = Conversion.mountedTree.readBytes "d/m".toList ∧
      ran.2 = Conversion.mountedTree := by
  have hasks : AsksFor ["--in-place".toList, "-ok".toList, "d/m".toList]
      ⟨"d/m".toList, some ['k'], none, none, true⟩ :=
    ofArguments_eq_run_iff.1 (by decide +kernel)
  have hcode : ((run none ["--in-place".toList, "-ok".toList, "d/m".toList] :
      StateM Tree Outcome).run Conversion.mountedTree).1.exitCode = 1 := by decide +kernel
  obtain ⟨-, -, -, -, hfailed⟩ := failed_run_kept_iff none Conversion.mountedTree
    ["--in-place".toList, "-ok".toList, "d/m".toList]
  obtain ⟨hstdout, hkept⟩ := hfailed (by rw [hcode]; decide)
  obtain ⟨hsource, htree⟩ := hkept _ hasks Conversion.rooted_mountedTree
  refine ⟨hcode, hstdout, hsource.2 ?_, htree ?_⟩
  · rintro settings dest ⟨file, -, rfl, rfl⟩ ⟨-, ⟨_, _, _, _, -, hdest, -⟩, -⟩
    have habsent : Conversion.mountedTree.place .write ['k'] = .ok (.absent [['k']]) := rfl
    simp [Arguments.destination, habsent] at hdest
  · rintro settings dest ⟨file, -, rfl, rfl⟩ location hentry
    have habsent : Conversion.mountedTree.place .entry ['k'] = .ok (.absent [['k']]) := rfl
    simp [Arguments.destination, habsent] at hentry

/-- A run that fails has overwritten its source by way of a link to a second name of it. -/
theorem source_lost_of_failed_run :
    let words := ["--in-place".toList, "-ol".toList, "d/m".toList]
    let ran := (run none words : StateM Tree Outcome).run Conversion.mountedTree
    Conversion.mountedTree.Rooted ∧ Conversion.mountedTree.LinkedWithinDevices ∧
      AsksFor words ⟨"d/m".toList, some ['l'], none, none, true⟩ ∧ ran.1.exitCode = 1 ∧
      ran.2.readBytes "d/m".toList ≠ Conversion.mountedTree.readBytes "d/m".toList := by
  intro words
  let arguments : Arguments := ⟨"d/m".toList, some ['l'], none, none, true⟩
  have hasks : AsksFor words arguments := ofArguments_eq_run_iff.1 (by decide +kernel)
  have hforce : InForce Conversion.mountedTree arguments.config {} := .default rfl
  obtain ⟨log, report, hresult, hconvert⟩ := run_convert none hforce
  obtain ⟨herror, hlost⟩ :=
    Conversion.losesSource_mountedTree.lost Conversion.rooted_mountedTree
  dsimp only
  rw [run_of_asksFor hasks, hconvert]
  exact ⟨Conversion.rooted_mountedTree, Conversion.linkedWithinDevices_mountedTree, hasks,
    (reportOutcome_error (hresult.trans herror) arguments.source log).1, hlost⟩

end SceneDowngrade.Command
