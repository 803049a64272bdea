import Mathlib.Data.List.Nodup
import SceneDowngrade.Proofs.Command.Spelling

/-!
# The accepted command lines

A command line gives a source and some options in any order; behind two dashes alone only sources
follow. It is accepted if nothing is given twice, the source is given, and no path is empty. The scan
of the arguments accepts exactly these command lines, and finds in them what they give.
-/
namespace SceneDowngrade.Command

/-- What a command line gives, from the left. -/
inductive Gives : List Text → List Given → Prop
  | done : Gives [] []
  | next {given words rest givens} : given.Written words → Gives rest givens →
    Gives (words ++ rest) (given :: givens)
  | sources (paths : List Text) :
    Gives ("--".toList :: paths) (paths.map fun path => ⟨.source, path⟩)

/-- What is given is complete, nothing is given twice, and these are the arguments it stands for. -/
structure StandsFor (givens : List Given) (arguments : Arguments) : Prop where
  once : (givens.map (·.item)).Nodup
  filled : ∀ given ∈ givens, given.item.refusesEmpty = true → given.value ≠ []
  source : ⟨.source, arguments.source⟩ ∈ givens
  output : ∀ value, arguments.output = some value ↔ ⟨.output, value⟩ ∈ givens
  suffix : ∀ value, arguments.suffix = some value ↔ ⟨.suffix, value⟩ ∈ givens
  config : ∀ value, arguments.config = some value ↔ ⟨.config, value⟩ ∈ givens
  inPlace : arguments.inPlace = true ↔ ⟨.inPlace, []⟩ ∈ givens

/-- The command line is accepted and asks for a run with these arguments. -/
def AsksFor (words : List Text) (arguments : Arguments) : Prop :=
  ∃ givens, Gives words givens ∧ StandsFor givens arguments

/-- Only an option that takes a value has one, and help is nothing to be given to a run. -/
structure Given.Proper (given : Given) : Prop where
  item_ne_help : given.item ≠ .help
  inPlace : given.item = .inPlace → given.value = []

theorem Given.Written.proper {given : Given} {words : List Text} (h : given.Written words) :
    given.Proper := by
  cases h with
  | source | joined => exact ⟨by simp, nofun⟩
  | flag => exact ⟨by simp, fun _ => rfl⟩
  | apart htakes | equals htakes => constructor <;> rintro rfl <;> nomatch htakes

theorem Gives.proper {words : List Text} {givens : List Given} (h : Gives words givens) :
    ∀ given ∈ givens, given.Proper := by
  induction h with
  | done => nofun
  | next hwritten _ ih => exact List.forall_mem_cons.2 ⟨hwritten.proper, ih⟩
  | sources paths =>
    intro given hgiven
    obtain ⟨path, -, rfl⟩ := List.mem_map.1 hgiven
    exact ⟨by simp, nofun⟩

namespace Scan

/-- All arguments are read, and once what is held is recorded too, this is the scan. -/
def Ends (scan : Scan) (words : List Text) (final : Scan) : Prop :=
  ∃ last, scan.run words = .ok last ∧ last.settle = .ok final

/-- Record what is given, one after the other. -/
def recordAll (base : Scan) (givens : List Given) : Except UsageError Scan :=
  givens.foldlM (fun scan given => scan.record given.item (some given.value)) base

variable {scan base next final : Scan} {item : Item} {argument : Text} {words paths : List Text}
  {given : Given} {givens : List Given} {arguments : Arguments}

theorem recordAll_cons_eq_ok_iff : base.recordAll (given :: givens) = .ok final ↔
    ∃ after, base.record given.item (some given.value) = .ok after ∧
      after.recordAll givens = .ok final := by
  rw [recordAll, List.foldlM_cons]
  cases base.record given.item (some given.value) <;> simp [bind, Except.bind, recordAll]

theorem ends_nil : Ends scan [] final ↔ scan.settle = .ok final := by
  simp [Ends, run]

theorem ends_cons (h : argument ≠ "--".toList) : Ends scan (argument :: words) final ↔
    ∃ after, Reads scan argument after ∧ Ends after words final := by
  rw [Ends, run, if_neg h]
  simp only [← argument_eq_ok_iff]
  cases scan.argument argument <;> simp [bind, Except.bind, Ends]

theorem Reads.ends (h : Reads scan argument next) (hrest : Ends next words final) :
    Ends scan (argument :: words) final :=
  (ends_cons h.ne_dashes).2 ⟨next, h, hrest⟩

/-- Behind two dashes alone, the paths are recorded one after the other. -/
theorem ends_dashes : Ends scan ("--".toList :: paths) final ↔
    ∃ base, scan.settle = .ok base ∧
      base.recordAll (paths.map fun path => ⟨.source, path⟩) = .ok final := by
  rw [Ends, run, if_pos rfl]
  induction paths generalizing scan with
  | nil => simp [recordAll, pure, Except.pure]
  | cons path paths ih =>
    have hfold : (∃ last, (path :: paths).foldlM positional scan = .ok last ∧
        last.settle = .ok final) ↔ ∃ after, scan.positional path = .ok after ∧
          ∃ last, paths.foldlM positional after = .ok last ∧ last.settle = .ok final := by
      rw [List.foldlM_cons]
      cases scan.positional path <;> simp [bind, Except.bind]
    rw [hfold, List.map_cons]
    simp only [ih, positional_eq_ok_iff, recordAll_cons_eq_ok_iff]
    constructor
    · rintro ⟨_, ⟨base, hsettle, hrecorded, rfl⟩, after, hafter, hrest⟩
      rw [settle_holding (held_of_settle hsettle)] at hafter
      exact ⟨base, hsettle, after, hafter, hrest⟩
    · rintro ⟨base, hsettle, after, hrecord, hrest⟩
      refine ⟨_, ⟨base, hsettle, (record_eq_ok_iff.1 hrecord).1, rfl⟩, after, ?_, hrest⟩
      rw [settle_holding (held_of_settle hsettle), hrecord]

theorem Ends.awaited (h : Ends scan words final) (hheld : scan.held = some ⟨item, none⟩) :
    ∃ value rest, words = value :: rest ∧ IsPlain value ∧
      Ends (scan.holding item (some value)) rest final := by
  have hwaits : ∀ base, scan.settle ≠ .ok base := by
    intro base hsettle
    have := waits_of_settle hsettle
    simp [waits, hheld] at this
  cases words with
  | nil => exact absurd (ends_nil.1 h) (hwaits final)
  | cons next rest =>
    by_cases hdashes : next = "--".toList
    · subst hdashes
      obtain ⟨base, hsettle, -⟩ := ends_dashes.1 h
      exact absurd hsettle (hwaits base)
    · obtain ⟨after, hreads, hrest⟩ := (ends_cons hdashes).1 h
      cases hreads with
      | awaited hplain hitem =>
        cases hheld.symm.trans hitem
        exact ⟨next, rest, rfl, hplain, hrest⟩
      | source _ hsettle | flag _ _ hsettle | given _ _ hsettle => exact absurd hsettle (hwaits _)

/-- A scan that ends with all arguments read has recorded what they give. -/
theorem Ends.gives (h : Ends scan words final) (hwaits : scan.waits = false) :
    ∃ base givens, scan.settle = .ok base ∧ Gives words givens ∧
      base.recordAll givens = .ok final := by
  -- by the length of the arguments, since an option and its value are read together
  generalize hlength : words.length = length
  induction length using Nat.strong_induction_on generalizing words scan with
  | _ length ih =>
    subst hlength
    cases words with
    | nil => exact ⟨final, [], ends_nil.1 h, .done, rfl⟩
    | cons next rest =>
      by_cases hdashes : next = "--".toList
      · subst hdashes
        obtain ⟨base, hsettle, hrecord⟩ := ends_dashes.1 h
        exact ⟨base, _, hsettle, .sources rest, hrecord⟩
      obtain ⟨after, hreads, hrest⟩ := (ends_cons hdashes).1 h
      cases hreads with
      | awaited hplain hheld => simp [waits, hheld] at hwaits
      | @source base hplain hsettle =>
        obtain ⟨after, givens, hafter, hgives, hrecord⟩ :=
          ih rest.length (by simp) hrest rfl rfl
        rw [settle_holding (held_of_settle hsettle)] at hafter
        exact ⟨base, _, hsettle, .next (.source hplain) hgives,
          recordAll_cons_eq_ok_iff.2 ⟨after, hafter, hrecord⟩⟩
      | @flag base item htakes hflag hsettle =>
        obtain ⟨value, rest, rfl, hplain, hrest⟩ := hrest.awaited rfl
        obtain ⟨after, givens, hafter, hgives, hrecord⟩ :=
          ih rest.length (by simp only [List.length_cons]; omega) hrest rfl rfl
        change (base.holding item (some value)).settle = _ at hafter
        rw [settle_holding (held_of_settle hsettle)] at hafter
        exact ⟨base, _, hsettle, .next (.apart htakes hflag hplain) hgives,
          recordAll_cons_eq_ok_iff.2 ⟨after, hafter, hrecord⟩⟩
      | @given base after given hsource hwritten hsettle hafter =>
        have hheld : after.held = none := (held_of_record hafter).trans (held_of_settle hsettle)
        have hnext := settle_of_held_none hheld
        obtain ⟨_, givens, hsame, hgives, hrecord⟩ :=
          ih rest.length (by simp) hrest (waits_of_settle hnext) rfl
        cases hnext.symm.trans hsame
        exact ⟨base, _, hsettle, .next hwritten hgives,
          recordAll_cons_eq_ok_iff.2 ⟨after, hafter, hrecord⟩⟩

/-- If what the arguments give can be recorded, then the scan records it. -/
theorem ends_of_gives (h : Gives words givens) (hsettle : scan.settle = .ok base)
    (hrecord : base.recordAll givens = .ok final) : Ends scan words final := by
  induction h generalizing scan base with
  | done =>
    cases hrecord
    exact ends_nil.2 hsettle
  | sources paths => exact ends_dashes.2 ⟨base, hsettle, hrecord⟩
  | next hwritten hgives ih =>
    obtain ⟨after, hafter, hrest⟩ := recordAll_cons_eq_ok_iff.1 hrecord
    have hbase := held_of_settle hsettle
    have hnext := settle_of_held_none ((held_of_record hafter).trans hbase)
    cases hwritten with
    | source hplain =>
      refine (Reads.source hplain hsettle (record_eq_ok_iff.1 hafter).1).ends ?_
      exact ih ((settle_holding hbase _).trans hafter) hrest
    | apart htakes hflag hplain =>
      refine (Reads.flag htakes hflag hsettle).ends ((Reads.awaited hplain rfl).ends ?_)
      exact ih ((settle_holding hbase _).trans hafter) hrest
    | flag hflag =>
      exact (Reads.given (by simp) (.flag hflag) hsettle hafter).ends (ih hnext hrest)
    | equals htakes hflag =>
      refine (Reads.given ?_ (.equals htakes hflag) hsettle hafter).ends (ih hnext hrest)
      rintro rfl
      nomatch hflag
    | joined hc => exact (Reads.given (by simp) (.joined hc) hsettle hafter).ends (ih hnext hrest)

/-- The value recorded for an item. -/
def value? (scan : Scan) : Item → Option Text
  | .source => scan.source
  | .output => scan.output
  | .suffix => scan.suffix
  | .config => scan.config
  | .inPlace => if scan.inPlace then some [] else none
  | .help => none

theorem isRecorded_eq_isSome (scan : Scan) (item : Item) :
    scan.isRecorded item = (scan.value? item).isSome := by
  cases item <;> simp [isRecorded, value?]
  cases scan.inPlace <;> rfl

theorem value?_of_record (hproper : given.Proper)
    (h : scan.record given.item (some given.value) = .ok next) (item : Item) :
    next.value? item = if given.item = item then some given.value else scan.value? item := by
  obtain ⟨hhelp, hplace⟩ := hproper
  rw [(record_eq_ok_iff.1 h).2.2]
  obtain ⟨given, value⟩ := given
  cases given with
  | help => exact absurd rfl hhelp
  | inPlace =>
    have hvalue : value = [] := hplace rfl
    cases item <;> simp [setValue, value?, hvalue]
  | _ => cases item <;> rfl

theorem isRecorded_of_record (hproper : given.Proper)
    (h : scan.record given.item (some given.value) = .ok next) :
    next.isRecorded item = (decide (given.item = item) || scan.isRecorded item) := by
  rw [isRecorded_eq_isSome, isRecorded_eq_isSome, value?_of_record hproper h]
  split_ifs with hitem <;> simp [hitem]

/-- What is given can be recorded exactly if it is complete, and new, and nothing is given twice. -/
theorem exists_recordAll_iff (hproper : ∀ given ∈ givens, given.Proper) :
    (∃ final, base.recordAll givens = .ok final) ↔
      (givens.map (·.item)).Nodup ∧
        (∀ given ∈ givens, given.item.refusesEmpty = true → given.value ≠ []) ∧
        ∀ given ∈ givens, base.isRecorded given.item = false := by
  induction givens generalizing base with
  | nil => simp [recordAll, pure, Except.pure]
  | cons given givens ih =>
    obtain ⟨hgiven, hgivens⟩ := List.forall_mem_cons.1 hproper
    simp only [recordAll_cons_eq_ok_iff, List.map_cons, List.nodup_cons, List.forall_mem_cons]
    constructor
    · rintro ⟨final, after, hafter, hrest⟩
      obtain ⟨honce, hfilled, hfresh⟩ := (ih hgivens).1 ⟨final, hrest⟩
      obtain ⟨hrecorded, hvalue, -⟩ := record_eq_ok_iff.1 hafter
      simp only [isRecorded_of_record hgiven hafter, Bool.or_eq_false_iff,
        decide_eq_false_iff_not] at hfresh
      refine ⟨⟨?_, honce⟩, ⟨hvalue, hfilled⟩, hrecorded, fun other hother => (hfresh other hother).2⟩
      intro hmem
      obtain ⟨other, hother, hitem⟩ := List.mem_map.1 hmem
      exact (hfresh other hother).1 hitem.symm
    · rintro ⟨⟨hnew, honce⟩, ⟨hvalue, hfilled⟩, hrecorded, hfresh⟩
      have hafter : base.record given.item (some given.value) =
          .ok (base.setValue given.value given.item) :=
        record_eq_ok_iff.2 ⟨hrecorded, hvalue, rfl⟩
      have hstill : ∀ other ∈ givens,
          (base.setValue given.value given.item).isRecorded other.item = false := by
        intro other hother
        rw [isRecorded_of_record hgiven hafter, hfresh other hother, Bool.or_false]
        exact decide_eq_false fun hitem => hnew (List.mem_map.2 ⟨other, hother, hitem.symm⟩)
      obtain ⟨final, hfinal⟩ := (ih hgivens).2 ⟨honce, hfilled, hstill⟩
      exact ⟨final, _, hafter, hfinal⟩

theorem value?_of_recordAll (hproper : ∀ given ∈ givens, given.Proper)
    (h : base.recordAll givens = .ok final) (item : Item) (value : Text) :
    final.value? item = some value ↔ base.value? item = some value ∨ ⟨item, value⟩ ∈ givens := by
  induction givens generalizing base with
  | nil =>
    cases h
    simp
  | cons given givens ih =>
    obtain ⟨hgiven, hgivens⟩ := List.forall_mem_cons.1 hproper
    obtain ⟨after, hafter, hrest⟩ := recordAll_cons_eq_ok_iff.1 h
    rw [ih hgivens hrest, value?_of_record hgiven hafter, List.mem_cons, ← or_assoc]
    refine or_congr_left ?_
    obtain ⟨other, content⟩ := given
    have hfresh := (record_eq_ok_iff.1 hafter).1
    rw [isRecorded_eq_isSome, Option.isSome_eq_false_iff, Option.isNone_iff_eq_none] at hfresh
    split_ifs with hitem
    · subst hitem
      simp only at hfresh
      simp [hfresh, eq_comm]
    · have hne : ¬ item = other := fun heq => hitem heq.symm
      simp [hne]

/-- The arguments that a scan in which nothing is held back leads to. -/
structure Yields (final : Scan) (arguments : Arguments) : Prop where
  source : final.source = some arguments.source
  output : final.output = arguments.output
  suffix : final.suffix = arguments.suffix
  config : final.config = arguments.config
  inPlace : final.inPlace = arguments.inPlace

theorem finish_eq_ok_iff : scan.finish = .ok arguments ↔
    ∃ final, scan.settle = .ok final ∧ final.Yields arguments := by
  rw [finish]
  cases scan.settle with
  | error e => simp [bind, Except.bind]
  | ok final =>
    obtain ⟨source, output, suffix, config, inPlace⟩ := arguments
    simp only [Except.ok.injEq, exists_eq_left', bind, Except.bind]
    cases hsource : final.source with
    | none => exact ⟨nofun, fun h => nomatch hsource.symm.trans h.source⟩
    | some path =>
      constructor
      · intro h
        cases h
        exact ⟨hsource, rfl, rfl, rfl, rfl⟩
      · rintro ⟨hpath, houtput, hsuffix, hconfig, hplace⟩
        dsimp only at hpath houtput hsuffix hconfig hplace
        cases hsource.symm.trans hpath
        rw [houtput, hsuffix, hconfig, hplace]
        rfl

theorem isRecorded_start (item : Item) : ({} : Scan).isRecorded item = false := by
  cases item <;> rfl

theorem standsFor_iff (hproper : ∀ given ∈ givens, given.Proper) :
    StandsFor givens arguments ↔
      ∃ final, ({} : Scan).recordAll givens = .ok final ∧ final.Yields arguments := by
  have hstart (item : Item) (value : Text) : ({} : Scan).value? item ≠ some value := by
    cases item <;> nofun
  have hgiven {final : Scan} (h : ({} : Scan).recordAll givens = .ok final) (item : Item)
      (value : Text) : final.value? item = some value ↔ ⟨item, value⟩ ∈ givens :=
    (value?_of_recordAll hproper h item value).trans (or_iff_right (hstart item value))
  have hplace (scan : Scan) : scan.inPlace = true ↔ scan.value? .inPlace = some [] := by
    simp [value?]
  constructor
  · intro h
    obtain ⟨final, hfinal⟩ := (exists_recordAll_iff hproper).2
      ⟨h.once, h.filled, fun given _ => isRecorded_start given.item⟩
    refine ⟨final, hfinal, ?_, ?_, ?_, ?_, ?_⟩
    · exact (hgiven hfinal .source _).2 h.source
    · exact Option.ext fun value => (hgiven hfinal .output value).trans (h.output value).symm
    · exact Option.ext fun value => (hgiven hfinal .suffix value).trans (h.suffix value).symm
    · exact Option.ext fun value => (hgiven hfinal .config value).trans (h.config value).symm
    · rw [Bool.eq_iff_iff, hplace, hgiven hfinal, h.inPlace]
  · rintro ⟨final, hfinal, hyields⟩
    obtain ⟨honce, hfilled, -⟩ := (exists_recordAll_iff hproper).1 ⟨final, hfinal⟩
    refine ⟨honce, hfilled, ?_, ?_, ?_, ?_, ?_⟩
    · exact (hgiven hfinal .source _).1 hyields.source
    · exact fun value => hyields.output ▸ hgiven hfinal .output value
    · exact fun value => hyields.suffix ▸ hgiven hfinal .suffix value
    · exact fun value => hyields.config ▸ hgiven hfinal .config value
    · rw [← hyields.inPlace, hplace, hgiven hfinal]

end Scan

theorem ofArguments_eq_run_iff_finish {words : List Text} {arguments : Arguments} :
    Request.ofArguments words = .run arguments ↔
      ∃ last, Scan.run {} words = .ok last ∧ last.finish = .ok arguments := by
  rw [Request.ofArguments]
  cases Scan.run {} words with
  | error stop => cases stop <;> simp
  | ok last => cases hfinish : last.finish <;> simp [hfinish]

/-- A command line is accepted exactly if it asks for a run, and then for that run. -/
theorem ofArguments_eq_run_iff {words : List Text} {arguments : Arguments} :
    Request.ofArguments words = .run arguments ↔ AsksFor words arguments := by
  rw [ofArguments_eq_run_iff_finish]
  simp only [Scan.finish_eq_ok_iff]
  constructor
  · rintro ⟨last, hrun, final, hsettle, hyields⟩
    have hends : Scan.Ends {} words final := ⟨last, hrun, hsettle⟩
    obtain ⟨base, givens, hbase, hgives, hrecord⟩ := hends.gives rfl
    cases hbase
    exact ⟨givens, hgives, (Scan.standsFor_iff hgives.proper).2 ⟨final, hrecord, hyields⟩⟩
  · rintro ⟨givens, hgives, hstands⟩
    obtain ⟨final, hrecord, hyields⟩ := (Scan.standsFor_iff hgives.proper).1 hstands
    have hstart : Scan.settle {} = .ok {} := rfl
    obtain ⟨last, hrun, hsettle⟩ := Scan.ends_of_gives hgives hstart hrecord
    exact ⟨last, hrun, final, hsettle, hyields⟩

end SceneDowngrade.Command
