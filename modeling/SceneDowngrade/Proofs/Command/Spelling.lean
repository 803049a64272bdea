import Mathlib.Data.List.TakeWhile
import SceneDowngrade.Command.Arguments

/-!
# How the arguments spell what they give

A source is given by an argument that is no option; the value of an option stands behind it, behind
an equals sign, or, for the short name of the output, right behind it. What one argument does to the
scan is settled here: it fills in the value that is waited for, or, once what is held can be
recorded, it is held itself, or recorded at once.
-/
namespace SceneDowngrade.Command

/-- Something that a command line gives, with its value. The flag has no value, written `[]`. -/
structure Given where
  item : Item
  value : Text
  deriving DecidableEq, Repr

/-- The arguments that an option of a run is named by. -/
def Item.flags : Item → List Text
  | .output => ["--output".toList, "-o".toList]
  | .suffix => ["--suffix".toList]
  | .config => ["--config".toList]
  | .inPlace => ["--in-place".toList]
  | .source | .help => []

/-- Whether an argument is no option: only a dash alone may begin with a dash. -/
def IsPlain (argument : Text) : Prop := argument.head? = some '-' → argument = ['-']

instance (argument : Text) : Decidable (IsPlain argument) := inferInstanceAs (Decidable (_ → _))

/-- The arguments by which something can be given. -/
inductive Given.Written : Given → List Text → Prop
  | source {path} : IsPlain path → Written ⟨.source, path⟩ [path]
  | flag {flag} : flag ∈ Item.inPlace.flags → Written ⟨.inPlace, []⟩ [flag]
  | apart {item flag value} : item.takesValue = true → flag ∈ item.flags → IsPlain value →
    Written ⟨item, value⟩ [flag, value]
  | equals {item flag value} : item.takesValue = true → flag ∈ item.flags →
    Written ⟨item, value⟩ [flag ++ '=' :: value]
  | joined {c rest} : c ≠ '=' → Written ⟨.output, c :: rest⟩ ["-o".toList ++ c :: rest]

theorem Item.flag_of_ofName? {name : Text} {item : Item} (h : Item.ofName? name = some item) :
    item = .help ∨ "--".toList ++ name ∈ item.flags := by
  simp only [Item.ofName?] at h
  split_ifs at h <;> subst_vars <;> cases h <;> first | exact .inl rfl | exact .inr (by decide)

namespace Scan

variable {scan base next : Scan} {item : Item} {value argument flag name rest : Text} {c : Char}

@[simp] theorem orStop_eq_ok_iff {result : Except UsageError Scan} :
    orStop result = .ok next ↔ result = .ok next := by
  cases result <;> simp [orStop, Except.mapError]

theorem record_eq_ok_iff : scan.record item (some value) = .ok next ↔
    scan.isRecorded item = false ∧ (item.refusesEmpty = true → value ≠ []) ∧
      next = scan.setValue value item := by
  rw [record]
  split_ifs with hrecorded hempty
  · simp [hrecorded]
  · simp only [Bool.and_eq_true, List.isEmpty_iff] at hempty
    simp [hempty]
  · simp only [Bool.and_eq_true, List.isEmpty_iff, not_and] at hempty
    simp only [Except.ok.injEq, hrecorded, true_and]
    exact ⟨fun h => ⟨hempty, h.symm⟩, fun h => h.2.symm⟩

@[simp] theorem held_setValue (scan : Scan) (value : Text) (item : Item) :
    (scan.setValue value item).held = scan.held := by
  cases item <;> rfl

theorem held_of_record (h : scan.record item (some value) = .ok next) : next.held = scan.held := by
  rw [(record_eq_ok_iff.1 h).2.2, held_setValue]

/-- A scan that holds an item back, with nothing but it still to be recorded. -/
def holding (base : Scan) (item : Item) (value : Option Text) : Scan :=
  { base with held := some ⟨item, value⟩ }

theorem settle_of_held_none (h : scan.held = none) : scan.settle = .ok scan := by
  rw [settle, h]

theorem settle_holding (h : base.held = none) (value : Option Text) :
    (base.holding item value).settle = base.record item value := by
  have hback : ({ base.holding item value with held := none } : Scan) = base := by
    rw [holding, ← h]
  rw [settle, holding]
  exact congrArg (fun scan => scan.record item value) hback

theorem settle_cases (h : scan.settle = .ok base) :
    scan.held = none ∧ base = scan ∨
      ∃ item value, scan.held = some ⟨item, some value⟩ ∧
        ({ scan with held := none } : Scan).record item (some value) = .ok base := by
  rw [settle] at h
  split at h
  next hheld => exact .inl ⟨hheld, (Except.ok.inj h).symm⟩
  next held hheld =>
    obtain ⟨item, _ | value⟩ := held
    · nomatch h
    · exact .inr ⟨item, value, hheld, h⟩

theorem held_of_settle (h : scan.settle = .ok base) : base.held = none := by
  obtain ⟨hheld, rfl⟩ | ⟨item, value, -, hrecord⟩ := settle_cases h
  · exact hheld
  · exact held_of_record hrecord

theorem waits_of_settle (h : scan.settle = .ok base) : scan.waits = false := by
  obtain ⟨hheld, -⟩ | ⟨item, value, hheld, -⟩ := settle_cases h <;> rw [waits, hheld]

theorem hasSource_of_settle (h : scan.settle = .ok base) :
    scan.hasSource = base.isRecorded .source := by
  obtain ⟨hheld, rfl⟩ | ⟨item, value, hheld, hrecord⟩ := settle_cases h
  · simp [hasSource, isRecorded, hheld]
  · rw [hasSource, hheld, (record_eq_ok_iff.1 hrecord).2.2]
    cases item <;> simp [isRecorded, setValue]

theorem hold_eq_ok_iff {value : Option Text} : scan.hold item value = .ok next ↔
    ∃ base, scan.settle = .ok base ∧ next = base.holding item value := by
  rw [hold]
  cases scan.settle with
  | error e => simp [bind, Except.bind]
  | ok base => simp [bind, Except.bind, pure, Except.pure, holding, eq_comm]

theorem give_eq_ok_iff : scan.give item value = .ok next ↔
    ∃ base, scan.settle = .ok base ∧ base.record item (some value) = .ok next := by
  rw [give]
  cases scan.settle <;> simp [bind, Except.bind]

theorem positional_eq_ok_iff : scan.positional argument = .ok next ↔
    ∃ base, scan.settle = .ok base ∧ base.isRecorded .source = false ∧
      next = base.holding .source (some argument) := by
  rw [positional]
  split_ifs with hsource
  · suffices ∀ base, scan.settle = .ok base → base.isRecorded .source = true by
      simp +contextual [this]
    intro base hsettle
    rw [← hasSource_of_settle hsettle, hsource]
  · rw [orStop_eq_ok_iff, hold_eq_ok_iff]
    refine exists_congr fun base => and_congr_right fun hsettle => ?_
    rw [← hasSource_of_settle hsettle]
    simp [hsource]

theorem plain_eq_ok_iff : scan.plain argument = .ok next ↔
    (∃ item, scan.held = some ⟨item, none⟩ ∧ next = scan.holding item (some argument)) ∨
      scan.positional argument = .ok next ∧ scan.waits = false := by
  rw [plain]
  split_ifs with hwaits
  · simp only [hwaits, Bool.true_eq_false, and_false, or_false]
    rw [waits] at hwaits
    split at hwaits
    next item hheld => simp [hheld, holding, eq_comm]
    next => nomatch hwaits
  · simp only [hwaits, and_true]
    refine ⟨.inr, fun h => h.resolve_left ?_⟩
    rintro ⟨item, hheld, -⟩
    simp [waits, hheld] at hwaits

theorem option_help_ne_ok (scan next : Scan) (attached : Option Text) :
    scan.option .help attached ≠ .ok next := by
  intro h
  cases attached with
  | some value => nomatch h
  | none =>
    change (orStop scan.settle >>= fun _ => throw .help) = Except.ok next at h
    cases hsettle : scan.settle <;> rw [hsettle] at h <;> nomatch h

theorem option_eq_ok_iff {attached : Option Text} : scan.option item attached = .ok next ↔
    (item.takesValue = true ∧ attached = none ∧ scan.hold item none = .ok next) ∨
    (item.takesValue = true ∧ ∃ value, attached = some value ∧ scan.give item value = .ok next) ∨
    (item = .inPlace ∧ attached = none ∧ scan.give .inPlace [] = .ok next) := by
  cases item with
  | help => simp [Item.takesValue, option_help_ne_ok]
  | _ => cases attached <;> simp [option, Item.takesValue]

theorem exists_name (text : Text) :
    ∃ (name : Text) (attached : Option Text),
      '=' ∉ name ∧ text = name ++ attached.elim [] ('=' :: ·) := by
  by_cases h : '=' ∈ text
  · obtain ⟨name, value, htext, hname⟩ := List.eq_append_cons_of_mem h
    exact ⟨name, some value, hname, htext⟩
  · exact ⟨text, none, h, (List.append_nil text).symm⟩

theorem longOption_eq_ok_iff (h : '=' ∉ name) {attached : Option Text} :
    scan.longOption (name ++ attached.elim [] ('=' :: ·)) = .ok next ↔
      ∃ item, Item.ofName? name = some item ∧ scan.option item attached = .ok next := by
  have hbefore : ∀ c ∈ name, decide (c ≠ '=') = true := by
    intro c hc
    exact decide_eq_true fun heq => h (heq ▸ hc)
  have hattached : ((attached.elim [] ('=' :: ·)).dropWhile (· ≠ '=')).tail? = attached := by
    cases attached <;> rfl
  have hname : name ++ (attached.elim [] ('=' :: ·)).takeWhile (· ≠ '=') = name := by
    cases attached <;> exact List.append_nil name
  rw [longOption, List.takeWhile_append_of_pos hbefore, List.dropWhile_append_of_pos hbefore,
    hattached, hname]
  cases Item.ofName? name <;> simp

theorem argument_plain (h : IsPlain argument) : scan.argument argument = scan.plain argument := by
  rw [Scan.argument.eq_3]
  · rintro rest rfl
    nomatch h rfl
  · rintro c rest rfl
    nomatch h rfl

theorem argument_flag (h : flag ∈ item.flags) (attached : Option Text) :
    scan.argument (flag ++ attached.elim [] ('=' :: ·)) = scan.option item attached := by
  cases item with
  | output =>
    simp only [Item.flags, List.mem_cons, List.not_mem_nil, or_false] at h
    obtain rfl | rfl := h <;> cases attached <;> rfl
  | suffix | config | inPlace =>
    obtain rfl := List.mem_singleton.1 h
    cases attached <;> rfl
  | source | help => nomatch h

theorem argument_bare (h : flag ∈ item.flags) : scan.argument flag = scan.option item none := by
  simpa using argument_flag h none

theorem argument_joined (h : c ≠ '=') (rest : Text) :
    scan.argument ("-o".toList ++ c :: rest) = scan.option .output (some (c :: rest)) := by
  change scan.shortOption 'o' (c :: rest) = _
  rw [shortOption.eq_def, if_neg (by decide), if_pos rfl]
  split
  next heq => nomatch heq
  next value heq => exact absurd (List.cons.inj heq).1 h
  next => rfl

/-- What one argument does to a scan that goes on. -/
inductive Reads (scan : Scan) (next : Text) : Scan → Prop
  | awaited {item : Item} : IsPlain next → scan.held = some ⟨item, none⟩ →
    Reads scan next (scan.holding item (some next))
  | source {base : Scan} : IsPlain next → scan.settle = .ok base → base.isRecorded .source = false →
    Reads scan next (base.holding .source (some next))
  | flag {base : Scan} {item : Item} : item.takesValue = true → next ∈ item.flags →
    scan.settle = .ok base → Reads scan next (base.holding item none)
  | given {base after : Scan} {given : Given} : given.item ≠ .source → given.Written [next] →
    scan.settle = .ok base → base.record given.item (some given.value) = .ok after →
    Reads scan next after

theorem Reads.of_plain (hplain : IsPlain argument) (h : scan.plain argument = .ok next) :
    Reads scan argument next := by
  rw [plain_eq_ok_iff, positional_eq_ok_iff] at h
  obtain ⟨item, hheld, rfl⟩ | ⟨⟨base, hsettle, hrecorded, rfl⟩, -⟩ := h
  · exact .awaited hplain hheld
  · exact .source hplain hsettle hrecorded

theorem Reads.of_option {attached : Option Text} (hflag : item = .help ∨ flag ∈ item.flags)
    (h : scan.option item attached = .ok next) :
    Reads scan (flag ++ attached.elim [] ('=' :: ·)) next := by
  replace hflag : flag ∈ item.flags :=
    hflag.resolve_left fun hhelp => option_help_ne_ok scan next attached (hhelp ▸ h)
  rw [option_eq_ok_iff] at h
  obtain ⟨htakes, rfl, h⟩ | ⟨htakes, value, rfl, h⟩ | ⟨rfl, rfl, h⟩ := h
  · obtain ⟨base, hsettle, rfl⟩ := hold_eq_ok_iff.1 h
    rw [Option.elim_none, List.append_nil]
    exact .flag htakes hflag hsettle
  · obtain ⟨base, hsettle, hrecord⟩ := give_eq_ok_iff.1 h
    have hsource : item ≠ .source := by
      rintro rfl
      nomatch hflag
    have hwritten : Given.Written ⟨item, value⟩ [flag ++ '=' :: value] := .equals htakes hflag
    exact .given hsource hwritten hsettle hrecord
  · obtain ⟨base, hsettle, hrecord⟩ := give_eq_ok_iff.1 h
    rw [Option.elim_none, List.append_nil]
    have hwritten : Given.Written ⟨.inPlace, []⟩ [flag] := .flag hflag
    exact .given (by simp) hwritten hsettle hrecord

theorem Reads.of_shortOption (h : scan.shortOption c rest = .ok next) :
    Reads scan ('-' :: c :: rest) next := by
  rw [shortOption.eq_def] at h
  split_ifs at h with hhelp houtput
  · exact absurd h (option_help_ne_ok scan next none)
  · subst houtput
    have hflag : "-o".toList ∈ Item.output.flags := by decide
    split at h
    next => exact .of_option (.inr hflag) h
    next value => exact .of_option (.inr hflag) h
    next value hempty hequals =>
      obtain ⟨c, rest, rfl⟩ := List.exists_cons_of_ne_nil hempty
      have hc : c ≠ '=' := fun heq => hequals rest (heq ▸ rfl)
      obtain ⟨base, hsettle, hrecord⟩ := give_eq_ok_iff.1 (orStop_eq_ok_iff.1 h)
      have hwritten : Given.Written ⟨.output, c :: rest⟩ ["-o".toList ++ c :: rest] := .joined hc
      exact .given (by simp) hwritten hsettle hrecord

theorem Reads.of_argument (h : scan.argument argument = .ok next) : Reads scan argument next := by
  rw [Scan.argument.eq_def] at h
  split at h
  next text =>
    obtain ⟨name, attached, hname, rfl⟩ := exists_name text
    obtain ⟨item, hitem, h⟩ := (longOption_eq_ok_iff hname).1 h
    exact .of_option (Item.flag_of_ofName? hitem) h
  next => exact .of_shortOption h
  next hlong hshort =>
    refine .of_plain ?_ h
    intro hdash
    obtain ⟨rest, rfl⟩ := List.head?_eq_some_iff.1 hdash
    cases rest with
    | nil => rfl
    | cons c rest => exact absurd rfl (hshort c rest)

theorem Reads.argument_eq (h : Reads scan argument next) : scan.argument argument = .ok next := by
  cases h with
  | awaited hplain hheld =>
    rw [argument_plain hplain, plain_eq_ok_iff]
    exact .inl ⟨_, hheld, rfl⟩
  | source hplain hsettle hrecorded =>
    rw [argument_plain hplain, plain_eq_ok_iff, positional_eq_ok_iff]
    exact .inr ⟨⟨_, hsettle, hrecorded, rfl⟩, waits_of_settle hsettle⟩
  | flag htakes hflag hsettle =>
    rw [argument_bare hflag, option_eq_ok_iff, hold_eq_ok_iff]
    exact .inl ⟨htakes, rfl, _, hsettle, rfl⟩
  | given hsource hwritten hsettle hrecord =>
    have hgive := give_eq_ok_iff.2 ⟨_, hsettle, hrecord⟩
    cases hwritten with
    | source => exact absurd rfl hsource
    | flag hflag =>
      rw [argument_bare hflag, option_eq_ok_iff]
      exact .inr (.inr ⟨rfl, rfl, hgive⟩)
    | equals htakes hflag =>
      refine (argument_flag hflag (some _)).trans (option_eq_ok_iff.2 ?_)
      exact .inr (.inl ⟨htakes, _, rfl, hgive⟩)
    | joined hc =>
      rw [argument_joined hc, option_eq_ok_iff]
      exact .inr (.inl ⟨rfl, _, rfl, hgive⟩)

theorem argument_eq_ok_iff : scan.argument argument = .ok next ↔ Reads scan argument next :=
  ⟨.of_argument, Reads.argument_eq⟩

theorem Reads.ne_dashes (h : Reads scan argument next) : argument ≠ "--".toList := by
  rintro rfl
  nomatch h.argument_eq

end Scan

end SceneDowngrade.Command
