import Mathlib.Data.List.TakeWhile
import SceneDowngrade.Proofs.Text.Occurrence
import SceneDowngrade.Proofs.Text.Trim
import SceneDowngrade.Text.QuotedSpan

/-!
# Spans and the text around them

A text is read from the left: where a span begins it is one piece, elsewhere a character is one.
Most facts follow these two steps. Editing the runs of the spans and nothing else is a
substitution.
-/
namespace SceneDowngrade

open Text

namespace QuotedSpan

/-- The runs of such a span are what stands between two quotes. -/
structure Delimited (span : QuotedSpan) : Prop where
  opening : ∃ start, start ≠ [] ∧ '"' ∉ start ∧ span.opening = start ++ ['"']
  closing : ∃ rest, '"' ∉ rest ∧ span.closing = '"' :: rest

/-- The span stands nowhere in the text, with whatever run inside. -/
def Absent (span : QuotedSpan) (text : Text) : Prop :=
  ∀ run, '"' ∉ run → ¬ span.around run <:+: text

section
variable {span : QuotedSpan}

theorem Delimited.around_eq (h : span.Delimited) : ∃ start rest, start ≠ [] ∧ '"' ∉ start ∧
    ∀ run, span.around run = start ++ '"' :: (run ++ '"' :: rest) := by
  obtain ⟨start, hne, hstart, hopening⟩ := h.opening
  obtain ⟨rest, -, hclosing⟩ := h.closing
  exact ⟨start, rest, hne, hstart, fun run => by simp [around, hopening, hclosing]⟩

theorem Delimited.around_ne_nil (h : span.Delimited) (run : Text) : span.around run ≠ [] := by
  obtain ⟨start, rest, -, -, he⟩ := h.around_eq
  simp [he]

theorem Delimited.head?_around (h : span.Delimited) (run : Text) :
    (span.around run).head? = span.opening.head? := by
  obtain ⟨start, -, -, hopening⟩ := h.opening
  cases start <;> simp [around, hopening]

theorem Delimited.getLast?_around (h : span.Delimited) (run : Text) :
    (span.around run).getLast? = span.closing.getLast? := by
  obtain ⟨rest, -, hclosing⟩ := h.closing
  rw [around, hclosing, List.getLast?_append_cons]

theorem run?_append (inner : Text) :
    span.run? (span.opening ++ inner) =
      if span.closing.isPrefixOf (inner.dropWhile (· ≠ '"')) then some (inner.takeWhile (· ≠ '"'))
      else none := by
  have hopening : span.opening.isPrefixOf (span.opening ++ inner) = true := by
    simp [List.isPrefixOf_iff_prefix]
  have hinner : inner.drop (inner.takeWhile (· ≠ '"')).length = inner.dropWhile (· ≠ '"') := by
    have hsplit := List.takeWhile_append_dropWhile (p := (· ≠ '"')) (l := inner)
    calc inner.drop (inner.takeWhile (· ≠ '"')).length
        = (inner.takeWhile (· ≠ '"') ++ inner.dropWhile (· ≠ '"')).drop
            (inner.takeWhile (· ≠ '"')).length := by rw [hsplit]
      _ = inner.dropWhile (· ≠ '"') := List.drop_left
  simp only [run?, hopening, if_true, List.drop_left, hinner]

theorem run?_eq_some_iff (h : span.Delimited) {text run : Text} :
    span.run? text = some run ↔ '"' ∉ run ∧ span.around run <+: text := by
  obtain ⟨rest, -, hclosing⟩ := h.closing
  constructor
  · intro hrun
    have ho : span.opening <+: text := by
      by_contra ho
      have hp : ¬ span.opening.isPrefixOf text = true := fun hp =>
        ho (List.isPrefixOf_iff_prefix.1 hp)
      simp [run?, hp] at hrun
    obtain ⟨inner, rfl⟩ := ho
    rw [run?_append] at hrun
    split_ifs at hrun with hc
    obtain rfl : inner.takeWhile (· ≠ '"') = run := by simpa using hrun
    have hclose := List.isPrefixOf_iff_prefix.1 hc
    have hinner := List.takeWhile_append_dropWhile (p := (· ≠ '"')) (l := inner)
    refine ⟨fun hq => by simpa using List.mem_takeWhile_imp hq, ?_⟩
    rw [around, List.append_assoc, List.prefix_append_right_inj]
    conv_rhs => rw [← hinner]
    exact (List.prefix_append_right_inj _).2 hclose
  · rintro ⟨hquote, more, rfl⟩
    have hrun : ∀ c ∈ run, decide (c ≠ '"') = true := fun c hc => by
      simpa using fun h : c = '"' => hquote (h ▸ hc)
    rw [around, List.append_assoc, List.append_assoc, run?_append,
      List.dropWhile_append_of_pos hrun, List.takeWhile_append_of_pos hrun]
    simp [hclosing, List.isPrefixOf_iff_prefix]

theorem piecesFrom_eq (skip : Nat) (text : Text) :
    span.piecesFrom skip text = span.pieces (text.drop skip) := by
  induction text generalizing skip with
  | nil => cases skip <;> simp [piecesFrom, pieces]
  | cons c rest ih =>
    cases skip with
    | zero => rfl
    | succ skip => rw [piecesFrom, ih, List.drop_succ_cons]

@[simp] theorem pieces_nil : span.pieces [] = [] := by simp [pieces, piecesFrom]

theorem pieces_span (h : span.Delimited) {run : Text} (hrun : '"' ∉ run) (rest : Text) :
    span.pieces (span.around run ++ rest) = .span run :: span.pieces rest := by
  have hfound : span.run? (span.around run ++ rest) = some run :=
    (run?_eq_some_iff h).2 ⟨hrun, List.prefix_append _ _⟩
  obtain ⟨c, tail, hc⟩ := List.exists_cons_of_ne_nil (h.around_ne_nil run)
  rw [hc, List.cons_append] at hfound ⊢
  have hstep : span.pieces (c :: (tail ++ rest)) =
      .span run :: span.piecesFrom ((span.around run).length - 1) (tail ++ rest) := by
    rw [pieces, piecesFrom, hfound]
  rw [hstep, piecesFrom_eq, hc, List.length_cons, Nat.add_sub_cancel, List.drop_left]

theorem pieces_plain {c : Char} {rest : Text} (h : span.run? (c :: rest) = none) :
    span.pieces (c :: rest) = .plain c :: span.pieces rest := by
  rw [pieces, piecesFrom, h]
  rfl

@[elab_as_elim]
theorem pieces_induction {motive : Text → Prop} (h : span.Delimited) (nil : motive [])
    (found : ∀ run rest, '"' ∉ run → motive rest → motive (span.around run ++ rest))
    (pass : ∀ c rest, span.run? (c :: rest) = none → motive rest → motive (c :: rest))
    (text : Text) : motive text := by
  induction hn : text.length using Nat.strong_induction_on generalizing text with
  | _ n ih =>
    subst hn
    cases text with
    | nil => exact nil
    | cons c rest =>
      cases hr : span.run? (c :: rest) with
      | none => exact pass c rest hr (ih _ (by simp) rest rfl)
      | some run =>
        obtain ⟨hrun, tail, ht⟩ := (run?_eq_some_iff h).1 hr
        have hlen := congrArg List.length ht
        have hpos := List.length_pos_iff.2 (h.around_ne_nil run)
        rw [List.length_append] at hlen
        rw [← ht]
        exact found run tail hrun (ih _ (by omega) tail rfl)

end

def substitute (span : QuotedSpan) (edit : Text → Text) (text : Text) : Text :=
  (span.pieces text).flatMap fun
    | .plain c => [c]
    | .span run => edit run

section
variable {span : QuotedSpan} {edit : Text → Text}

theorem removeFrom_eq (text : Text) : span.removeFrom text = span.substitute (fun _ => []) text :=
  rfl

@[simp] theorem substitute_nil : span.substitute edit [] = [] := by simp [substitute]

theorem substitute_span (h : span.Delimited) {run : Text} (hrun : '"' ∉ run) (rest : Text) :
    span.substitute edit (span.around run ++ rest) = edit run ++ span.substitute edit rest := by
  simp [substitute, pieces_span h hrun]

theorem substitute_plain {c : Char} {rest : Text} (h : span.run? (c :: rest) = none) :
    span.substitute edit (c :: rest) = c :: span.substitute edit rest := by
  simp [substitute, pieces_plain h]

@[simp] theorem runs_nil : span.runs [] = [] := by simp [runs]

theorem runs_span (h : span.Delimited) {run : Text} (hrun : '"' ∉ run) (rest : Text) :
    span.runs (span.around run ++ rest) = run :: span.runs rest := by
  simp [runs, pieces_span h hrun]

theorem runs_plain {c : Char} {rest : Text} (h : span.run? (c :: rest) = none) :
    span.runs (c :: rest) = span.runs rest := by
  simp [runs, pieces_plain h]

theorem quote_notMem_of_mem_runs (h : span.Delimited) {text run : Text}
    (hrun : run ∈ span.runs text) : '"' ∉ run := by
  induction text using pieces_induction h with
  | nil => simp at hrun
  | found first rest hfirst ih =>
    rw [runs_span h hfirst, List.mem_cons] at hrun
    rcases hrun with rfl | hrun
    · exact hfirst
    · exact ih hrun
  | pass c rest hpass ih => exact ih (runs_plain hpass ▸ hrun)

theorem exists_of_mem_runs (h : span.Delimited) {text run : Text} (hrun : run ∈ span.runs text) :
    ∃ front back, text = front ++ span.around run ++ back := by
  induction text using pieces_induction h with
  | nil => simp at hrun
  | found first rest hfirst ih =>
    rw [runs_span h hfirst, List.mem_cons] at hrun
    rcases hrun with rfl | hrun
    · exact ⟨[], rest, by simp⟩
    · obtain ⟨front, back, rfl⟩ := ih hrun
      exact ⟨span.around first ++ front, back, by simp⟩
  | pass c rest hpass ih =>
    obtain ⟨front, back, rfl⟩ := ih (runs_plain hpass ▸ hrun)
    exact ⟨c :: front, back, by simp⟩

theorem runs_eq_nil_iff (h : span.Delimited) {text : Text} :
    span.runs text = [] ↔ span.Absent text := by
  constructor
  · intro hnone run hquote
    induction text using pieces_induction h with
    | nil => simp [h.around_ne_nil]
    | found first rest hfirst => simp [runs_span h hfirst] at hnone
    | pass c rest hpass ih =>
      rw [List.infix_cons_iff, not_or]
      refine ⟨fun hp => ?_, ih (runs_plain hpass ▸ hnone)⟩
      simp [(run?_eq_some_iff h).2 ⟨hquote, hp⟩] at hpass
  · intro habsent
    refine List.eq_nil_iff_forall_not_mem.2 fun run hrun => ?_
    obtain ⟨front, back, rfl⟩ := exists_of_mem_runs h hrun
    exact habsent run (quote_notMem_of_mem_runs h hrun) ⟨front, back, rfl⟩

theorem removeFrom_of_absent (h : span.Delimited) {text : Text} (habsent : span.Absent text) :
    span.removeFrom text = text := by
  have hnone := (runs_eq_nil_iff h).2 habsent
  clear habsent
  rw [removeFrom_eq]
  induction text using pieces_induction h with
  | nil => exact substitute_nil
  | found run rest hrun => simp [runs_span h hrun] at hnone
  | pass c rest hpass ih => rw [substitute_plain hpass, ih (runs_plain hpass ▸ hnone)]

theorem pieces_append_of_not_startsIn {front back : Text}
    (h : ¬ span.opening.StartsIn front back) :
    span.pieces (front ++ back) = front.map .plain ++ span.pieces back := by
  induction front with
  | nil => rfl
  | cons c front ih =>
    have hnone : span.run? (c :: (front ++ back)) = none := by
      rw [run?, if_neg]
      intro hp
      exact h ⟨c :: front, by simp, List.suffix_rfl, List.isPrefixOf_iff_prefix.1 hp⟩
    rw [List.cons_append, pieces_plain hnone, ih fun hs => h hs.of_cons, List.map_cons,
      List.cons_append]

theorem pieces_of_quote_notMem (h : span.Delimited) {text : Text} (hquote : '"' ∉ text) :
    span.pieces text = text.map .plain := by
  obtain ⟨start, -, -, hopening⟩ := h.opening
  have hstarts : ¬ span.opening.StartsIn text [] := by
    rintro ⟨tail, -, hs, hp⟩
    rw [List.append_nil] at hp
    exact hquote (hs.mem (hp.mem (by simp [hopening])))
  simpa using pieces_append_of_not_startsIn hstarts

/-- A text behind another one stays apart from its spans if no closing can reach into it. -/
theorem pieces_append_of_notMem (h : span.Delimited) (text : Text) {back : Text}
    (hback : ∀ c ∈ span.closing, c ∉ back) :
    span.pieces (text ++ back) = span.pieces text ++ back.map .plain := by
  obtain ⟨last, -, hclosing⟩ := h.closing
  have hquote : '"' ∉ back := hback _ (by simp [hclosing])
  induction text using pieces_induction h with
  | nil => simp [pieces_of_quote_notMem h hquote]
  | found run rest hrun ih =>
    rw [List.append_assoc, pieces_span h hrun, pieces_span h hrun, ih, List.cons_append]
  | pass c rest hpass ih =>
    have hnone : span.run? (c :: (rest ++ back)) = none := by
      cases hrun : span.run? (c :: (rest ++ back)) with
      | none => rfl
      | some run =>
        obtain ⟨hquote, hp⟩ := (run?_eq_some_iff h).1 hrun
        rw [← List.cons_append] at hp
        rcases List.prefix_or_prefix_of_prefix hp (List.prefix_append (c :: rest) back) with
          hp' | ⟨more, hmore⟩
        · rw [(run?_eq_some_iff h).2 ⟨hquote, hp'⟩] at hpass
          cases hpass
        · have hmore' : more <+: back := by
            rwa [← hmore, List.prefix_append_right_inj] at hp
          cases hlast : more.getLast? with
          | none =>
            rw [List.getLast?_eq_none_iff.1 hlast, List.append_nil] at hmore
            rw [(run?_eq_some_iff h).2 ⟨hquote, hmore ▸ List.prefix_rfl⟩] at hpass
            cases hpass
          | some d =>
            -- the closing would end in the text behind
            have hd : span.closing.getLast? = some d := by
              rw [← h.getLast?_around run, ← hmore, List.getLast?_append, hlast, Option.some_or]
            exact absurd (hmore'.mem (List.mem_of_getLast? hlast))
              (hback d (List.mem_of_getLast? hd))
    rw [List.cons_append, pieces_plain hnone, pieces_plain hpass, ih, List.cons_append]

theorem substitute_append_of_not_startsIn {front back : Text}
    (h : ¬ span.opening.StartsIn front back) :
    span.substitute edit (front ++ back) = front ++ span.substitute edit back := by
  rw [substitute, pieces_append_of_not_startsIn h, List.flatMap_append, List.flatMap_map]
  simp [substitute]

theorem runs_append_of_not_startsIn {front back : Text}
    (h : ¬ span.opening.StartsIn front back) : span.runs (front ++ back) = span.runs back := by
  rw [runs, pieces_append_of_not_startsIn h, List.filterMap_append, List.filterMap_map]
  simp [runs]

theorem notMem_substitute (h : span.Delimited) {c : Char}
    (hedit : ∀ run, c ∉ run → c ∉ edit run) {text : Text} (htext : c ∉ text) :
    c ∉ span.substitute edit text := by
  induction text using pieces_induction h with
  | nil => simp
  | found run rest hrun ih =>
    rw [List.mem_append, not_or] at htext
    have hc : c ∉ run := fun hm => htext.1 (by simp [around, hm])
    rw [substitute_span h hrun]
    simp [hedit run hc, ih htext.2]
  | pass d rest hpass ih =>
    rw [List.mem_cons, not_or] at htext
    rw [substitute_plain hpass]
    simp [htext.1, ih htext.2]

theorem substitute_congr (h : span.Delimited) {other : Text → Text} {text : Text}
    (heq : ∀ run ∈ span.runs text, edit run = other run) :
    span.substitute edit text = span.substitute other text := by
  induction text using pieces_induction h with
  | nil => simp
  | found run rest hrun ih =>
    rw [runs_span h hrun, List.forall_mem_cons] at heq
    rw [substitute_span h hrun, substitute_span h hrun, heq.1, ih heq.2]
  | pass c rest hpass ih =>
    rw [runs_plain hpass] at heq
    rw [substitute_plain hpass, substitute_plain hpass, ih heq]

theorem substitute_around (h : span.Delimited) (text : Text) :
    span.substitute span.around text = text := by
  induction text using pieces_induction h with
  | nil => simp
  | found run rest hrun ih => rw [substitute_span h hrun, ih]
  | pass c rest hpass ih => rw [substitute_plain hpass, ih]

/-- What a text begins with, if no edited span can have a part in it, was there before. -/
theorem prefix_of_substitute (h : span.Delimited) {part : Text}
    (hedit : ∀ run, '"' ∉ run → part.Misses (edit run)) {text : Text}
    (hp : part <+: span.substitute edit text) : part <+: text := by
  induction text using pieces_induction h generalizing part with
  | nil => simpa using hp
  | found run rest hrun =>
    by_cases hne : part = []
    · simp [hne]
    · rw [substitute_span h hrun] at hp
      exact absurd hp ((hedit run hrun).not_isPrefix_append hne)
  | pass c rest hpass ih =>
    rw [substitute_plain hpass] at hp
    cases part with
    | nil => simp
    | cons d part =>
      obtain ⟨rfl, htail⟩ := List.cons_prefix_cons.1 hp
      have hmisses : ∀ run, '"' ∉ run → Misses part (edit run) := fun run hrun =>
        (hedit run hrun).of_suffix (List.suffix_cons d part)
      exact List.cons_prefix_cons.2 ⟨rfl, ih hmisses htail⟩

end

def rename (span : QuotedSpan) (change : Text → Text) (text : Text) : Text :=
  span.substitute (fun run => span.around (change run)) text

section
variable {span : QuotedSpan} {change : Text → Text}

@[simp] theorem rename_nil : span.rename change [] = [] := substitute_nil

theorem rename_span (h : span.Delimited) {run : Text} (hrun : '"' ∉ run) (rest : Text) :
    span.rename change (span.around run ++ rest) =
      span.around (change run) ++ span.rename change rest := substitute_span h hrun rest

theorem rename_plain {c : Char} {rest : Text} (h : span.run? (c :: rest) = none) :
    span.rename change (c :: rest) = c :: span.rename change rest := substitute_plain h

theorem rename_eq_nil_iff (h : span.Delimited) {text : Text} :
    span.rename change text = [] ↔ text = [] := by
  induction text using pieces_induction h with
  | nil => simp
  | found run rest hrun => simp [rename_span h hrun, h.around_ne_nil]
  | pass c rest hpass => simp [rename_plain hpass]

theorem head?_rename (h : span.Delimited) (text : Text) :
    (span.rename change text).head? = text.head? := by
  induction text using pieces_induction h with
  | nil => simp
  | found run rest hrun ih =>
    rw [rename_span h hrun, List.head?_append, List.head?_append, h.head?_around,
      h.head?_around, ih]
  | pass c rest hpass => simp [rename_plain hpass]

theorem getLast?_rename (h : span.Delimited) (text : Text) :
    (span.rename change text).getLast? = text.getLast? := by
  induction text using pieces_induction h with
  | nil => simp
  | found run rest hrun ih =>
    rw [rename_span h hrun, List.getLast?_append, List.getLast?_append, h.getLast?_around,
      h.getLast?_around, ih]
  | pass c rest hpass ih => rw [rename_plain hpass, List.getLast?_cons, List.getLast?_cons, ih]

/-- The blank characters around a line belong to no span, if no span begins in front of it. -/
theorem exists_pieces_eq (h : span.Delimited) (hclosing : ∀ c ∈ span.closing, isBlank c = false)
    {raw : Text} (hfront : ∀ front back, Blank front →
      ¬ span.opening.StartsIn front (raw.trim ++ back)) :
    ∃ front back, Blank front ∧ Blank back ∧
      span.pieces raw = front.map .plain ++ (span.pieces raw.trim ++ back.map .plain) := by
  obtain ⟨front, back, hf, hb, he⟩ := raw.trim_surrounded
  refine ⟨front, back, hf, hb, ?_⟩
  have hback : ∀ c ∈ span.closing, c ∉ back := by
    intro c hc hm
    have hblank := hb c hm
    rw [hclosing c hc] at hblank
    cases hblank
  conv_lhs => rw [he]
  rw [List.append_assoc, pieces_append_of_not_startsIn (hfront front back hf),
    pieces_append_of_notMem h _ hback]

theorem trim_rename (h : span.Delimited) (hclosing : ∀ c ∈ span.closing, isBlank c = false)
    {raw : Text} (hfront : ∀ front back, Blank front →
      ¬ span.opening.StartsIn front (raw.trim ++ back)) :
    (span.rename change raw).trim = span.rename change raw.trim := by
  obtain ⟨front, back, hf, hb, he⟩ := exists_pieces_eq h hclosing hfront
  have htrimmed : Trimmed (span.rename change raw.trim) := by
    have ⟨hhead, hlast⟩ := raw.trimmed_trim
    exact ⟨by rwa [head?_rename h], by rwa [getLast?_rename h]⟩
  have hrename : span.rename change raw = front ++ span.rename change raw.trim ++ back := by
    rw [rename, substitute, he, List.flatMap_append, List.flatMap_append, List.flatMap_map,
      List.flatMap_map]
    simp [rename, substitute]
  rw [hrename, trim_surround hf hb htrimmed]

theorem runs_eq_runs_trim (h : span.Delimited) (hclosing : ∀ c ∈ span.closing, isBlank c = false)
    {raw : Text} (hfront : ∀ front back, Blank front →
      ¬ span.opening.StartsIn front (raw.trim ++ back)) :
    span.runs raw = span.runs raw.trim := by
  obtain ⟨front, back, -, -, he⟩ := exists_pieces_eq h hclosing hfront
  rw [runs, he, List.filterMap_append, List.filterMap_append, List.filterMap_map,
    List.filterMap_map]
  simp [runs]

/-- A text without quotes ends before the run of the first span. -/
theorem prefix_rename_iff (h : span.Delimited) {part : Text} (hquote : '"' ∉ part) (text : Text) :
    part <+: span.rename change text ↔ part <+: text := by
  obtain ⟨start, last, -, -, haround⟩ := h.around_eq
  induction text using pieces_induction h generalizing part with
  | nil => simp
  | found run rest hrun =>
    rw [rename_span h hrun, haround, haround, List.append_assoc, List.append_assoc,
      List.cons_append, List.cons_append, prefix_append_cons_of_notMem hquote,
      prefix_append_cons_of_notMem hquote]
  | pass c rest hpass ih =>
    rw [rename_plain hpass]
    cases part with
    | nil => simp
    | cons d part =>
      rw [List.cons_prefix_cons, List.cons_prefix_cons, ih fun hm => hquote (by simp [hm])]

/-- A text without quotes that is in no run is where it was, whatever the runs are. -/
theorem infix_rename_iff (h : span.Delimited) {part text : Text} (hquote : '"' ∉ part)
    (hruns : ∀ run ∈ span.runs text, ¬ part <:+: run ∧ ¬ part <:+: change run) :
    part <:+: span.rename change text ↔ part <:+: text := by
  obtain ⟨start, last, -, -, haround⟩ := h.around_eq
  induction text using pieces_induction h with
  | nil => simp
  | found run rest hrun ih =>
    rw [runs_span h hrun, List.forall_mem_cons] at hruns
    have hrest := ih hruns.2
    have hlast : part <:+: last ++ span.rename change rest ↔ part <:+: last ++ rest := by
      rw [List.infix_append_iff_ne_nil, List.infix_append_iff_ne_nil, hrest]
      refine or_congr_right (or_congr_right ?_)
      refine exists_congr fun head => exists_congr fun tail => ?_
      refine and_congr_right fun _ => and_congr_right fun _ => and_congr_right fun he => ?_
      have htail : '"' ∉ tail := fun hm => hquote (by simp [he, hm])
      rw [prefix_rename_iff h htail]
    rw [rename_span h hrun, haround, haround]
    simp only [List.append_assoc, List.cons_append]
    rw [infix_append_cons_of_notMem hquote, infix_append_cons_of_notMem hquote,
      infix_append_cons_of_notMem hquote, infix_append_cons_of_notMem hquote, hlast]
    simp [hruns.1]
  | pass c rest hpass ih =>
    rw [runs_plain hpass] at hruns
    have hstart : part <+: span.rename change (c :: rest) ↔ part <+: c :: rest :=
      prefix_rename_iff h hquote (c :: rest)
    rw [rename_plain hpass] at hstart ⊢
    rw [List.infix_cons_iff, List.infix_cons_iff, hstart, ih hruns]

/-- Every opening in the text is that of a span. -/
def Closed (span : QuotedSpan) (text : Text) : Prop :=
  ∀ front back, text = front ++ span.opening ++ back →
    ∃ run, '"' ∉ run ∧ run ++ span.closing <+: back

theorem Closed.of_append {front back : Text} (h : span.Closed (front ++ back)) :
    span.Closed back := by
  rintro before after rfl
  exact h (front ++ before) after (by simp)

theorem Closed.not_isPrefix (h : span.Delimited) {text : Text} (hclosed : span.Closed text)
    (hnone : span.run? text = none) : ¬ span.opening <+: text := by
  rintro ⟨back, rfl⟩
  obtain ⟨run, hrun, hp⟩ := hclosed [] back (by simp)
  have hsome : span.run? (span.opening ++ back) = some run := by
    refine (run?_eq_some_iff h).2 ⟨hrun, ?_⟩
    rwa [around, List.append_assoc, List.prefix_append_right_inj]
  rw [hsome] at hnone
  cases hnone

/-- An edit of the renamed spans is one edit, if the text has no opening outside its spans. -/
theorem substitute_rename (h : span.Delimited) (hopening : Misses span.opening.tail span.opening)
    {edit : Text → Text} {text : Text} (hclosed : span.Closed text)
    (hchange : ∀ run ∈ span.runs text, '"' ∉ change run) :
    span.substitute edit (span.rename change text) =
      span.substitute (fun run => edit (change run)) text := by
  induction text using pieces_induction h with
  | nil => simp
  | found run rest hrun ih =>
    rw [runs_span h hrun, List.forall_mem_cons] at hchange
    rw [rename_span h hrun, substitute_span h hchange.1, substitute_span h hrun,
      ih hclosed.of_append hchange.2]
  | pass c rest hpass ih =>
    have hrest : span.Closed rest := by
      have hcons : span.Closed ([c] ++ rest) := hclosed
      exact hcons.of_append
    have hnone : span.run? (c :: span.rename change rest) = none := by
      cases hrun : span.run? (c :: span.rename change rest) with
      | none => rfl
      | some run =>
        obtain ⟨-, hp⟩ := (run?_eq_some_iff h).1 hrun
        have hp : span.opening <+: c :: span.rename change rest := by
          refine List.IsPrefix.trans ?_ hp
          rw [around, List.append_assoc]
          exact List.prefix_append _ _
        refine absurd ?_ (hclosed.not_isPrefix h hpass)
        cases ho : span.opening with
        | nil => exact List.nil_prefix
        | cons d tail =>
          rw [ho] at hp
          obtain ⟨rfl, htail⟩ := List.cons_prefix_cons.1 hp
          have hmisses : Misses tail span.opening := by simpa [ho] using hopening
          have haround : ∀ run, '"' ∉ run → Misses tail (span.around (change run)) := by
            intro run _
            rw [around, List.append_assoc]
            exact Misses.append_right hmisses
          exact List.cons_prefix_cons.2 ⟨rfl, prefix_of_substitute h haround htail⟩
    rw [runs_plain hpass] at hchange
    rw [rename_plain hpass, substitute_plain hnone, substitute_plain hpass, ih hrest hchange]

end

end QuotedSpan

end SceneDowngrade
