import SceneDowngrade.Proofs.Scene.Cuts
import SceneDowngrade.Proofs.Scene.Log

/-!
# Blank lines put between two lines

A blank line is dropped, but the lines on its two sides are no longer neighbours in the source. It
therefore parts a preset from the layout mode below it, and changes nothing else but the count of
blank lines.
-/
namespace SceneDowngrade.Scene

open Text

def Stats.addBlank (stats : Stats) : Stats := { stats with blankDropped := stats.blankDropped + 1 }

def Stats.addExpanded (stats : Stats) : Stats :=
  { stats with anchorsExpanded := stats.anchorsExpanded + 1 }

/-- The scene with one more blank line dropped. -/
def Downgraded.addBlank (scene : Downgraded) : Downgraded :=
  { scene with stats := scene.stats.addBlank }

/-- A blank line parts the line above it from `raw`, which would set off `rules` on it. `upper` is
the downgrade of the lines above the blank one, `scene` that of the whole scene, and `spaced` that of
the scene with the blank line in it; `below` are the rules that act on `raw` from below. -/
structure Parted (upper scene spaced : Downgraded) (raw : Text) (rules below : List AnchorRule) :
    Prop where
  kind : LineKind.ofTrimmed raw.trim = .property
  lines : let line := renameTokens (numberReferences upper.table raw.trim)
    ∃ front last rest, upper.lines = front ++ [last] ∧
      scene.lines = front ++ expandEach rules last ::
        expandEach below (line.replaceEach (rules.flatMap (·.renames))) :: rest ∧
      spaced.lines = front ++ last :: expandEach below line :: rest
  table : spaced.table = scene.table
  stats : spaced.stats.addExpanded = scene.stats.addBlank
  notices : ∃ before after, scene.notices = before ++ rules.map (·.notice) ++ after ∧
    spaced.notices = before ++ after

/-- The first pass keeps the line above for the rules and for nothing else. -/
theorem Draft.ofLine_below (table : ResourceTable) (above other raw : Text) :
    Draft.ofLine table other raw = { Draft.ofLine table above raw with above := other } := by
  rw [ofLine, ofLine]
  cases LineKind.ofTrimmed raw.trim <;> rfl

section
variable {raw : Text} (table : ResourceTable) (above : Text)

theorem Draft.text_of_property (h : LineKind.ofTrimmed raw.trim = .property) :
    (Draft.ofLine table above raw).text = renameTokens (numberReferences table raw.trim) := by
  simp [ofLine, h]

theorem Draft.rules_of_property (h : LineKind.ofTrimmed raw.trim = .property) :
    (Draft.ofLine table above raw).rules =
      rulesFor above (renameTokens (numberReferences table raw.trim)) := by
  rw [rules, kind_ofLine, if_pos h, above_ofLine, text_of_property table above h]

end

namespace Pass

/-- A blank line before `raw` takes away what `raw` does to the line above by its rules, and what
they do to `raw`. -/
theorem Ready.finish_gap {pass : Pass} {index : Nat} {above text blank : Text}
    (h : pass.Ready index above text) (hblank : blank.Blank) (raw : Text) (rest : List Text) :
    let draft := Draft.ofLine pass.table above raw
    let drafts := firstPass (pass.table.afterLine raw) raw rest
    let scene := (pass.run index above (raw :: rest)).finish
    let spaced := (pass.run index above (blank :: raw :: rest)).finish
    scene.lines = pass.written.toList ++ expandEach draft.rules text ::
        (draft.kind.entries (draft.settled (firstRules drafts)) ++ secondPass drafts) ∧
      spaced.lines = pass.written.toList ++ text ::
        (draft.kind.entries (expandEach (firstRules drafts) draft.text) ++ secondPass drafts) ∧
      spaced.table = scene.table ∧
      scene.stats.addBlank = { spaced.stats with
        anchorsExpanded := spaced.stats.anchorsExpanded + (if draft.rules ≠ [] then 1 else 0) } ∧
      ∃ before after, scene.notices = before ++ draft.rules.map (·.notice) ++ after ∧
        spaced.notices = before ++ after := by
  intro draft drafts scene spaced
  have hkind := ofTrimmed_eq_blank_iff.2 (trim_of_blank hblank)
  have hpresetless := presetless_of_blank hkind
  have ⟨source, hp, _⟩ := h
  have hready : pass.dropBlank.Ready (index + 1) blank text := ⟨source, hp, .inr hpresetless⟩
  have hspaced : spaced = (pass.dropBlank.run (index + 1) blank (raw :: rest)).finish := by
    simp only [spaced, Pass.run, step_of_blank hkind]
  -- below the blank line `raw` is the same but for its rules
  let parted := Draft.ofLine pass.table blank raw
  have hsame : parted = { draft with above := blank } := Draft.ofLine_below _ _ _ _
  have hnone : parted.rules = [] := Draft.rules_of_presetless hpresetless _ _
  have hsettled : parted.settled (firstRules drafts) =
      expandEach (firstRules drafts) draft.text := by
    rw [Draft.settled_of_no_rules hnone, hsame, expandEach]
  have hpartedKind : parted.kind = draft.kind := by rw [hsame]
  obtain ⟨hlines, htable, hstats⟩ := run_finish h (raw :: rest)
  obtain ⟨hlines', htable', hstats'⟩ := run_finish hready (raw :: rest)
  have hdrafts : firstPass pass.table above (raw :: rest) = draft :: drafts := rfl
  have hdrafts' : firstPass pass.dropBlank.table blank (raw :: rest) = parted :: drafts := rfl
  rw [hdrafts] at hlines hstats
  rw [hdrafts', ← hspaced] at hlines' hstats'
  rw [← hspaced] at htable'
  refine ⟨hlines, ?_, htable'.trans htable.symm, ?_, ?_⟩
  · rw [hlines', firstRules_cons, hnone, secondPass_cons, hsettled, hpartedKind]
    rfl
  · rw [hstats, hstats']
    simp [Stats.addBlank, hnone, hpartedKind, dropBlank, List.countP_cons]
    omega
  · refine ⟨pass.notices.toList ++ ownNotices pass.table raw,
      noticesFrom (pass.table.afterLine raw) raw rest, ?_, ?_⟩
    · change (pass.run index above (raw :: rest)).notices.toList = _
      rw [notices_run, noticesFrom, lineNotices]
      simp [draft]
    · rw [hspaced]
      change (pass.dropBlank.run (index + 1) blank (raw :: rest)).notices.toList = _
      rw [notices_run, noticesFrom, lineNotices]
      simp [dropBlank, hnone, parted]

/-- A blank line before a line that sets off no rule, or at the end, is only counted. -/
theorem Ready.finish_blank {pass : Pass} {index : Nat} {above text blank : Text}
    (h : pass.Ready index above text) (hblank : blank.Blank) {more : List Text}
    (hnone : firstRules (firstPass pass.table above more) = []) :
    (pass.run index above (blank :: more)).finish = (pass.run index above more).finish.addBlank := by
  cases more with
  | nil =>
    rw [Pass.run, Pass.run, Pass.run, step_of_blank (ofTrimmed_eq_blank_iff.2 (trim_of_blank hblank))]
    rfl
  | cons raw rest =>
    rw [firstPass, firstRules_cons] at hnone
    obtain ⟨hlines, hlines', htable, hstats, before, after, hnotices, hnotices'⟩ :=
      h.finish_gap hblank raw rest
    rw [hnone] at hlines hnotices
    rw [Draft.settled_of_no_rules hnone] at hlines
    rw [Downgraded.addBlank, Downgraded.mk.injEq, hstats, hlines, hlines', htable, hnotices,
      hnotices', hnone]
    simp [expandEach]

/-- A blank line before a line that sets off rules parts it from the line above. -/
theorem Ready.parted {pass : Pass} {index : Nat} {above text blank raw : Text}
    (h : pass.Ready index above text) (hblank : blank.Blank)
    (hkind : LineKind.ofTrimmed raw.trim = .property) (rest : List Text) :
    let rules := rulesFor above (renameTokens (numberReferences pass.table raw.trim))
    rules ≠ [] →
      Parted pass.finish (pass.run index above (raw :: rest)).finish
        (pass.run index above (blank :: raw :: rest)).finish raw rules
        (firstRules (firstPass (pass.table.afterLine raw) raw rest)) := by
  intro rules hne
  obtain ⟨hlines, hlines', htable, hstats, hnotices⟩ := h.finish_gap hblank raw rest
  have hrules : (Draft.ofLine pass.table above raw).rules = rules :=
    Draft.rules_of_property _ _ hkind
  rw [Draft.kind_ofLine, hkind, Draft.text_of_property _ _ hkind] at hlines'
  rw [Draft.kind_ofLine, hkind, Draft.settled, Draft.renamed, hrules,
    Draft.text_of_property _ _ hkind] at hlines
  rw [hrules, if_pos hne] at hstats
  rw [hrules] at hnotices
  exact ⟨hkind, ⟨_, text, _, (h.finish_run []).1, hlines, hlines'⟩, htable, hstats.symm, hnotices⟩

end Pass

theorem rulesAcross_concat (header : Text) (lines : List Text) (raw : Text) (more : List Text) :
    rulesAcross header (lines ++ [raw]) more =
      firstRules (firstPass ((ResourceTable.afterLines {} lines).afterLine raw) raw more) := by
  rw [rulesAcross, ResourceTable.afterLines_append, List.getLastD_concat]
  rfl

/-- A blank line put below any line changes the count of blank lines and nothing else, unless the
line that was there before is a property line that sets off rules on the line above. These rules are
then not applied, neither to the line above nor to the offsets of the property line. -/
theorem downgradeLines_insert_blank {blank : Text} (hblank : blank.Blank) (header : Text)
    (lines more : List Text) :
    ∃ upper scene spaced, downgradeLines (header :: lines) = .ok upper ∧
      downgradeLines ((header :: lines) ++ more) = .ok scene ∧
      downgradeLines ((header :: lines) ++ blank :: more) = .ok spaced ∧
      let rules (raw : Text) := rulesFor (lines.getLastD header)
        (renameTokens (numberReferences upper.table raw.trim))
      ((∀ raw ∈ more.head?, LineKind.ofTrimmed raw.trim = .property → rules raw = []) →
        spaced = scene.addBlank) ∧
      ∀ raw rest, more = raw :: rest → LineKind.ofTrimmed raw.trim = .property → rules raw ≠ [] →
        Parted upper scene spaced raw (rules raw) (rulesAcross header (lines ++ [raw]) rest) := by
  obtain ⟨last, hready⟩ := (Pass.start_ready header).run lines
  have htable : ((Pass.start header).run 1 header lines).table =
      ResourceTable.afterLines {} lines :=
    (Pass.run_finish (Pass.start_ready header) lines).2.1
  have hcut (below : List Text) : downgradeLines ((header :: lines) ++ below) =
      .ok (((Pass.start header).run 1 header lines).run (1 + lines.length) (lines.getLastD header)
        below).finish := by
    rw [List.cons_append, downgradeLines, Pass.run_append]
  refine ⟨_, _, _, rfl, hcut more, hcut (blank :: more), fun hnone => ?_, ?_⟩
  · refine hready.finish_blank hblank ?_
    cases more with
    | nil => rfl
    | cons raw rest =>
      rw [firstPass, firstRules_cons]
      by_cases hkind : LineKind.ofTrimmed raw.trim = .property
      · rw [Draft.rules_of_property _ _ hkind]
        exact hnone raw rfl hkind
      · exact Draft.rules_of_not_property hkind _ _
  · rintro raw rest rfl hkind hne
    rw [rulesAcross_concat, ← htable]
    exact hready.parted hblank hkind rest hne

def panelHeader : Text := "[gd_scene format=3]".toList

def presetLine : Text := "anchors_preset = 8".toList

def layoutLine : Text := "layout_mode = 1 offset_left = 10".toList

/-- A blank line parts a preset from its layout mode; below the layout mode it is only counted. -/
theorem downgradeLines_insert_blank_panel :
    (∃ upper scene spaced, downgradeLines [panelHeader, presetLine] = .ok upper ∧
      downgradeLines [panelHeader, presetLine, layoutLine] = .ok scene ∧
      downgradeLines [panelHeader, presetLine, [' '], layoutLine] = .ok spaced ∧
      rulesFor presetLine layoutLine ≠ [] ∧
      Parted upper scene spaced layoutLine (rulesFor presetLine layoutLine) []) ∧
    ∃ scene spaced, downgradeLines [panelHeader, presetLine, layoutLine, presetLine] = .ok scene ∧
      downgradeLines [panelHeader, presetLine, layoutLine, [' '], presetLine] = .ok spaced ∧
      spaced = scene.addBlank := by
  have hblank : Blank [' '] := by
    intro c hc
    obtain rfl : c = ' ' := by simpa using hc
    decide
  constructor
  · obtain ⟨upper, scene, spaced, hupper, hscene, hspaced, -, hparted⟩ :=
      downgradeLines_insert_blank hblank panelHeader [presetLine] [layoutLine]
    have htable : (downgradeLines [panelHeader, presetLine]).toOption.map (·.table) = some {} := by
      decide +kernel
    rw [hupper] at htable
    obtain htable : upper.table = {} := by simpa [Except.toOption] using htable
    have hrules : rulesFor presetLine (renameTokens (numberReferences upper.table layoutLine.trim)) =
        rulesFor presetLine layoutLine := by
      rw [htable]
      decide +kernel
    have hne : rulesFor presetLine layoutLine ≠ [] := by decide +kernel
    refine ⟨upper, scene, spaced, hupper, hscene, hspaced, hne, ?_⟩
    rw [← hrules] at hne ⊢
    exact hparted layoutLine [] rfl (by decide +kernel) hne
  · obtain ⟨upper, scene, spaced, hupper, hscene, hspaced, hcounted, -⟩ :=
      downgradeLines_insert_blank hblank panelHeader [presetLine, layoutLine] [presetLine]
    refine ⟨scene, spaced, hscene, hspaced, hcounted ?_⟩
    rintro raw hraw -
    obtain rfl : presetLine = raw := by simpa using hraw
    exact rulesFor_eq_nil (by decide +kernel) _

end SceneDowngrade.Scene
