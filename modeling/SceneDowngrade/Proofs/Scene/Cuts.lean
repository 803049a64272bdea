import SceneDowngrade.Proofs.Scene.DeclaredRows

/-!
# Scenes cut in two

A scene may be cut below any of its lines. The pass over the whole scene comes through the state that
it has after the upper part. Of what it wrote by then only the line held back can still change, by
the presets that the first line below the cut sets off.
-/
namespace SceneDowngrade.Scene

/-- No count is higher than in the other statistics. -/
structure Stats.Within (stats whole : Stats) : Prop where
  resources : stats.resources ≤ whole.resources
  nodes : stats.nodes ≤ whole.nodes
  anchorsExpanded : stats.anchorsExpanded ≤ whole.anchorsExpanded
  blankDropped : stats.blankDropped ≤ whole.blankDropped

/-- The rules that the first line below the cut sets off on the line above it. -/
def rulesAcross (header : Text) (lines more : List Text) : List AnchorRule :=
  firstRules (firstPass (ResourceTable.afterLines {} lines) (lines.getLastD header) more)

theorem Draft.rules_sublist (draft : Draft) : draft.rules.Sublist anchorRules := by
  rw [rules]
  split_ifs
  · exact List.filter_sublist
  · exact List.nil_sublist _

theorem rulesAcross_sublist (header : Text) (lines more : List Text) :
    (rulesAcross header lines more).Sublist anchorRules := by
  rw [rulesAcross]
  cases more with
  | nil => exact List.nil_sublist _
  | cons raw more => exact Draft.rules_sublist _

theorem rulesAcross_eq_nil {more : List Text}
    (h : ∀ raw ∈ more.head?, LineKind.ofTrimmed raw.trim ≠ .property) (header : Text)
    (lines : List Text) : rulesAcross header lines more = [] := by
  rw [rulesAcross]
  cases more with
  | nil => rfl
  | cons raw more =>
    rw [firstPass, firstRules_cons, Draft.rules, Draft.kind_ofLine, if_neg (h raw rfl)]

namespace Pass

theorem run_append (pass : Pass) (index : Nat) (above : Text) (lines more : List Text) :
    pass.run index above (lines ++ more) =
      (pass.run index above lines).run (index + lines.length) (lines.getLastD above) more := by
  induction lines generalizing pass index above with
  | nil => rfl
  | cons raw lines ih =>
    rw [List.cons_append, run, run, ih, List.getLastD_cons, List.length_cons, Nat.add_assoc,
      Nat.add_comm 1]

theorem Ready.step {pass : Pass} {index : Nat} {above text : Text}
    (h : pass.Ready index above text) (raw : Text) :
    ∃ next, (pass.step index above raw).Ready (index + 1) raw next := by
  by_cases hk : LineKind.ofTrimmed raw.trim = .blank
  · obtain ⟨source, hp, -⟩ := h
    rw [step_of_blank hk]
    exact ⟨text, source, hp, .inr (presetless_of_blank hk)⟩
  · obtain ⟨-, hpending, -⟩ := step_of_not_blank h hk
    exact ⟨_, index, hpending, .inl rfl⟩

/-- After any lines there is one line held back. -/
theorem Ready.run {pass : Pass} {index : Nat} {above text : Text}
    (h : pass.Ready index above text) (lines : List Text) :
    ∃ next, (pass.run index above lines).Ready (index + lines.length) (lines.getLastD above)
      next := by
  induction lines generalizing pass index above text with
  | nil => exact ⟨text, h⟩
  | cons raw lines ih =>
    obtain ⟨next, hnext⟩ := h.step raw
    rw [Pass.run, List.getLastD_cons, List.length_cons, Nat.add_comm lines.length,
      ← Nat.add_assoc]
    exact ih hnext

/-- A pass that holds back `text` finishes with it. If lines follow, only `text` changes, by the
presets that the first of them sets off. -/
theorem Ready.finish_run {pass : Pass} {index : Nat} {above text : Text}
    (h : pass.Ready index above text) (lines : List Text) :
    let rules := firstRules (firstPass pass.table above lines)
    let whole := (pass.run index above lines).finish
    pass.finish.lines = pass.written.toList ++ [text] ∧
      pass.written.toList ++ [expandEach rules text] <+: whole.lines ∧
      pass.finish.table.entries <+: whole.table.entries ∧
      pass.finish.stats.Within whole.stats := by
  intro rules whole
  obtain ⟨hlines, htable, hstats⟩ := run_finish h lines
  have hentries := ResourceTable.entries_prefix_afterLines pass.table lines
  refine ⟨(run_finish h []).1, ?_, ?_, ?_⟩
  · refine ⟨secondPass (firstPass pass.table above lines), ?_⟩
    rw [hlines, List.append_assoc]
    rfl
  · rw [htable]
    exact hentries
  · rw [hstats]
    exact ⟨hentries.length_le, Nat.le_add_right _ _, Nat.le_add_right _ _, Nat.le_add_right _ _⟩

end Pass

/-- Below a cut nothing changes in the output above it but the last line, in which the presets that
the first line below sets off give way to their anchors. The table only grows at its end, and no
count falls. -/
theorem downgradeLines_append (header : Text) (lines more : List Text) :
    ∃ (scene whole : Downgraded) (front : List Text) (last : Text),
      downgradeLines (header :: lines) = .ok scene ∧
      downgradeLines ((header :: lines) ++ more) = .ok whole ∧
      scene.lines = front ++ [last] ∧
      front ++ [expandEach (rulesAcross header lines more) last] <+: whole.lines ∧
      (rulesAcross header lines more).Sublist anchorRules ∧
      ((∀ raw ∈ more.head?, LineKind.ofTrimmed raw.trim ≠ .property) →
        rulesAcross header lines more = []) ∧
      scene.table.entries <+: whole.table.entries ∧
      scene.stats.Within whole.stats := by
  obtain ⟨last, hready⟩ := (Pass.start_ready header).run lines
  have htable : ((Pass.start header).run 1 header lines).table =
      ResourceTable.afterLines {} lines :=
    (Pass.run_finish (Pass.start_ready header) lines).2.1
  obtain ⟨hlines, hprefix, hentries, hstats⟩ := hready.finish_run more
  rw [htable] at hprefix
  refine ⟨_, _, _, last, rfl, ?_, hlines, hprefix, rulesAcross_sublist _ _ _,
    fun h => rulesAcross_eq_nil h _ _, hentries, hstats⟩
  rw [List.cons_append, downgradeLines, Pass.run_append]

end SceneDowngrade.Scene
