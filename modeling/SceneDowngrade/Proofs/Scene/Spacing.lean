import Mathlib.Data.List.Chain
import SceneDowngrade.Proofs.Scene.LineBreaks

/-!
# Blank lines of the written scene

A line of the downgrade may hold the breaks of an expanded preset, so the written scene has more
lines than the list of them. Still no written line is blank but the one before each node below the
header, and there is one before each of these.
-/
namespace SceneDowngrade.Scene

open Text

/-- Within these lines, an empty one stands exactly before each one that opens a node. -/
structure Spaced (lines : List Text) : Prop where
  chain : lines.IsChain fun line next => line = [] ↔ nodeMarker <+: next
  last : ∀ line ∈ lines.getLast?, line ≠ []
  blank : ∀ line ∈ lines, Blank line → line = []

/-- The first of the lines, if there is one, opens no node. -/
def StartsPlain (lines : List Text) : Prop := ∀ line ∈ lines.head?, ¬ nodeMarker <+: line

theorem Spaced.nil : Spaced [] := ⟨.nil, by simp, by simp⟩

theorem Spaced.append {lines more : List Text} (h : Spaced lines) (hmore : Spaced more)
    (hstart : StartsPlain more) : Spaced (lines ++ more) := by
  refine ⟨h.chain.append hmore.chain ?_, ?_, ?_⟩
  · exact fun line hline next hnext => iff_of_false (h.last line hline) (hstart next hnext)
  · intro line hline
    rw [List.getLast?_append, Option.mem_def, Option.or_eq_some_iff] at hline
    rcases hline with hline | ⟨-, hline⟩
    · exact hmore.last line hline
    · exact h.last line hline
  · intro line hline
    rcases List.mem_append.1 hline with hline | hline
    · exact h.blank line hline
    · exact hmore.blank line hline

theorem StartsPlain.append {lines more : List Text} (h : StartsPlain lines)
    (hmore : StartsPlain more) : StartsPlain (lines ++ more) := by
  cases lines with
  | nil => exact hmore
  | cons line lines => exact h

/-- Lines that can be seen, of which at most the first opens a node. -/
theorem Spaced.of_visible {first : Text} {more : List Text} (hfirst : Visible first)
    (hmore : ∀ line ∈ more, Visible line ∧ ¬ nodeMarker <+: line) : Spaced (first :: more) := by
  have hall : ∀ line ∈ first :: more, Visible line :=
    List.forall_mem_cons.2 ⟨hfirst, fun line hline => (hmore line hline).1⟩
  refine ⟨?_, fun line hline => (hall line (List.mem_of_getLast? hline)).ne_nil,
    fun line hline hblank => absurd hblank (hall line hline).not_blank⟩
  clear hall
  induction more generalizing first with
  | nil => exact .singleton _
  | cons next more ih =>
    obtain ⟨hnext, hrest⟩ := List.forall_mem_cons.1 hmore
    exact .cons_cons (iff_of_false hfirst.ne_nil hnext.2) (ih hnext.1 hrest)

/-- The lines that a text falls into. Only the first of them can open a node. -/
theorem spaced_splitOn {text : Text} (h : Visible text) (hbreaks : BreaksAtAnchors text) :
    Spaced (text.splitOn '\n') ∧
      ∀ line ∈ (text.splitOn '\n').head?,
        Visible line ∧ (nodeMarker <+: line ↔ nodeMarker <+: text) := by
  obtain ⟨first, more, hsplit, hfirst, hmore⟩ := hbreaks.exists_splitOn
  have hvisible : Visible first := by
    obtain ⟨c, hc, hblank⟩ := h
    have hcn : '\n' ∉ [c] := by
      intro hm
      rw [← List.mem_singleton.1 hm] at hblank
      revert hblank
      decide
    obtain ⟨rest, hrest⟩ := List.head?_eq_some_iff.1 hc
    have hp : [c] <+: first := (hfirst [c] hcn).2 (hrest ▸ List.prefix_append [c] rest)
    exact Visible.of_isPrefix ⟨c, rfl, hblank⟩ hp
  have hanchors : ∀ line ∈ more, Visible line ∧ ¬ nodeMarker <+: line := by
    have hname : Visible anchorName ∧ ¬ nodeMarker <+: anchorName ∧ ¬ anchorName <+: nodeMarker := by
      decide
    intro line hline
    have hanchor := hmore line hline
    refine ⟨hname.1.of_isPrefix hanchor, fun hnode => ?_⟩
    rcases List.prefix_or_prefix_of_prefix hnode hanchor with hp | hp
    · exact hname.2.1 hp
    · exact hname.2.2 hp
  rw [hsplit]
  refine ⟨.of_visible hvisible hanchors, fun line hline => ?_⟩
  obtain rfl : first = line := by simpa using hline
  exact ⟨hvisible, hfirst nodeMarker (by decide)⟩

/-- What one source line adds to the written lines. -/
theorem spaced_entries {raw : Text} (h : '\n' ∉ raw) (table : ResourceTable) (above : Text)
    {below : List AnchorRule} (hbelow : below ⊆ anchorRules) :
    let draft := Draft.ofLine table above raw
    let lines := (draft.kind.entries (draft.settled below)).flatMap (·.splitOn '\n')
    Spaced lines ∧ StartsPlain lines := by
  intro draft lines
  have hkind : draft.kind = LineKind.ofTrimmed raw.trim := Draft.kind_ofLine _ _ _
  by_cases hblank : draft.kind = .blank
  · have hlines : lines = [] := by simp [lines, hblank, LineKind.entries]
    rw [hlines]
    exact ⟨.nil, by simp [StartsPlain]⟩
  have hsettled : LineKind.ofTrimmed (draft.settled below) = draft.kind := by
    rw [hkind]
    exact Draft.ofTrimmed_settled hbelow table above raw
  obtain ⟨hspaced, hstart⟩ := spaced_splitOn
    (Draft.visible_settled table above (hkind ▸ hblank) hbelow)
    (Draft.breaksAtAnchors_settled table above h hbelow)
  by_cases hnode : draft.kind = .node
  · have hlines : lines = [] :: (draft.settled below).splitOn '\n' := by
      simp [lines, hnode, LineKind.entries]
    rw [hlines]
    have hempty : ¬ nodeMarker <+: [] := by decide
    refine ⟨⟨hspaced.chain.cons fun line hline => ?_, ?_, ?_⟩, ?_⟩
    · refine iff_of_true rfl ((hstart line hline).2.2 ?_)
      rw [← ofTrimmed_eq_node_iff, hsettled, hnode]
    · intro line hline
      rw [List.getLast?_cons_of_ne_nil (List.splitOn_ne_nil _ _)] at hline
      exact hspaced.last line hline
    · exact List.forall_mem_cons.2 ⟨fun _ => rfl, hspaced.blank⟩
    · intro line hline
      obtain rfl : [] = line := by simpa using hline
      exact hempty
  · have hlines : lines = (draft.settled below).splitOn '\n' := by
      simp only [lines, LineKind.entries_of_not_blank hblank, if_neg hnode]
      simp
    rw [hlines]
    refine ⟨hspaced, fun line hline => ?_⟩
    rwa [(hstart line hline).2, ← ofTrimmed_eq_node_iff, hsettled]

theorem spaced_secondPass {lines : List Text} (h : ∀ raw ∈ lines, '\n' ∉ raw)
    (table : ResourceTable) (above : Text) :
    let written := (secondPass (firstPass table above lines)).flatMap (·.splitOn '\n')
    Spaced written ∧ StartsPlain written := by
  induction lines generalizing table above with
  | nil => exact ⟨.nil, by simp [StartsPlain, firstPass, secondPass]⟩
  | cons raw lines ih =>
    obtain ⟨hraw, hlines⟩ := List.forall_mem_cons.1 h
    obtain ⟨hrest, hrestStart⟩ := ih hlines (table.afterLine raw) raw
    obtain ⟨hentry, hentryStart⟩ := spaced_entries hraw table above
      (firstRules_subset (firstPass (table.afterLine raw) raw lines))
    rw [firstPass, secondPass_cons, List.flatMap_append]
    exact ⟨hentry.append hrest hrestStart, hentryStart.append hrestStart⟩

/-- The lines of a scene whose header is not blank, as they are written. -/
theorem spaced_twoPassLines {header : Text} {lines : List Text} (hheader : ¬ Blank header)
    (h : ∀ raw ∈ header :: lines, '\n' ∉ raw) :
    let written := (twoPassLines header lines).flatMap (·.splitOn '\n')
    Spaced written ∧ ∃ line ∈ written.head?, line ≠ [] := by
  intro written
  obtain ⟨hraw, hlines⟩ := List.forall_mem_cons.1 h
  have hrules := firstRules_subset (firstPass {} header lines)
  have hbreaks : BreaksAtAnchors (downgradeHeader header) :=
    .of_notMem (terminator_notMem_downgradeHeader (by decide) hraw)
  obtain ⟨hfirst, hvisible⟩ := spaced_splitOn ((visible_downgradeHeader hheader).expand hrules)
    (hbreaks.expand hrules)
  obtain ⟨hrest, hstart⟩ := spaced_secondPass hlines {} header
  have hwritten : written = _ ++ _ := List.flatMap_cons
  rw [hwritten]
  refine ⟨hfirst.append hrest hstart, ?_⟩
  obtain ⟨first, more, hsplit⟩ := List.exists_cons_of_ne_nil (List.splitOn_ne_nil '\n'
    ((downgradeHeader header).replaceEach
      ((firstRules (firstPass {} header lines)).map (·.expansionPair))))
  rw [hsplit] at hvisible ⊢
  exact ⟨first, rfl, (hvisible first rfl).1.ne_nil⟩

theorem return_notMem_twoPassLines {header : Text} {lines : List Text}
    (h : ∀ raw ∈ header :: lines, '\r' ∉ raw) :
    ∀ line ∈ twoPassLines header lines, '\r' ∉ line := by
  obtain ⟨hraw, hlines⟩ := List.forall_mem_cons.1 h
  refine List.forall_mem_cons.2 ⟨?_, ?_⟩
  · exact return_notMem_expand (terminator_notMem_downgradeHeader (by decide) hraw)
      (firstRules_subset _)
  · clear hraw h
    generalize ({} : ResourceTable) = table
    induction lines generalizing header table with
    | nil => simp [firstPass, secondPass]
    | cons raw lines ih =>
      obtain ⟨hraw, hrest⟩ := List.forall_mem_cons.1 hlines
      have hsettled := return_notMem_expand
        (Draft.terminator_notMem_renamed table header (c := '\r') (by decide) hraw)
        (firstRules_subset (firstPass (table.afterLine raw) raw lines))
      rw [firstPass, secondPass_cons]
      intro line hline
      rcases List.mem_append.1 hline with hline | hline
      · rcases LineKind.mem_entries hline with rfl | rfl
        · exact List.not_mem_nil
        · exact hsettled
      · exact ih hrest (table.afterLine raw) line hline

/-- The lines of a written scene: nothing is blank but the one line before each node below the
header. -/
structure WellSpaced (lines : List Text) : Prop where
  first : ∃ line ∈ lines.head?, line ≠ []
  last : ∃ line ∈ lines.getLast?, line ≠ []
  blank : ∀ line ∈ lines, Blank line → line = []
  empty_iff : ∀ k, lines[k]? = some [] ↔
    ∃ next, lines[k + 1]? = some next ∧ nodeMarker <+: next

theorem Spaced.wellSpaced {lines : List Text} (h : Spaced lines)
    (hfirst : ∃ line ∈ lines.head?, line ≠ []) : WellSpaced lines := by
  have hne : lines ≠ [] := by
    rintro rfl
    obtain ⟨line, hline, -⟩ := hfirst
    cases hline
  have hlast := List.getLast?_eq_some_getLast hne
  refine ⟨hfirst, ⟨_, hlast, h.last _ hlast⟩, h.blank, fun k => ?_⟩
  by_cases hk : k + 1 < lines.length
  · have hpair := List.isChain_iff_getElem.1 h.chain k hk
    rw [List.getElem?_eq_getElem hk, List.getElem?_eq_getElem (by omega)]
    simpa using hpair
  · -- the last line is not empty, and none follows it
    refine iff_of_false (fun he => ?_) ?_
    · have hlength : k + 1 = lines.length := by
        have hbound := (List.getElem?_eq_some_iff.1 he).1
        omega
      have hsame : lines.getLast? = some [] := by
        rw [List.getLast?_eq_getElem?, ← hlength, Nat.add_sub_cancel, he]
      exact h.last [] hsame rfl
    · rintro ⟨next, hnext, -⟩
      exact hk (List.getElem?_eq_some_iff.1 hnext).1

/-- Only the empty text is refused. Every other one is written in lines without carriage returns,
and if its header is not blank, with one blank line before each node and no other. -/
theorem downgrade_wellSpaced (text : Text) :
    (downgrade text = .error .emptyDocument ↔ text = []) ∧
      (text ≠ [] → ∃ out, downgrade text = .ok out ∧ '\r' ∉ out ∧ out.getLast? = some '\n' ∧
        ((∃ header ∈ text.lines.head?, ¬ Blank header) → WellSpaced out.lines)) := by
  cases hlines : text.lines with
  | nil =>
    have htext := lines_eq_nil_iff.1 hlines
    refine ⟨iff_of_true ?_ htext, fun hne => absurd htext hne⟩
    rw [htext]
    rfl
  | cons header lines =>
    have htext : text ≠ [] := fun he => by simp [lines_eq_nil_iff.2 he] at hlines
    obtain ⟨hscene, -, -⟩ := Pass.start_run_finish header lines
    have hout : downgrade text = .ok (ofLines (twoPassLines header lines)) := by
      rw [downgrade, downgradeText, hlines, ← hscene]
      rfl
    have hterminator : ∀ raw ∈ header :: lines, '\n' ∉ raw ∧ '\r' ∉ raw := fun raw hraw =>
      terminator_notMem_lines (hlines ▸ hraw)
    have hreturn := return_notMem_twoPassLines fun raw hraw => (hterminator raw hraw).2
    have hne : twoPassLines header lines ≠ [] := List.cons_ne_nil _ _
    refine ⟨iff_of_false (by simp [hout]) htext, fun _ => ⟨_, hout, return_notMem_ofLines hreturn,
      getLast?_ofLines hne, ?_⟩⟩
    rintro ⟨first, hfirst, hblank⟩
    obtain rfl : header = first := by simpa using hfirst
    obtain ⟨hspaced, hvisible⟩ :=
      spaced_twoPassLines hblank fun raw hraw => (hterminator raw hraw).1
    rw [lines_ofLines hne hreturn]
    exact hspaced.wellSpaced hvisible

def presetScene : Text :=
  "[gd_scene format=3]\r\n[node name=\"R\"]\nanchors_preset = 15\n  layout_mode = 1".toList

theorem downgrade_wellSpaced_preset :
    ∃ out, downgrade presetScene = .ok out ∧ WellSpaced out.lines ∧
      out.lines = ["[gd_scene format=2]".toList, [], "[node name=\"R\"]".toList,
        "anchor_right = 1.0".toList, "anchor_bottom = 1.0".toList, "layout_mode = 1".toList] := by
  have hheader : presetScene.lines.head? = some "[gd_scene format=3]".toList := by decide +kernel
  have hblank : ¬ Blank "[gd_scene format=3]".toList := by
    intro h
    exact absurd (h '[' (by simp)) (by decide)
  obtain ⟨-, hrest⟩ := downgrade_wellSpaced presetScene
  obtain ⟨out, hout, -, -, hspaced⟩ := hrest (by decide)
  refine ⟨out, hout, hspaced ⟨_, hheader, hblank⟩, ?_⟩
  have hwritten : (downgrade presetScene).toOption.map lines = some
      ["[gd_scene format=2]".toList, [], "[node name=\"R\"]".toList,
        "anchor_right = 1.0".toList, "anchor_bottom = 1.0".toList, "layout_mode = 1".toList] := by
    decide +kernel
  rw [hout] at hwritten
  exact Option.some_inj.1 hwritten

end SceneDowngrade.Scene
