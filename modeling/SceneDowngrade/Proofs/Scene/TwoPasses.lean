import SceneDowngrade.Proofs.Scene.AnchorRules
import SceneDowngrade.Proofs.Scene.Numbering
import SceneDowngrade.Proofs.Text.Trim
import SceneDowngrade.Scene.Document

/-!
# The downgrade in two passes

The program goes over a scene once and holds back the last line it wrote. Here the same result is
given in two passes that hold nothing back: the first rewrites every line on its own, the second
lets the anchor rules of a line act on it and on the line above. The two agree on every scene.
-/
namespace SceneDowngrade.Scene

/-- A source line as the first pass leaves it, with its kind and the source line above. -/
structure Draft where
  kind : LineKind
  above : Text
  text : Text
  deriving DecidableEq, Repr

namespace Draft

/-- The first pass on one line; the table holds the declarations above it. -/
def ofLine (table : ResourceTable) (above raw : Text) : Draft :=
  let line := raw.trim
  match LineKind.ofTrimmed line with
  | .extResource => ⟨.extResource, above, (table.declare line).line⟩
  | .node => ⟨.node, above, line⟩
  | .property => ⟨.property, above, renameTokens (numberReferences table line)⟩
  | .blank => ⟨.blank, above, []⟩

def rules (draft : Draft) : List AnchorRule :=
  if draft.kind = .property then rulesFor draft.above draft.text else []

def renamed (draft : Draft) : Text := draft.text.replaceEach (draft.rules.flatMap (·.renames))

def settled (draft : Draft) (below : List AnchorRule) : Text :=
  draft.renamed.replaceEach (below.map (·.expansionPair))

end Draft

/-- What a line of this kind with this text adds to the output. -/
def LineKind.entries : LineKind → Text → List Text
  | .node, text => [[], text]
  | .blank, _ => []
  | .extResource, text | .property, text => [text]

/-- The rules that the first of some lines sets off, on itself and on the line above. -/
def firstRules : List Draft → List AnchorRule
  | [] => []
  | draft :: _ => draft.rules

def firstPass : ResourceTable → (above : Text) → List Text → List Draft
  | _, _, [] => []
  | table, above, raw :: rest =>
    Draft.ofLine table above raw :: firstPass (table.afterLine raw) raw rest

def secondPass : List Draft → List Text
  | [] => []
  | draft :: rest => draft.kind.entries (draft.settled (firstRules rest)) ++ secondPass rest

@[simp] theorem firstRules_cons (draft : Draft) (below : List Draft) :
    firstRules (draft :: below) = draft.rules := rfl

@[simp] theorem secondPass_cons (draft : Draft) (below : List Draft) :
    secondPass (draft :: below) =
      draft.kind.entries (draft.settled (firstRules below)) ++ secondPass below := rfl

/-- The output lines of a scene, from the header line and the lines below it. -/
def twoPassLines (header : Text) (lines : List Text) : List Text :=
  let drafts := firstPass {} header lines
  (downgradeHeader header).replaceEach ((firstRules drafts).map (·.expansionPair)) ::
    secondPass drafts

def twoPassStats (header : Text) (lines : List Text) : Stats :=
  let drafts := firstPass {} header lines
  { resources := (ResourceTable.afterLines {} lines).size
    nodes := drafts.countP (·.kind = .node)
    anchorsExpanded := drafts.countP (·.rules ≠ [])
    blankDropped := drafts.countP (·.kind = .blank) }

theorem firstPass_append (table : ResourceTable) (above : Text) (lines more : List Text) :
    firstPass table above (lines ++ more) =
      firstPass table above lines ++
        firstPass (table.afterLines lines) (lines.getLastD above) more := by
  induction lines generalizing table above with
  | nil => rfl
  | cons raw lines ih =>
    rw [List.cons_append, firstPass, firstPass, ih, List.cons_append, List.getLastD_cons]
    rfl

def entryCount : List Text → Nat
  | [] => 0
  | raw :: lines => ((LineKind.ofTrimmed raw.trim).entries []).length + entryCount lines

theorem entryCount_append (lines more : List Text) :
    entryCount (lines ++ more) = entryCount lines + entryCount more := by
  induction lines with
  | nil => simp [entryCount]
  | cons raw lines ih => simp [entryCount, ih, Nat.add_assoc]

/-- The last output entry of the source line `raw`, which stands between the other two groups. -/
def settledLine (header : Text) (above : List Text) (raw : Text) (below : List Text) : Text :=
  let table := ResourceTable.afterLines {} above
  (Draft.ofLine table (above.getLastD header) raw).settled
    (firstRules (firstPass (table.afterLine raw) raw below))

def Presetless (above : Text) : Prop :=
  ∀ rule ∈ anchorRules, rule.token.occursIn above = false

instance (above : Text) : Decidable (Presetless above) :=
  inferInstanceAs (Decidable (∀ rule ∈ anchorRules, _))

theorem Draft.rules_of_presetless {above : Text} (h : Presetless above) (table : ResourceTable)
    (raw : Text) : (Draft.ofLine table above raw).rules = [] := by
  rw [Draft.ofLine]
  split <;> simp [Draft.rules, rulesFor_eq_nil h]

@[simp] theorem Draft.kind_ofLine (table : ResourceTable) (above raw : Text) :
    (Draft.ofLine table above raw).kind = LineKind.ofTrimmed raw.trim := by
  rw [Draft.ofLine]
  cases LineKind.ofTrimmed raw.trim <;> rfl

@[simp] theorem Draft.above_ofLine (table : ResourceTable) (above raw : Text) :
    (Draft.ofLine table above raw).above = above := by
  rw [Draft.ofLine]
  cases LineKind.ofTrimmed raw.trim <;> rfl

theorem Draft.rules_of_not_property {raw : Text} (h : LineKind.ofTrimmed raw.trim ≠ .property)
    (table : ResourceTable) (above : Text) : (Draft.ofLine table above raw).rules = [] := by
  rw [rules, kind_ofLine, if_neg h]

/-- A line that sets off no rule is changed by the rules set off below it, and by nothing else. -/
theorem Draft.settled_of_no_rules {draft : Draft} (h : draft.rules = [])
    (below : List AnchorRule) :
    draft.settled below = draft.text.replaceEach (below.map (·.expansionPair)) := by
  rw [settled, renamed, h, List.flatMap_nil, Text.replaceEach_nil]

theorem Draft.rules_subset (draft : Draft) : draft.rules ⊆ anchorRules := by
  rw [rules]
  split_ifs
  · exact List.filter_subset_self _
  · exact List.nil_subset _

theorem firstRules_subset (drafts : List Draft) : firstRules drafts ⊆ anchorRules := by
  cases drafts with
  | nil => exact List.nil_subset _
  | cons draft drafts => exact draft.rules_subset

theorem LineKind.length_entries (kind : LineKind) (text : Text) :
    (kind.entries text).length = (kind.entries []).length := by
  cases kind <;> rfl

theorem LineKind.mem_entries {kind : LineKind} {text line : Text} (h : line ∈ kind.entries text) :
    line = [] ∨ line = text := by
  cases kind <;> simp_all [entries]

theorem secondPass_append (table : ResourceTable) (above : Text) (lines : List Text)
    (drafts : List Draft) :
    ∃ front, front.length = entryCount lines ∧
      secondPass (firstPass table above lines ++ drafts) = front ++ secondPass drafts := by
  induction lines generalizing table above with
  | nil => exact ⟨[], rfl, rfl⟩
  | cons raw lines ih =>
    obtain ⟨front, hlength, hfront⟩ := ih (table.afterLine raw) raw
    rw [firstPass, List.cons_append, secondPass_cons, hfront, ← List.append_assoc]
    refine ⟨_, ?_, rfl⟩
    rw [List.length_append, LineKind.length_entries, Draft.kind_ofLine, hlength]
    simp [entryCount]

theorem getElem?_twoPassLines {raw : Text} (hkind : LineKind.ofTrimmed raw.trim ≠ .blank)
    (header : Text) (above below : List Text) :
    (twoPassLines header (above ++ raw :: below))[entryCount (above ++ [raw])]? =
      some (settledLine header above raw below) := by
  let table := ResourceTable.afterLines {} above
  let draft := Draft.ofLine table (above.getLastD header) raw
  let drafts := firstPass (table.afterLine raw) raw below
  obtain ⟨front, hlength, hfront⟩ := secondPass_append {} header above (draft :: drafts)
  have hpass : firstPass {} header (above ++ raw :: below) =
      firstPass {} header above ++ draft :: drafts := firstPass_append {} header above _
  have hcount : entryCount (above ++ [raw]) =
      front.length + ((LineKind.ofTrimmed raw.trim).entries []).length := by
    simp [entryCount_append, entryCount, hlength]
  have hdraft : draft.kind = LineKind.ofTrimmed raw.trim := Draft.kind_ofLine _ _ _
  have hsettled : draft.settled (firstRules drafts) = settledLine header above raw below := rfl
  rw [twoPassLines, hpass, hfront, hcount, secondPass_cons, hdraft, hsettled]
  cases hk : LineKind.ofTrimmed raw.trim with
  | extResource => simp [LineKind.entries]
  | node =>
    have hlast : front.length + 1 - front.length = 1 := by omega
    simp [LineKind.entries, hlast]
  | property => simp [LineKind.entries]
  | blank => exact absurd hk hkind

theorem LineKind.entries_of_not_blank {kind : LineKind} (h : kind ≠ .blank) (text : Text) :
    kind.entries text = (if kind = .node then [[]] else []) ++ [text] := by
  cases kind <;> simp_all [entries]

theorem ofTrimmed_eq_blank_iff {line : Text} : LineKind.ofTrimmed line = .blank ↔ line = [] := by
  constructor
  · intro h
    rw [LineKind.ofTrimmed] at h
    split_ifs at h with _ _ hempty
    exact List.isEmpty_iff.1 hempty
  · rintro rfl
    rfl

/-- Every preset token has a letter in it. -/
theorem presetless_of_blank {raw : Text} (h : LineKind.ofTrimmed raw.trim = .blank) :
    Presetless raw := by
  have hblank := Text.blank_of_trim_eq_nil (ofTrimmed_eq_blank_iff.1 h)
  have hletter : ∀ rule ∈ anchorRules, 'a' ∈ rule.token := by decide
  intro rule hr
  refine Text.occursIn_eq_false_iff.2 (Text.not_isInfix_of_notMem (hletter rule hr) fun ha => ?_)
  exact absurd (hblank _ ha) (by decide)

/-- A blank line sets off no rule, and neither does the line below it. -/
theorem rules_of_blank {raw : Text} (h : LineKind.ofTrimmed raw.trim = .blank)
    (table : ResourceTable) (above : Text) : (Draft.ofLine table above raw).rules = [] := by
  have hkind : LineKind.ofTrimmed raw.trim ≠ .property := by
    rw [h]
    decide
  exact Draft.rules_of_not_property hkind table above

theorem firstRules_below_blank {raw : Text} (h : LineKind.ofTrimmed raw.trim = .blank)
    (table : ResourceTable) (lines : List Text) : firstRules (firstPass table raw lines) = [] := by
  cases lines with
  | nil => rfl
  | cons next lines => exact Draft.rules_of_presetless (presetless_of_blank h) table next

theorem ResourceTable.afterLine_of_blank {raw : Text} (h : LineKind.ofTrimmed raw.trim = .blank)
    (table : ResourceTable) : table.afterLine raw = table := by
  rw [afterLine, h]

namespace Pass

/-- The pass holds back `text`, and whatever the rules of the line below `above` do to the line
above reaches it. -/
def Ready (pass : Pass) (index : Nat) (above text : Text) : Prop :=
  ∃ source, pass.pending = some ⟨source, text⟩ ∧ (source + 1 = index ∨ Presetless above)

theorem pendingFrom_eq {pass : Pass} {source : Nat} {text : Text}
    (h : pass.pending = some ⟨source, text⟩) (index : Nat) :
    pass.pendingFrom index = if source = index then some text else none := by
  rw [pendingFrom, h]
  by_cases hi : source = index <;> simp [Option.filter, hi]

/-- An edit that leaves lines without presets alone finds the pending line, if it finds one. -/
theorem Ready.amend {pass : Pass} {index : Nat} {above text : Text}
    (h : pass.Ready index above text) (edit : Text → Text)
    (hedit : Presetless above → edit text = text) :
    ∃ source, pass.amend ((pass.pendingFrom (index - 1)).map edit) =
      { pass with pending := some ⟨source, edit text⟩ } := by
  obtain ⟨source, hp, hs⟩ := h
  refine ⟨source, ?_⟩
  rw [pendingFrom_eq hp]
  by_cases hsource : source = index - 1
  · simp [Pass.amend, hp, hsource]
  · rw [if_neg hsource, hedit (hs.resolve_left (by omega)), ← hp]
    rfl

theorem emit_eq {pass : Pass} {source : Nat} {text : Text}
    (h : pass.pending = some ⟨source, text⟩) (index : Nat) (new : Text) :
    pass.emit index new =
      { pass with written := pass.written.push text, pending := some ⟨index, new⟩ } := by
  simp [emit, h]

theorem setProperty_of_ready {pass : Pass} {index : Nat} {above text : Text}
    (h : pass.Ready index above text) (line : Text) :
    let renamed := renameTokens (numberReferences pass.table line)
    let rules := rulesFor above renamed
    let next := pass.setProperty index above line
    next.written = pass.written.push (text.replaceEach (rules.map (·.expansionPair))) ∧
      next.pending = some ⟨index, renamed.replaceEach (rules.flatMap (·.renames))⟩ ∧
      next.table = pass.table ∧
      next.stats = { pass.stats with
        anchorsExpanded := pass.stats.anchorsExpanded + (if rules ≠ [] then 1 else 0) } := by
  intro renamed rules next
  let expand : Text → Text := (·.replaceEach (rules.map (·.expansionPair)))
  have hexpand : Presetless above → expand text = text := fun hpre => by
    simp [expand, rules, rulesFor_eq_nil hpre]
  have hpreset : (rules.getLast?.map (·.preset)).isSome = decide (rules ≠ []) := by
    cases rules <;> simp
  let stats := { pass.stats with
    anchorsExpanded := pass.stats.anchorsExpanded + (if rules ≠ [] then 1 else 0) }
  let notices := danglingNotices (numberReferences pass.table line) ++
    rules.map fun rule => Notice.expanded rule.preset rule.layoutMode
  have hready : (({ pass with stats } : Pass).note notices).Ready index above text := h
  obtain ⟨source, hamend⟩ := hready.amend expand hexpand
  have hnext : next = (({ pass with stats } : Pass).note notices |>.amend
      ((pass.pendingFrom (index - 1)).map expand)).emit index
        (renamed.replaceEach (rules.flatMap (·.renames))) := by
    simp only [next, setProperty, expandAnchors_eq, Anchoring.preset?, Anchoring.notices]
    rw [show rulesFor above (renameTokens (numberReferences pass.table line)) = rules from rfl,
      hpreset]
    simp [stats, notices, expand, renamed]
  rw [hnext, show pass.pendingFrom (index - 1) =
    (({ pass with stats } : Pass).note notices).pendingFrom (index - 1) from rfl, hamend,
    emit_eq rfl]
  exact ⟨rfl, rfl, rfl, rfl⟩

/-- One step on a line that is not blank: the line held back is written as the rules of the new one
leave it, and the new one is held back in its place. -/
theorem step_of_not_blank {pass : Pass} {index : Nat} {above text raw : Text}
    (h : pass.Ready index above text) (hk : LineKind.ofTrimmed raw.trim ≠ .blank) :
    let draft := Draft.ofLine pass.table above raw
    let next := pass.step index above raw
    next.written.toList = pass.written.toList ++
        text.replaceEach (draft.rules.map (·.expansionPair)) ::
          (if draft.kind = .node then [[]] else []) ∧
      next.pending = some ⟨index, draft.renamed⟩ ∧
      next.table = pass.table.afterLine raw ∧
      next.stats = { pass.stats with
        nodes := pass.stats.nodes + (if draft.kind = .node then 1 else 0)
        anchorsExpanded := pass.stats.anchorsExpanded + (if draft.rules ≠ [] then 1 else 0) } := by
  have ⟨source, hp, _⟩ := h
  rw [step, Draft.ofLine, ResourceTable.afterLine]
  cases hkind : LineKind.ofTrimmed raw.trim with
  | extResource => simp [declare, emit, note, hp, Draft.rules, Draft.renamed]
  | node => simp [startNode, emit, hp, Draft.rules, Draft.renamed]
  | blank => exact absurd hkind hk
  | property =>
    obtain ⟨hwritten, hpending, htable, hstats⟩ := setProperty_of_ready h raw.trim
    simp [hwritten, hpending, htable, hstats, Draft.rules, Draft.renamed]

theorem step_of_blank {pass : Pass} {index : Nat} {above raw : Text}
    (hk : LineKind.ofTrimmed raw.trim = .blank) :
    pass.step index above raw = pass.dropBlank := by
  simp [step, hk]

/-- A pass that holds back `text` goes on as the two passes do: on the lines below, and on `text` by
the rules of the first of them. -/
theorem run_finish {pass : Pass} {index : Nat} {above text : Text}
    (h : pass.Ready index above text) (lines : List Text) :
    let drafts := firstPass pass.table above lines
    let scene := (pass.run index above lines).finish
    scene.lines = pass.written.toList ++
        text.replaceEach ((firstRules drafts).map (·.expansionPair)) :: secondPass drafts ∧
      scene.table = pass.table.afterLines lines ∧
      scene.stats =
        { resources := (pass.table.afterLines lines).size
          nodes := pass.stats.nodes + drafts.countP (·.kind = .node)
          anchorsExpanded := pass.stats.anchorsExpanded + drafts.countP (·.rules ≠ [])
          blankDropped := pass.stats.blankDropped + drafts.countP (·.kind = .blank) } := by
  induction lines generalizing pass index above text with
  | nil =>
    obtain ⟨source, hp, -⟩ := h
    simp [run, finish, firstPass, firstRules, secondPass, hp, ResourceTable.afterLines]
  | cons raw rest ih =>
    intro drafts scene
    let draft := Draft.ofLine pass.table above raw
    let below := firstPass (pass.table.afterLine raw) raw rest
    have hdrafts : drafts = draft :: below := rfl
    have htables : pass.table.afterLines (raw :: rest) =
      (pass.table.afterLine raw).afterLines rest := rfl
    have hkind : draft.kind = LineKind.ofTrimmed raw.trim := Draft.kind_ofLine _ _ _
    by_cases hk : LineKind.ofTrimmed raw.trim = .blank
    · -- the pending line stays, and the line below the blank one sets off no rule
      have hnone : draft.rules = [] := rules_of_blank hk _ _
      have hbelow : firstRules below = [] := firstRules_below_blank hk _ _
      have htable := ResourceTable.afterLine_of_blank hk pass.table
      obtain ⟨source, hp, -⟩ := h
      have hready : pass.dropBlank.Ready (index + 1) raw text :=
        ⟨source, hp, .inr (presetless_of_blank hk)⟩
      obtain ⟨hlines, htable', hstats⟩ := ih hready
      have hscene : scene = (pass.dropBlank.run (index + 1) raw rest).finish := by
        simp only [scene, run, step_of_blank hk]
      have hdropped : firstPass pass.dropBlank.table raw rest = below := by
        simp only [below, htable, dropBlank]
      rw [hscene, htables, hdrafts, htable]
      rw [hdropped] at hlines hstats
      refine ⟨hlines.trans ?_, htable', hstats.trans ?_⟩
      · simp [hnone, hbelow, hkind, hk, LineKind.entries, dropBlank]
      · simp [hkind, hk, hnone, dropBlank, Nat.add_assoc, Nat.add_comm]
    · obtain ⟨hwritten, hpending, htable, hstats⟩ := step_of_not_blank h hk
      have hready : (pass.step index above raw).Ready (index + 1) raw draft.renamed :=
        ⟨index, hpending, .inl rfl⟩
      obtain ⟨hlines, htable', hstats'⟩ := ih hready
      rw [htable] at hlines htable' hstats'
      refine ⟨hlines.trans ?_, htable', hstats'.trans ?_⟩
      · rw [hwritten, hdrafts, firstRules_cons, secondPass_cons,
          LineKind.entries_of_not_blank (hkind ▸ hk)]
        simp [Draft.settled, draft, below]
      · rw [hstats, htables, hdrafts]
        simp [List.countP_cons, draft, below, hk, Nat.add_assoc, Nat.add_comm]

theorem start_ready (header : Text) :
    (start header).Ready 1 header (downgradeHeader header) := ⟨0, rfl, .inl rfl⟩

theorem start_run_finish (header : Text) (lines : List Text) :
    let scene := ((start header).run 1 header lines).finish
    scene.lines = twoPassLines header lines ∧
      scene.table = ResourceTable.afterLines {} lines ∧
      scene.stats = twoPassStats header lines := by
  intro scene
  obtain ⟨hlines, htable, hstats⟩ := run_finish (start_ready header) lines
  refine ⟨hlines.trans ?_, htable, hstats.trans ?_⟩
  · simp [start, emit, twoPassLines]
  · simp [start, emit, twoPassStats]

end Pass

/-- Holding back one line gives the lines, the table and the statistics of the two passes. -/
theorem downgradeLines_eq_two_passes (header : Text) (lines : List Text) :
    ∃ notices, downgradeLines (header :: lines) = .ok
      { lines := twoPassLines header lines
        table := ResourceTable.afterLines {} lines
        stats := twoPassStats header lines
        notices } := by
  obtain ⟨hlines, htable, hstats⟩ := Pass.start_run_finish header lines
  refine ⟨(((Pass.start header).run 1 header lines).finish).notices, ?_⟩
  rw [downgradeLines, ← hlines, ← htable, ← hstats]

end SceneDowngrade.Scene
