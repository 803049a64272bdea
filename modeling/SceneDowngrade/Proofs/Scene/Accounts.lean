import SceneDowngrade.Proofs.Scene.Log

/-!
# Every line accounted for

Each source line is counted by its kind in the output and in the statistics, and the log is a sum
over the source lines too. A declaration leaves one notice. The ids that were numbered are the
entries of the table, and the expansions that were counted are the lines that noted one.
-/
namespace SceneDowngrade.Scene

/-- How many of some source lines below the header are of this kind. -/
def kindCount (kind : LineKind) (lines : List Text) : Nat :=
  lines.countP fun raw => LineKind.ofTrimmed raw.trim = kind

namespace Notice

/-- The notices about a declaration: it has no id, or its id is new, or it is a repeated one. -/
def isDeclaration : Notice → Bool
  | .withoutId _ | .numbered _ _ | .duplicate _ _ => true
  | .undeclared _ | .expanded _ _ => false

def isNumbered : Notice → Bool
  | .numbered _ _ => true
  | _ => false

def isExpanded : Notice → Bool
  | .expanded _ _ => true
  | _ => false

/-- The notice of an id that is entered in the table. -/
def ofEntry (entry : Text × Nat) : Notice := .numbered entry.1 entry.2

end Notice

/-- A source line that the pass has been over, the source line above it, and what the pass noted. -/
structure Visit where
  above : Text
  raw : Text
  notices : List Notice
  deriving DecidableEq, Repr

namespace Visit

def kind (visit : Visit) : LineKind := LineKind.ofTrimmed visit.raw.trim

def expanded (visit : Visit) : Bool := visit.notices.any Notice.isExpanded

end Visit

/-- The source lines from `index` on, each with the notices that its step adds to the pass. -/
def Pass.visits (pass : Pass) (index : Nat) (above : Text) : List Text → List Visit
  | [] => []
  | raw :: rest =>
    let next := pass.step index above raw
    ⟨above, raw, next.notices.toList.drop pass.notices.size⟩ :: next.visits (index + 1) raw rest

/-- A declaration notes that it has no id, that its id is new, or that it is a repeated one; only a
new id changes the table, at its end. -/
theorem ResourceTable.declare_cases (table : ResourceTable) (line : Text) :
    let declared := table.declare line
    (∃ plain, declared.notice = .withoutId plain ∧ declared.table = table) ∨
      (∃ entry, declared.notice = .ofEntry entry ∧
        declared.table.entries = table.entries ++ [entry]) ∨
      ∃ id number, declared.notice = .duplicate id number ∧ declared.table = table := by
  dsimp only
  rw [declare]
  cases declaredId? (plainDeclaration line) with
  | none => exact .inl ⟨_, rfl, rfl⟩
  | some id =>
    cases hget : table.get? id with
    | some number => exact .inr (.inr ⟨id, number, by simp [assign, hget], by simp [assign, hget]⟩)
    | none =>
      exact .inr (.inl ⟨(id, table.size + 1), by simp [assign, hget, Notice.ofEntry],
        by simp [assign, hget]⟩)

section Line
variable (table : ResourceTable) (above raw : Text)

/-- Of its own a line notes its declaration, or else the references that are left on it. -/
theorem ownNotices_cases :
    (LineKind.ofTrimmed raw.trim = .extResource ∧
      ownNotices table raw = [(table.declare raw.trim).notice]) ∨
      LineKind.ofTrimmed raw.trim ≠ .extResource ∧
        ∃ ids : List Text, ownNotices table raw = ids.map .undeclared := by
  rw [ownNotices]
  cases LineKind.ofTrimmed raw.trim with
  | extResource => exact .inl ⟨rfl, rfl⟩
  | property => exact .inr ⟨by decide, _, rfl⟩
  | node | blank => exact .inr ⟨by decide, [], rfl⟩

theorem countP_isDeclaration_lineNotices :
    (lineNotices table above raw).countP Notice.isDeclaration =
      if LineKind.ofTrimmed raw.trim = .extResource then 1 else 0 := by
  have hrules : ∀ rules : List AnchorRule,
      (rules.map (·.notice)).countP Notice.isDeclaration = 0 := by
    simp [List.countP_eq_zero, AnchorRule.notice, Notice.isDeclaration]
  rw [lineNotices, List.countP_append, hrules, Nat.add_zero]
  obtain ⟨hkind, hown⟩ | ⟨hkind, ids, hown⟩ := ownNotices_cases table raw
  · rw [hown, if_pos hkind]
    obtain ⟨_, h, -⟩ | ⟨_, h, -⟩ | ⟨_, _, h, -⟩ := table.declare_cases raw.trim <;>
      simp [h, Notice.isDeclaration, Notice.ofEntry]
  · rw [hown, if_neg hkind]
    simp [List.countP_eq_zero, Notice.isDeclaration]

/-- A line notes an expansion exactly if it sets off a rule. -/
theorem any_isExpanded_lineNotices :
    (lineNotices table above raw).any Notice.isExpanded =
      decide ((Draft.ofLine table above raw).rules ≠ []) := by
  have hown : (ownNotices table raw).any Notice.isExpanded = false := by
    obtain ⟨-, hown⟩ | ⟨-, ids, hown⟩ := ownNotices_cases table raw
    · rw [hown]
      obtain ⟨_, h, -⟩ | ⟨_, h, -⟩ | ⟨_, _, h, -⟩ := table.declare_cases raw.trim <;>
        simp [h, Notice.isExpanded, Notice.ofEntry]
    · simp [hown, Notice.isExpanded]
  rw [lineNotices, List.any_append, hown, Bool.false_or]
  cases (Draft.ofLine table above raw).rules <;> simp [AnchorRule.notice, Notice.isExpanded]

/-- The ids that a line notes as numbered are the entries that it adds to the table. -/
theorem ofEntry_entries_afterLine :
    (table.afterLine raw).entries.map Notice.ofEntry =
      table.entries.map Notice.ofEntry ++
        (lineNotices table above raw).filter Notice.isNumbered := by
  have hrules : ∀ rules : List AnchorRule,
      (rules.map (·.notice)).filter Notice.isNumbered = [] := by
    simp [List.filter_eq_nil_iff, AnchorRule.notice, Notice.isNumbered]
  rw [lineNotices, List.filter_append, hrules, List.append_nil]
  obtain ⟨hkind, hown⟩ | ⟨hkind, ids, hown⟩ := ownNotices_cases table raw
  · have hafter : table.afterLine raw = (table.declare raw.trim).table := by
      rw [ResourceTable.afterLine, hkind]
    rw [hown, hafter]
    obtain ⟨_, h, ht⟩ | ⟨_, h, ht⟩ | ⟨_, _, h, ht⟩ := table.declare_cases raw.trim <;>
      simp [h, ht, List.filter_singleton, Notice.isNumbered, Notice.ofEntry]
  · have hafter : table.afterLine raw = table := by
      rw [ResourceTable.afterLine]
      split
      · contradiction
      · rfl
    rw [hown, hafter]
    simp [Notice.isNumbered]

theorem not_blank_above_of_rules (h : (Draft.ofLine table above raw).rules ≠ []) :
    LineKind.ofTrimmed raw.trim = .property ∧ above.trim ≠ [] := by
  constructor
  · by_contra hkind
    exact h (Draft.rules_of_not_property hkind table above)
  · intro hblank
    exact h (Draft.rules_of_presetless (presetless_of_blank (ofTrimmed_eq_blank_iff.2 hblank)) _ _)

end Line

/-- The ids noted as numbered on some lines are the entries that the lines add to the table. -/
theorem ofEntry_entries_afterLines (table : ResourceTable) (above : Text) (lines : List Text) :
    (table.afterLines lines).entries.map Notice.ofEntry =
      table.entries.map Notice.ofEntry ++
        (noticesFrom table above lines).filter Notice.isNumbered := by
  induction lines generalizing table above with
  | nil => simp [ResourceTable.afterLines, noticesFrom]
  | cons raw lines ih =>
    rw [noticesFrom, List.filter_append, ← List.append_assoc, ← ofEntry_entries_afterLine]
    exact ih _ _

section Counts
variable (table : ResourceTable) (above : Text) (lines : List Text)

theorem countP_kind_firstPass (kind : LineKind) :
    (firstPass table above lines).countP (·.kind = kind) = kindCount kind lines := by
  induction lines generalizing table above with
  | nil => rfl
  | cons raw lines ih =>
    rw [firstPass, List.countP_cons, ih, Draft.kind_ofLine, kindCount, kindCount, List.countP_cons]

theorem entryCount_eq :
    entryCount lines =
      kindCount .extResource lines + 2 * kindCount .node lines + kindCount .property lines := by
  induction lines with
  | nil => rfl
  | cons raw lines ih =>
    simp only [entryCount, kindCount, List.countP_cons] at ih ⊢
    cases LineKind.ofTrimmed raw.trim <;> simp [LineKind.entries, ih] <;> omega

theorem length_twoPassLines (header : Text) :
    (twoPassLines header lines).length = 1 + entryCount lines := by
  obtain ⟨front, hlength, hfront⟩ := secondPass_append {} header lines []
  rw [List.append_nil] at hfront
  simp [twoPassLines, hfront, secondPass, hlength, Nat.add_comm]

end Counts

namespace Pass

/-- What the pass notes on a line depends on the table and on the line above alone. -/
theorem visits_cons (pass : Pass) (index : Nat) (above raw : Text) (lines : List Text) :
    pass.visits index above (raw :: lines) =
      ⟨above, raw, lineNotices pass.table above raw⟩ ::
        (pass.step index above raw).visits (index + 1) raw lines := by
  rw [visits, notices_step]
  simp

variable (pass : Pass) (index : Nat) (above : Text) (lines : List Text)

theorem flatMap_notices_visits :
    (pass.visits index above lines).flatMap (·.notices) = noticesFrom pass.table above lines := by
  induction lines generalizing pass index above with
  | nil => rfl
  | cons raw lines ih => rw [visits_cons, List.flatMap_cons, ih, table_step, noticesFrom]

theorem raw_visits : (pass.visits index above lines).map (·.raw) = lines := by
  induction lines generalizing pass index above with
  | nil => rfl
  | cons raw lines ih => rw [visits_cons, List.map_cons, ih]

theorem above_visits :
    (pass.visits index above lines).map (·.above) = (above :: lines).dropLast := by
  induction lines generalizing pass index above with
  | nil => rfl
  | cons raw lines ih => rw [visits_cons, List.map_cons, ih, List.dropLast_cons_cons]

theorem exists_table_of_mem_visits {visit : Visit} (h : visit ∈ pass.visits index above lines) :
    ∃ table, visit.notices = lineNotices table visit.above visit.raw := by
  induction lines generalizing pass index above with
  | nil => simp [visits] at h
  | cons raw lines ih =>
    rw [visits_cons] at h
    rcases List.mem_cons.1 h with rfl | hrest
    · exact ⟨_, rfl⟩
    · exact ih _ _ _ hrest

theorem countP_expanded_visits :
    (pass.visits index above lines).countP Visit.expanded =
      (firstPass pass.table above lines).countP (·.rules ≠ []) := by
  induction lines generalizing pass index above with
  | nil => rfl
  | cons raw lines ih =>
    rw [visits_cons, List.countP_cons, ih, table_step, firstPass, List.countP_cons, Visit.expanded,
      any_isExpanded_lineNotices]

end Pass

/-- Every line of a scene is accounted for. The header and each declaration and property line are
one output line, each node is two, and blank lines are none. A visit of a declaration leaves one
notice about it, and other visits none; the ids noted as numbered are the table, in its order. The
presets counted as expanded are the property lines whose visits note an expansion, and the line
directly above each of these is not blank. -/
theorem downgradeLines_accounted (header : Text) (lines : List Text) :
    ∃ scene, downgradeLines (header :: lines) = .ok scene ∧
      scene.lines.length = 1 + kindCount .extResource lines + 2 * kindCount .node lines +
        kindCount .property lines ∧
      scene.stats.nodes = kindCount .node lines ∧
      scene.stats.blankDropped = kindCount .blank lines ∧
      scene.stats.resources = scene.table.size ∧
      let visits := (Pass.start header).visits 1 header lines
      visits.map (·.raw) = lines ∧
        visits.map (·.above) = (header :: lines).dropLast ∧
        visits.flatMap (·.notices) = scene.notices ∧
        (∀ visit ∈ visits, visit.notices.countP Notice.isDeclaration =
          if visit.kind = .extResource then 1 else 0) ∧
        scene.notices.filter Notice.isNumbered = scene.table.entries.map Notice.ofEntry ∧
        scene.stats.anchorsExpanded =
          visits.countP (fun visit => visit.kind = .property ∧ visit.expanded) ∧
        ∀ visit ∈ visits, visit.expanded → visit.kind = .property ∧ visit.above.trim ≠ [] := by
  obtain ⟨hlines, htable, hstats⟩ := Pass.start_run_finish header lines
  have hnotices := Pass.notices_run (Pass.start header) 1 header lines
  rw [show (Pass.start header).notices.toList = [] from rfl, List.nil_append] at hnotices
  have hexpanded : ∀ visit ∈ (Pass.start header).visits 1 header lines, visit.expanded →
      visit.kind = .property ∧ visit.above.trim ≠ [] := by
    intro visit hvisit hexpanded
    obtain ⟨table, htable⟩ := Pass.exists_table_of_mem_visits _ _ _ _ hvisit
    rw [Visit.expanded, htable, any_isExpanded_lineNotices, decide_eq_true_iff] at hexpanded
    exact not_blank_above_of_rules table visit.above visit.raw hexpanded
  refine ⟨_, rfl, ?_, ?_, ?_, ?_, Pass.raw_visits _ _ _ _, Pass.above_visits _ _ _ _, ?_, ?_, ?_,
    ?_, hexpanded⟩
  · rw [hlines, length_twoPassLines, entryCount_eq]
    omega
  · rw [hstats]
    exact countP_kind_firstPass _ _ _ _
  · rw [hstats]
    exact countP_kind_firstPass _ _ _ _
  · rw [hstats, htable, twoPassStats]
  · rw [Pass.flatMap_notices_visits]
    exact hnotices.symm
  · intro visit hvisit
    obtain ⟨table, htable⟩ := Pass.exists_table_of_mem_visits _ _ _ _ hvisit
    rw [htable, Visit.kind]
    exact countP_isDeclaration_lineNotices table visit.above visit.raw
  · rw [htable, ofEntry_entries_afterLines {} header lines]
    exact congrArg _ hnotices
  · rw [hstats]
    refine (Pass.countP_expanded_visits (Pass.start header) 1 header lines).symm.trans ?_
    refine List.countP_congr fun visit hvisit => ?_
    rw [decide_eq_true_iff]
    exact ⟨fun h => ⟨(hexpanded visit hvisit h).1, h⟩, And.right⟩

def controlLines : List Text :=
  ["[ext_resource id=\"a\"]".toList, "[ext_resource id=\"a\" path=\"\"]".toList,
    "[ext_resource path=\"\"]".toList, [], "[node]".toList,
    "anchors_preset = 15 anchors_preset = 8".toList, "layout_mode = 1".toList]

/-- A repeated id and a missing one are noted once each, and two presets are counted as one line. -/
theorem downgradeLines_accounted_control :
    ∃ scene, downgradeLines ("[gd_scene]".toList :: controlLines) = .ok scene ∧
      scene.lines.length = 8 ∧ scene.notices.filter Notice.isNumbered = [.numbered ['a'] 1] ∧
      scene.stats.anchorsExpanded = 1 ∧
      ∃ visit ∈ (Pass.start "[gd_scene]".toList).visits 1 "[gd_scene]".toList controlLines,
        visit.expanded ∧ visit.notices.length = 2 ∧ visit.kind = .property ∧
          visit.above.trim ≠ [] := by
  obtain ⟨scene, hscene, hlength, -, -, -, -, -, -, -, hnumbered, hexpanded, habove⟩ :=
    downgradeLines_accounted "[gd_scene]".toList controlLines
  let last : Visit := ⟨"anchors_preset = 15 anchors_preset = 8".toList, "layout_mode = 1".toList,
    [.expanded .fullRect "layout_mode = 1".toList, .expanded .center "layout_mode = 1".toList]⟩
  have hlast :
      last ∈ (Pass.start "[gd_scene]".toList).visits 1 "[gd_scene]".toList controlLines := by
    decide +kernel
  have htable : (downgradeLines ("[gd_scene]".toList :: controlLines)).toOption.map
      (·.table.entries) = some [(['a'], 1)] := by
    decide +kernel
  rw [hscene] at htable
  obtain htable : scene.table.entries = [(['a'], 1)] := by simpa [Except.toOption] using htable
  have hvisit : last.kind = .property ∧ last.above.trim ≠ [] := habove last hlast (by decide)
  exact ⟨scene, hscene, hlength.trans (by decide +kernel), hnumbered.trans (by rw [htable]; rfl),
    hexpanded.trans (by decide +kernel), last, hlast, by decide, rfl, hvisit⟩

end SceneDowngrade.Scene
