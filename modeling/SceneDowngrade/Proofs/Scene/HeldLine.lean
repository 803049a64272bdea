import Mathlib.Order.Bounds.Defs
import SceneDowngrade.Proofs.Scene.Gaps
import SceneDowngrade.Proofs.Scene.RuleOrder

/-!
# The line held back

Before each source line the pass holds back the output of the last line above it that is not blank,
and everything it wrote before comes from lines further up, in order. A rule looks for its preset in
the source line directly above and expands it in the line held back. It never misses that line,
since a blank source line has no preset in it.
-/
namespace SceneDowngrade.Scene

/-- The source line with this index is the header or is not blank. -/
def Filled (lines : List Text) (index : Nat) : Prop :=
  index = 0 ∨ ∃ raw, lines[index]? = some raw ∧ raw.trim ≠ []

/-- The index of a source line, once for each output line that it has of its own. -/
def ownSources (index : Nat) (raw : Text) : List Nat :=
  match LineKind.ofTrimmed raw.trim with
  | .extResource | .property => [index]
  | .node => [index, index]
  | .blank => []

/-- The same for the source lines from `index` on. -/
def sources : (index : Nat) → List Text → List Nat
  | _, [] => []
  | index, raw :: rest => ownSources index raw ++ sources (index + 1) rest

theorem mem_ownSources_iff {index source : Nat} {raw : Text} :
    source ∈ ownSources index raw ↔ source = index ∧ raw.trim ≠ [] := by
  rw [Ne, ← ofTrimmed_eq_blank_iff, ownSources]
  cases LineKind.ofTrimmed raw.trim <;> simp

theorem mem_sources_iff {index source : Nat} {lines : List Text} :
    source ∈ sources index lines ↔
      ∃ k raw, source = index + k ∧ lines[k]? = some raw ∧ raw.trim ≠ [] := by
  induction lines generalizing index with
  | nil => simp [sources]
  | cons raw lines ih =>
    rw [sources, List.mem_append, mem_ownSources_iff, ih]
    constructor
    · rintro (⟨rfl, hraw⟩ | ⟨k, next, rfl, hnext⟩)
      · exact ⟨0, raw, rfl, rfl, hraw⟩
      · exact ⟨k + 1, next, by omega, hnext⟩
    · rintro ⟨k, next, hsource, hnext⟩
      cases k with
      | zero =>
        obtain ⟨rfl, hraw⟩ : raw = next ∧ next.trim ≠ [] := by simpa using hnext
        exact .inl ⟨hsource, hraw⟩
      | succ k => exact .inr ⟨k, next, by omega, hnext⟩

theorem pairwise_sources (index : Nat) (lines : List Text) :
    (sources index lines).Pairwise (· ≤ ·) := by
  induction lines generalizing index with
  | nil => exact .nil
  | cons raw lines ih =>
    refine List.pairwise_append.2 ⟨?_, ih _, fun source hsource later hlater => ?_⟩
    · refine List.pairwise_of_forall_mem_list fun source hsource later hlater => ?_
      rw [(mem_ownSources_iff.1 hsource).1, (mem_ownSources_iff.1 hlater).1]
    · obtain ⟨k, -, rfl, -⟩ := mem_sources_iff.1 hlater
      rw [(mem_ownSources_iff.1 hsource).1]
      omega

/-- The sources of the output of a scene, up to a line of it, are its lines that are filled. -/
theorem mem_sources_iff_filled {source : Nat} (header : Text) (above below : List Text) :
    source ∈ 0 :: sources 1 above ↔
      source < above.length + 1 ∧ Filled (header :: (above ++ below)) source := by
  rw [List.mem_cons, mem_sources_iff, Filled]
  constructor
  · rintro (rfl | ⟨k, raw, rfl, hraw, hfilled⟩)
    · exact ⟨Nat.succ_pos _, .inl rfl⟩
    · have hk : k < above.length := (List.getElem?_eq_some_iff.1 hraw).1
      refine ⟨by omega, .inr ⟨raw, ?_, hfilled⟩⟩
      rw [Nat.add_comm, List.getElem?_cons_succ, List.getElem?_append_left hk, hraw]
  · rintro ⟨hlt, rfl | ⟨raw, hraw, hfilled⟩⟩
    · exact .inl rfl
    · cases source with
      | zero => exact .inl rfl
      | succ k =>
        rw [List.getElem?_cons_succ, List.getElem?_append_left (by omega)] at hraw
        exact .inr ⟨k, raw, Nat.add_comm _ _, hraw, hfilled⟩

theorem getElem?_above (header : Text) (above below : List Text) :
    (header :: (above ++ below))[above.length]? = some (above.getLastD header) := by
  rcases List.eq_nil_or_concat above with rfl | ⟨front, last, rfl⟩
  · rfl
  · simp

namespace Pass

/-- The rules applied to a property line and to what is held back of the source line above it. -/
def anchoring (pass : Pass) (index : Nat) (above line : Text) : Anchoring :=
  expandAnchors above (renameTokens (numberReferences pass.table line))
    (pass.pendingFrom (index - 1))

/-- The lines that a step writes, each as it was held back. -/
def flushed (pass : Pass) (index : Nat) (above raw : Text) : List Pending :=
  match LineKind.ofTrimmed raw.trim with
  | .extResource => pass.pending.toList
  | .node => pass.pending.toList ++ (pass.emit index []).pending.toList
  | .property => (pass.amend (pass.anchoring index above raw.trim).pending).pending.toList
  | .blank => []

/-- The lines that a run writes. -/
def flushedBy (pass : Pass) (index : Nat) (above : Text) : List Text → List Pending
  | [] => []
  | raw :: rest =>
    pass.flushed index above raw ++ (pass.step index above raw).flushedBy (index + 1) raw rest

theorem written_emit (pass : Pass) (index : Nat) (text : Text) :
    (pass.emit index text).written.toList =
      pass.written.toList ++ pass.pending.toList.map (·.text) := by
  cases h : pass.pending <;> simp [emit, h]

@[simp] theorem written_amend (pass : Pass) (text : Option Text) :
    (pass.amend text).written = pass.written := by
  cases text <;> rfl

/-- An amended line comes from where it came from. -/
theorem pending_amend_of_pending {pass : Pass} {held : Pending} (h : pass.pending = some held)
    (text : Option Text) :
    (pass.amend text).pending = some { held with text := text.getD held.text } := by
  cases text <;> simp [amend, h]

theorem pending_amend_congr {pass other : Pass} (h : pass.pending = other.pending)
    (text : Option Text) : (pass.amend text).pending = (other.amend text).pending := by
  cases text <;> simp [amend, h]

section
variable (pass : Pass) (index : Nat) (above : Text)

theorem written_step (raw : Text) :
    (pass.step index above raw).written.toList =
      pass.written.toList ++ (pass.flushed index above raw).map (·.text) := by
  rw [step, flushed]
  cases LineKind.ofTrimmed raw.trim with
  | extResource => exact written_emit _ _ _
  | node =>
    rw [List.map_append, ← List.append_assoc]
    exact (written_emit _ _ _).trans (congrArg (· ++ _) (written_emit _ _ _))
  | blank => exact (List.append_nil _).symm
  | property =>
    refine (written_emit _ _ _).trans ?_
    rw [written_amend]
    -- what `setProperty` counts and notes first does not reach the line held back
    rw [anchoring, @pending_amend_congr _ pass]
    · simp only [note]
    · rfl

theorem written_run (lines : List Text) :
    (pass.run index above lines).written.toList =
      pass.written.toList ++ (pass.flushedBy index above lines).map (·.text) := by
  induction lines generalizing pass index above with
  | nil => simp [run, flushedBy]
  | cons raw lines ih =>
    rw [run, ih, written_step, flushedBy, List.map_append, List.append_assoc]

theorem sources_step {pass : Pass} {held : Pending} (h : pass.pending = some held) (raw : Text) :
    ∃ next, (pass.step index above raw).pending = some next ∧
      (pass.flushed index above raw ++ [next]).map (·.source) =
        held.source :: ownSources index raw := by
  rw [step, flushed, ownSources]
  cases LineKind.ofTrimmed raw.trim with
  | extResource => exact ⟨_, rfl, by simp [h]⟩
  | node => exact ⟨_, rfl, by simp [h, emit]⟩
  | blank => exact ⟨held, h, rfl⟩
  | property => exact ⟨_, rfl, by simp [pending_amend_of_pending h]⟩

/-- A run writes the line held back at its start, then the lines it comes to, in order, and holds
back the last one. -/
theorem sources_run {pass : Pass} {held : Pending} (h : pass.pending = some held)
    (lines : List Text) :
    ∃ last, (pass.run index above lines).pending = some last ∧
      (pass.flushedBy index above lines ++ [last]).map (·.source) =
        held.source :: sources index lines := by
  induction lines generalizing pass index above held with
  | nil => exact ⟨held, h, rfl⟩
  | cons raw lines ih =>
    obtain ⟨next, hnext, hstep⟩ := sources_step index above h raw
    obtain ⟨last, hlast, hrun⟩ := ih (index + 1) raw hnext
    refine ⟨last, hlast, ?_⟩
    rw [flushedBy, sources, List.append_assoc, List.map_append, hrun, ← List.cons_append, ← hstep]
    simp

end

theorem isSome_pendingFrom_iff {pass : Pass} {held : Pending} (h : pass.pending = some held)
    (index : Nat) : (pass.pendingFrom index).isSome ↔ held.source = index := by
  rw [pendingFrom_eq h]
  split_ifs with hsource <;> simp [hsource]

/-- A line above that sets off a rule is not blank. -/
theorem not_blank_of_preset {pass : Pass} {index : Nat} {above line : Text}
    (h : (pass.anchoring index above line).preset?.isSome) : above.trim ≠ [] := by
  intro hblank
  have hrules : rulesFor above (renameTokens (numberReferences pass.table line)) = [] :=
    rulesFor_eq_nil (presetless_of_blank (ofTrimmed_eq_blank_iff.2 hblank)) _
  rw [anchoring, expandAnchors_preset?, hrules] at h
  simp at h

/-- The rules that a property line sets off leave none of their presets in the line held back, and
the run goes on with it as they left it. -/
theorem Ready.anchoring {pass : Pass} {index : Nat} {above raw text : Text}
    (h : pass.Ready index above text) (hpending : pass.pendingFrom (index - 1) = some text)
    (hkind : LineKind.ofTrimmed raw.trim = .property) (rest : List Text) :
    let anchoring := pass.anchoring index above raw.trim
    ∃ edited, anchoring.pending = some edited ∧
      (∀ rule ∈ anchoring.applied, ¬ rule.token <:+: edited) ∧
      pass.written.toList ++ [edited] <+: (pass.run index above (raw :: rest)).finish.lines := by
  intro anchoring
  let rules := rulesFor above (renameTokens (numberReferences pass.table raw.trim))
  have hanchoring : anchoring = _ := expandAnchors_eq above _ _
  have hrules : firstRules (firstPass pass.table above (raw :: rest)) = rules :=
    Draft.rules_of_property _ _ hkind
  refine ⟨expandEach rules text, ?_, fun rule hrule => ?_, ?_⟩
  · rw [hanchoring, hpending]
    rfl
  · rw [hanchoring] at hrule
    exact token_not_isInfix_expanded hrule text
  · rw [← hrules]
    exact (h.finish_run (raw :: rest)).2.1

end Pass

theorem isGreatest_concat {front : List Nat} {last : Nat}
    (h : (front ++ [last]).Pairwise (· ≤ ·)) : IsGreatest {n | n ∈ front ++ [last]} last := by
  refine ⟨by simp, fun n hn => ?_⟩
  rcases List.mem_append.1 hn with hfront | hlast
  · exact (List.pairwise_append.1 h).2.2 n hfront last (by simp)
  · exact (List.mem_singleton.1 hlast).le

/-- Cut a scene below any of its lines. The pass over it then holds back a line, which is the last
one of the output so far and comes from the last source line above the cut that is the header or not
blank. What was written and what is held back come from the source lines in order, one each but two
for a node and none for a blank line. A property line that sets off a rule finds the source line
directly above it in the line held back. The rules leave none of their presets there, and as they
leave it, it stands in the output of the whole scene. -/
theorem held_back (header : Text) (above below : List Text) :
    let pass := (Pass.start header).run 1 header above
    let flushed := (Pass.start header).flushedBy 1 header above
    let index := above.length + 1
    let lines := header :: (above ++ below)
    let scene := (pass.run index (above.getLastD header) below).finish
    downgradeLines lines = .ok scene ∧
      ∃ held, pass.pending = some held ∧
        IsGreatest {source | source < index ∧ Filled lines source} held.source ∧
        (∃ upper, downgradeLines (header :: above) = .ok upper ∧
          upper.lines = pass.written.toList ++ [held.text]) ∧
        ((pass.pendingFrom (index - 1)).isSome ↔ Filled lines (index - 1)) ∧
        pass.written.toList = flushed.map (·.text) ∧
        (flushed ++ [held]).map (·.source) = 0 :: sources 1 above ∧
        ((flushed ++ [held]).map (·.source)).Pairwise (· ≤ ·) ∧
        ∀ raw rest, below = raw :: rest → LineKind.ofTrimmed raw.trim = .property →
          let anchoring := pass.anchoring index (above.getLastD header) raw.trim
          anchoring.preset?.isSome →
            pass.pendingFrom (index - 1) = some held.text ∧
              ∃ edited, anchoring.pending = some edited ∧
                (∀ rule ∈ anchoring.applied, ¬ rule.token <:+: edited) ∧
                pass.written.toList ++ [edited] <+: scene.lines := by
  intro pass flushed index lines scene
  obtain ⟨held, hheld, hsources⟩ :=
    Pass.sources_run 1 header (rfl : (Pass.start header).pending = some ⟨0, _⟩) above
  have hsorted : (0 :: sources 1 above).Pairwise (· ≤ ·) :=
    List.pairwise_cons.2 ⟨fun _ _ => Nat.zero_le _, pairwise_sources _ _⟩
  have hgreatest : IsGreatest {source | source < index ∧ Filled lines source} held.source := by
    rw [← hsources, List.map_append, List.map_singleton] at hsorted
    convert isGreatest_concat hsorted using 3 with source
    rw [← mem_sources_iff_filled, ← hsources, List.map_append, List.map_singleton]
  have hdirect : held.source = index - 1 ↔ Filled lines (index - 1) := by
    constructor
    · intro hsource
      exact hsource ▸ hgreatest.1.2
    · intro hfilled
      have hle : index - 1 ≤ held.source := hgreatest.2 ⟨Nat.lt_succ_self above.length, hfilled⟩
      have hlt : held.source < index := hgreatest.1.1
      omega
  have hready : pass.Ready index (above.getLastD header) held.text := by
    obtain ⟨text, source, hpending, hnear⟩ := (Pass.start_ready header).run above
    obtain rfl : held = ⟨source, text⟩ := Option.some_inj.1 (hheld.symm.trans hpending)
    exact ⟨source, hpending, hnear.imp_left (·.trans (Nat.add_comm _ _))⟩
  refine ⟨?_, held, hheld, hgreatest, ⟨_, rfl, (hready.finish_run []).1⟩,
    (Pass.isSome_pendingFrom_iff hheld _).trans hdirect, ?_, hsources, hsources ▸ hsorted, ?_⟩
  · rw [downgradeLines, Pass.run_append, Nat.add_comm 1]
  · exact (Pass.written_run _ _ _ _).trans (List.nil_append _)
  · rintro raw rest rfl hkind anchoring hpreset
    -- the line directly above has a preset in it, so it is the one held back
    have habove : Filled lines (index - 1) :=
      .inr ⟨_, getElem?_above header above _, Pass.not_blank_of_preset hpreset⟩
    have hpending : pass.pendingFrom (index - 1) = some held.text := by
      rw [Pass.pendingFrom_eq hheld, if_pos (hdirect.2 habove)]
    exact ⟨hpending, hready.anchoring hpending hkind rest⟩

/-- The preset of a panel is held back when its layout mode comes, below a line that was dropped. -/
theorem held_back_panel :
    let above : List Text := [[' '], presetLine]
    let pass := (Pass.start panelHeader).run 1 panelHeader above
    pass.pending = some ⟨2, presetLine⟩ ∧
      (pass.anchoring 3 presetLine layoutLine.trim).preset? = some .center ∧
      ∃ scene, downgradeLines (panelHeader :: (above ++ [layoutLine])) = .ok scene ∧
        pass.written.toList ++ [centerAnchors] <+: scene.lines := by
  intro above pass
  have hpreset : (pass.anchoring 3 presetLine layoutLine.trim).preset? = some .center := by
    decide +kernel
  have hedited : (pass.anchoring 3 presetLine layoutLine.trim).pending = some centerAnchors := by
    decide +kernel
  obtain ⟨hscene, held, -, -, -, -, -, -, -, hexpanded⟩ :=
    held_back panelHeader above [layoutLine]
  obtain ⟨-, edited, hpending, -, hwhole⟩ :=
    hexpanded layoutLine [] rfl (by decide) (Option.isSome_iff_exists.2 ⟨_, hpreset⟩)
  obtain rfl : centerAnchors = edited := Option.some_inj.1 (hedited.symm.trans hpending)
  exact ⟨by decide +kernel, hpreset, _, hscene, hwhole⟩

end SceneDowngrade.Scene
