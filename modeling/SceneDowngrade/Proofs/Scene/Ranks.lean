import SceneDowngrade.Proofs.Scene.DeclaredRows

/-!
# Numerals are ranks

Whatever is assigned or declared, the table lists the distinct ids in the order of their first
occurrence, and the numeral of an id is its rank there. In a scene these are the ids captured from
the declarations, and each declaration carries the rank of its own.
-/
namespace SceneDowngrade.Scene

open Text

theorem eraseDups_concat (ids : List Text) (id : Text) :
    (ids ++ [id]).eraseDups = if id ∈ ids then ids.eraseDups else ids.eraseDups ++ [id] := by
  rw [List.eraseDups_append]
  by_cases h : id ∈ ids
  · simp [List.removeAll, h]
  · simp [List.removeAll, h, List.eraseDups_cons]

theorem nodup_eraseDups (ids : List Text) : ids.eraseDups.Nodup := by
  induction ids using List.reverseRecOn with
  | nil => simp
  | append_singleton ids id ih =>
    rw [eraseDups_concat]
    split_ifs with h
    · exact ih
    · exact List.nodup_append.2 ⟨ih, by simp, by
        rintro a ha b hb rfl
        rw [List.mem_singleton.1 hb] at ha
        exact h (List.mem_eraseDups.1 ha)⟩

namespace ResourceTable

/-- The table that numbers some ids from 1 in their order. -/
def ofIds (ids : List Text) : ResourceTable := ⟨ids.zipIdx 1⟩

theorem ids_ofIds (ids : List Text) : (ofIds ids).ids = ids := List.zipIdx_map_fst 1 ids

theorem lookup_zipIdx (ids : List Text) (id : Text) (start : Nat) :
    (ids.zipIdx start).lookup id = if id ∈ ids then some (ids.idxOf id + start) else none := by
  induction ids generalizing start with
  | nil => rfl
  | cons first ids ih =>
    rw [List.zipIdx_cons, List.lookup_cons, ih]
    by_cases he : id = first
    · simp [he]
    · have hne : (id == first) = false := beq_eq_false_iff_ne.2 he
      simp [hne, he, List.idxOf_cons_ne _ (Ne.symm he), Nat.add_assoc, Nat.add_comm 1]

theorem get?_ofIds (ids : List Text) (id : Text) :
    (ofIds ids).get? id = if id ∈ ids then some (ids.idxOf id + 1) else none :=
  lookup_zipIdx ids id 1

/-- An absent id gets the rank it would have at the end. -/
theorem assign_ofIds (ids : List Text) (id : Text) :
    (ofIds ids).assign id =
      ⟨ids.idxOf id + 1, decide (id ∉ ids), ofIds (if id ∈ ids then ids else ids ++ [id])⟩ := by
  rw [assign, get?_ofIds]
  by_cases h : id ∈ ids
  · simp [h]
  · simp [h, ofIds, size, List.zipIdx_append, Nat.add_comm]

def assignAll (table : ResourceTable) (ids : List Text) : ResourceTable :=
  ids.foldl (fun table id => (table.assign id).table) table

theorem assignAll_ofIds (ids more : List Text) :
    (ofIds ids.eraseDups).assignAll more = ofIds (ids ++ more).eraseDups := by
  induction more generalizing ids with
  | nil => rw [List.append_nil]; rfl
  | cons id more ih =>
    have hstep : ((ofIds ids.eraseDups).assign id).table = ofIds (ids ++ [id]).eraseDups := by
      simp only [assign_ofIds, List.mem_eraseDups, eraseDups_concat]
    rw [show (ofIds ids.eraseDups).assignAll (id :: more) =
      ((ofIds ids.eraseDups).assign id).table.assignAll more from rfl, hstep, ih,
      List.append_assoc, List.singleton_append]

/-- What can be done to a table. -/
inductive Call where
  | assign (id : Text)
  | declare (line : Text)

namespace Call

/-- The id that the call is about. -/
def id? : Call → Option Text
  | assign id => some id
  | declare line => declaredId? (plainDeclaration line)

def after (table : ResourceTable) : Call → ResourceTable
  | assign id => (table.assign id).table
  | declare line => (table.declare line).table

theorem after_eq (table : ResourceTable) (call : Call) :
    call.after table = table.assignAll call.id?.toList := by
  cases call with
  | assign id => rfl
  | declare line =>
    rw [after, table_declare, id?]
    cases declaredId? (plainDeclaration line) <;> rfl

end Call

def afterCalls (table : ResourceTable) (calls : List Call) : ResourceTable :=
  calls.foldl Call.after table

theorem afterCalls_eq_assignAll (table : ResourceTable) (calls : List Call) :
    table.afterCalls calls = table.assignAll (calls.filterMap Call.id?) := by
  induction calls generalizing table with
  | nil => rfl
  | cons call calls ih =>
    rw [show table.afterCalls (call :: calls) = (call.after table).afterCalls calls from rfl, ih,
      Call.after_eq, List.filterMap_cons]
    cases call.id? <;> rfl

theorem afterLines_eq_assignAll (table : ResourceTable) (lines : List Text) :
    table.afterLines lines = table.assignAll (lines.filterMap capturedId?) := by
  induction lines generalizing table with
  | nil => rfl
  | cons raw lines ih =>
    rw [show table.afterLines (raw :: lines) = (table.afterLine raw).afterLines lines from rfl, ih,
      afterLine_eq, List.filterMap_cons]
    cases capturedId? raw <;> rfl

theorem entries_prefix_assignAll (ids more : List Text) :
    (ofIds ids.eraseDups).entries <+: ((ofIds ids.eraseDups).assignAll more).entries := by
  rw [assignAll_ofIds, List.eraseDups_append, ofIds, ofIds, List.zipIdx_append]
  exact List.prefix_append _ _

/-- The table numbers the ids that were seen in the order of their first occurrence. Every call keeps
its entries, and an id is new to it exactly if it is absent. -/
structure Ranked (table : ResourceTable) (seen : List Text) : Prop where
  entries : table.entries = seen.eraseDups.zipIdx 1
  nodup : table.ids.Nodup
  kept : ∀ call, table.entries <+: (Call.after table call).entries
  number : ∀ id, (table.assign id).table.get? id = some (table.assign id).number
  isNew : ∀ id, (table.assign id).isNew = true ↔ table.get? id = none

theorem ranked_ofIds (seen : List Text) : (ofIds seen.eraseDups).Ranked seen := by
  refine ⟨rfl, ?_, fun call => ?_, fun id => ?_, fun id => ?_⟩
  · rw [ids_ofIds]
    exact nodup_eraseDups seen
  · rw [Call.after_eq]
    exact entries_prefix_assignAll seen _
  · rw [assign_ofIds, get?_ofIds]
    by_cases h : id ∈ seen.eraseDups
    · rw [if_pos h, if_pos h]
    · rw [if_neg h, if_pos (by simp), List.idxOf_append, if_neg h, List.idxOf_cons_self,
        List.idxOf_eq_length h, Nat.zero_add]
  · rw [assign_ofIds, get?_eq_none_iff, ids_ofIds, decide_eq_true_iff]

end ResourceTable

/-- The distinct ids captured from some lines, in the order of their first occurrence. -/
def capturedIds (lines : List Text) : List Text := (lines.filterMap capturedId?).eraseDups

theorem afterLines_eq_ofIds (lines : List Text) :
    ResourceTable.afterLines {} lines = .ofIds (capturedIds lines) := by
  rw [ResourceTable.afterLines_eq_assignAll]
  exact ResourceTable.assignAll_ofIds [] _

theorem afterCalls_eq_ofIds (calls : List ResourceTable.Call) :
    ResourceTable.afterCalls {} calls = .ofIds (calls.filterMap ResourceTable.Call.id?).eraseDups := by
  rw [ResourceTable.afterCalls_eq_assignAll]
  exact ResourceTable.assignAll_ofIds [] _

/-- Lines further down do not change a rank. -/
theorem rank_append {id : Text} {above : List Text} (h : id ∈ capturedIds above)
    (below : List Text) : (capturedIds (above ++ below)).idxOf id = (capturedIds above).idxOf id := by
  rw [capturedIds, List.filterMap_append, List.eraseDups_append, List.idxOf_append]
  exact if_pos h

/-- The rank of an id is the numeral of no other. -/
theorem get?_eq_rank_iff {id other : Text} {above : List Text} (h : other ∈ capturedIds above) :
    (ResourceTable.afterLines {} above).get? id = some ((capturedIds above).idxOf other + 1) ↔
      id = other := by
  rw [afterLines_eq_ofIds, ResourceTable.get?_ofIds]
  by_cases hid : id ∈ capturedIds above
  · rw [if_pos hid, Option.some_inj, Nat.add_right_cancel_iff, List.idxOf_inj hid]
  · rw [if_neg hid]
    exact iff_of_false (by simp) fun he => hid (he ▸ h)

/-- The numeral that a declaration gets is the rank of its id in the whole scene. -/
theorem number_assign_eq_rank {raw id : Text} (h : capturedId? raw = some id)
    (above below : List Text) :
    ((ResourceTable.afterLines {} above).assign id).number =
      (capturedIds (above ++ raw :: below)).idxOf id + 1 := by
  rw [afterLines_eq_ofIds, ResourceTable.assign_ofIds, capturedIds, capturedIds,
    List.filterMap_append, List.filterMap_cons, h, List.eraseDups_append]
  simp only [List.idxOf_append, List.mem_eraseDups]
  split_ifs with hmem
  · rfl
  · -- the id is the first of those that are new from here on
    have hnew : id ∉ (above.filterMap capturedId?).eraseDups := by
      rwa [List.mem_eraseDups]
    rw [List.idxOf_eq_length hnew, List.cons_removeAll, if_pos (by simpa using hmem),
      List.eraseDups_cons, List.idxOf_cons_self, Nat.zero_add]

theorem rulesBelow_of_presetless {raw : Text} (h : Presetless raw) (above below : List Text) :
    rulesBelow above raw below = [] := by
  cases below with
  | nil => rfl
  | cons next below => exact Draft.rules_of_presetless h _ next

theorem capturedId?_of_extResource {raw : Text}
    (h : LineKind.ofTrimmed raw.trim = .extResource) :
    capturedId? raw = declaredId? (plainDeclaration raw.trim) := by
  rw [capturedId?, h]

theorem kind_of_captured {raw id : Text} (h : capturedId? raw = some id) :
    LineKind.ofTrimmed raw.trim = .extResource := by
  rw [capturedId?] at h
  split at h
  · assumption
  · cases h

theorem declare_line_of_captured {raw id : Text} (h : capturedId? raw = some id)
    (table : ResourceTable) :
    (table.declare raw.trim).line =
      (plainDeclaration raw.trim).replaceAll (idAttribute.around id)
        (numberAttribute (table.assign id).number) := by
  rw [capturedId?_of_extResource (kind_of_captured h)] at h
  rw [ResourceTable.declare, h]

/-- A captured id gives way to its rank, and then the presets that the next line sets off to their
anchors. -/
theorem settledLine_of_captured {raw id : Text} (h : capturedId? raw = some id) (header : Text)
    (above below : List Text) :
    settledLine header above raw below =
      expandEach (rulesBelow above raw below)
        ((plainDeclaration raw.trim).replaceAll (idAttribute.around id)
          (numberAttribute ((capturedIds (above ++ raw :: below)).idxOf id + 1))) := by
  rw [settledLine_of_extResource (kind_of_captured h), declare_line_of_captured h,
    number_assign_eq_rank h above below]

/-- After any calls the table numbers the distinct ids in the order of their first occurrence; each
call keeps the entries before it, and an id is new exactly if it is absent. In a scene the ids are
those captured from the declarations, and each declaration becomes the plain one with the rank of
its id, in which at most the presets are expanded that the line directly below sets off. -/
theorem numerals_are_ranks :
    (∀ calls : List ResourceTable.Call,
      (ResourceTable.afterCalls {} calls).Ranked (calls.filterMap ResourceTable.Call.id?)) ∧
      ∀ (header : Text) (lines : List Text),
        ∃ scene, downgradeLines (header :: lines) = .ok scene ∧
          scene.table.Ranked (lines.filterMap capturedId?) ∧
          ∀ above raw below, lines = above ++ raw :: below →
            LineKind.ofTrimmed raw.trim = .extResource →
              let table := ResourceTable.afterLines {} above
              (capturedId? raw = none → (table.declare raw.trim).table = table) ∧
                ∀ id, capturedId? raw = some id →
                  let line := (plainDeclaration raw.trim).replaceAll (idAttribute.around id)
                    (numberAttribute ((capturedIds lines).idxOf id + 1))
                  (table.declare raw.trim).line = line ∧
                    scene.lines[entryCount (above ++ [raw])]? =
                      some (expandEach (rulesBelow above raw below) line) ∧
                    (Presetless raw → scene.lines[entryCount (above ++ [raw])]? = some line) := by
  refine ⟨fun calls => ?_, fun header lines => ?_⟩
  · rw [afterCalls_eq_ofIds]
    exact ResourceTable.ranked_ofIds _
  obtain ⟨hlines, htable, -⟩ := Pass.start_run_finish header lines
  refine ⟨_, rfl, ?_, ?_⟩
  · rw [htable, afterLines_eq_ofIds]
    exact ResourceTable.ranked_ofIds _
  rintro above raw below rfl hkind table
  have hfilled : LineKind.ofTrimmed raw.trim ≠ .blank := by simp [hkind]
  have hentry := getElem?_twoPassLines hfilled header above below
  rw [← hlines] at hentry
  constructor
  · intro hnone
    rw [capturedId?_of_extResource hkind] at hnone
    rw [ResourceTable.table_declare, hnone]
    rfl
  · intro id hid line
    rw [hentry, settledLine_of_captured hid]
    refine ⟨?_, rfl, fun hpresetless => ?_⟩
    · rw [declare_line_of_captured hid, number_assign_eq_rank hid above below]
    · rw [rulesBelow_of_presetless hpresetless]
      rfl

def repeatedLines : List Text :=
  ["[ext_resource id=\"b\"]".toList, "[ext_resource id=\"a\"]".toList,
    "[ext_resource id=\"b\" path=\"\"]".toList]

theorem numerals_are_ranks_repeated :
    ∃ scene, downgradeLines ("[gd_scene]".toList :: repeatedLines) = .ok scene ∧
      scene.table.entries = [(['b'], 1), (['a'], 2)] ∧
      scene.lines[3]? = some "[ext_resource id=1 path=\"\"]".toList := by
  let last : Text := "[ext_resource id=\"b\" path=\"\"]".toList
  have hids : capturedIds repeatedLines = [['b'], ['a']] := by decide +kernel
  have hfirst : (capturedIds repeatedLines).idxOf ['b'] + 1 = 1 := by rw [hids]; rfl
  have hkind : LineKind.ofTrimmed last.trim = .extResource := by decide
  have hcaptured : capturedId? last = some ['b'] := by decide
  have hpresetless : Presetless last := by decide
  have hcount : entryCount (repeatedLines.take 2 ++ [last]) = 3 := by decide
  have hline : (plainDeclaration last.trim).replaceAll (idAttribute.around ['b'])
      (numberAttribute 1) = "[ext_resource id=1 path=\"\"]".toList := by decide +kernel
  obtain ⟨scene, hscene, htable, hall⟩ := numerals_are_ranks.2 "[gd_scene]".toList repeatedLines
  obtain ⟨-, hdeclared⟩ := hall (repeatedLines.take 2) last [] rfl hkind
  have hrank := (hdeclared ['b'] hcaptured).2.2 hpresetless
  have hentries : scene.table.entries = (capturedIds repeatedLines).zipIdx 1 := htable.entries
  rw [hids] at hentries
  rw [hcount, hfirst, hline] at hrank
  exact ⟨scene, hscene, hentries, hrank⟩

/-- The layout mode on the next line expands the preset in a declaration with a numeral. -/
theorem rank_line_expanded :
    ∃ scene line, downgradeLines ("[gd_scene]".toList :: presetPathLines) = .ok scene ∧
      presetPathLines.head? = some line ∧ capturedId? line = some ['1'] ∧
      scene.table.entries = [(['1'], 1)] ∧
      scene.lines[1]? ≠ some ((plainDeclaration line.trim).replaceAll (idAttribute.around ['1'])
        (numberAttribute 1)) :=
  ⟨_, _, rfl, rfl, by decide, by decide +kernel, by decide +kernel⟩

end SceneDowngrade.Scene
