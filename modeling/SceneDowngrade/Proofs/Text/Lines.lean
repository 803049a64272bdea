import SceneDowngrade.Proofs.Text.Replacement
import SceneDowngrade.Text.Basic

/-!
# Reading lines

No line that is read has a terminator in it. Lines that are written, each with a newline behind it,
are read again as they were, except that a newline inside one of them ends a line as well.
-/
namespace SceneDowngrade.Text

@[simp] theorem splitOn_cons_newline (rest : Text) :
    ('\n' :: rest).splitOn '\n' = [] :: rest.splitOn '\n' := by
  simp [List.splitOn_cons_eq_if_modifyHead]

theorem exists_splitOn_cons {c : Char} (h : c ≠ '\n') (rest : Text) :
    ∃ first more, rest.splitOn '\n' = first :: more ∧
      (c :: rest).splitOn '\n' = (c :: first) :: more := by
  obtain ⟨first, more, hsplit⟩ := List.exists_cons_of_ne_nil (List.splitOn_ne_nil '\n' rest)
  refine ⟨first, more, hsplit, ?_⟩
  rw [List.splitOn_cons_eq_if_modifyHead, if_neg (by simpa using h), hsplit,
    List.modifyHead_cons]

theorem mem_splitOn_newline {text line : Text} (h : line ∈ text.splitOn '\n') :
    '\n' ∉ line ∧ ∀ c ∈ line, c ∈ text := by
  induction text generalizing line with
  | nil =>
    rw [List.splitOn_nil, List.mem_singleton] at h
    simp [h]
  | cons d rest ih =>
    by_cases hd : d = '\n'
    · rw [hd, splitOn_cons_newline, List.mem_cons] at h
      rcases h with rfl | h
      · simp
      · exact ⟨(ih h).1, fun c hc => List.mem_cons_of_mem _ ((ih h).2 c hc)⟩
    · obtain ⟨first, more, hsplit, hcons⟩ := exists_splitOn_cons hd rest
      rw [hcons, List.mem_cons] at h
      rw [hsplit] at ih
      rcases h with rfl | h
      · obtain ⟨hnewline, hmem⟩ := ih (List.mem_cons_self ..)
        refine ⟨by simp [Ne.symm hd, hnewline], fun c hc => ?_⟩
        rcases List.mem_cons.1 hc with rfl | hc
        · exact List.mem_cons_self ..
        · exact List.mem_cons_of_mem _ (hmem c hc)
      · obtain ⟨hnewline, hmem⟩ := ih (List.mem_cons_of_mem _ h)
        exact ⟨hnewline, fun c hc => List.mem_cons_of_mem _ (hmem c hc)⟩

theorem return_notMem_unifyNewlines (text : Text) : '\r' ∉ text.unifyNewlines := by
  intro h
  obtain ⟨c, -, hc⟩ := List.mem_map.1 h
  split_ifs at hc with hreturn
  · cases hc
  · exact hreturn hc

theorem unifyNewlines_of_notMem {text : Text} (h : '\r' ∉ text) : text.unifyNewlines = text := by
  have hsame : ∀ c ∈ text, (if c = '\r' then '\n' else c) = c := by
    intro c hc
    rw [if_neg]
    rintro rfl
    exact h hc
  rw [unifyNewlines, replaceAll_of_notMem (c := '\r') (by simp) h, List.map_congr_left hsame]
  exact List.map_id _

theorem mem_of_mem_dropFinalNewline {text : Text} {c : Char} (h : c ∈ text.dropFinalNewline) :
    c ∈ text := by
  rw [dropFinalNewline] at h
  split_ifs at h
  · exact List.mem_of_mem_dropLast h
  · exact h

theorem lines_of_ne_nil {text : Text} (h : text ≠ []) :
    text.lines = text.unifyNewlines.dropFinalNewline.splitOn '\n' := by
  rw [lines, if_neg (by simpa using h)]

theorem lines_eq_nil_iff {text : Text} : text.lines = [] ↔ text = [] := by
  constructor
  · intro h
    by_contra hne
    rw [lines_of_ne_nil hne] at h
    exact List.splitOn_ne_nil _ _ h
  · rintro rfl
    rfl

theorem terminator_notMem_lines {text line : Text} (h : line ∈ text.lines) :
    '\n' ∉ line ∧ '\r' ∉ line := by
  have hne : text ≠ [] := by
    rintro rfl
    exact List.not_mem_nil h
  rw [lines_of_ne_nil hne] at h
  obtain ⟨hnewline, hmem⟩ := mem_splitOn_newline h
  refine ⟨hnewline, fun hc => ?_⟩
  exact return_notMem_unifyNewlines text (mem_of_mem_dropFinalNewline (hmem _ hc))

@[simp] theorem ofLines_cons (line : Text) (lines : List Text) :
    ofLines (line :: lines) = line ++ '\n' :: ofLines lines := by
  simp [ofLines]

theorem ofLines_ne_nil {lines : List Text} (h : lines ≠ []) : ofLines lines ≠ [] := by
  obtain ⟨line, lines, rfl⟩ := List.exists_cons_of_ne_nil h
  simp

theorem getLast?_ofLines {lines : List Text} (h : lines ≠ []) :
    (ofLines lines).getLast? = some '\n' := by
  induction lines with
  | nil => exact absurd rfl h
  | cons line lines ih =>
    rw [ofLines_cons, List.getLast?_append_cons, List.getLast?_cons]
    by_cases hlines : lines = []
    · rw [hlines]
      rfl
    · rw [ih hlines]
      rfl

theorem splitOn_dropLast_ofLines {lines : List Text} (h : lines ≠ []) :
    (ofLines lines).dropLast.splitOn '\n' = lines.flatMap (·.splitOn '\n') := by
  induction lines with
  | nil => exact absurd rfl h
  | cons line lines ih =>
    rw [ofLines_cons, List.flatMap_cons, List.dropLast_append_cons]
    by_cases hlines : lines = []
    · have hnone : ofLines [] = [] := rfl
      rw [hlines, hnone, List.dropLast_singleton, List.append_nil, List.flatMap_nil,
        List.append_nil]
    · rw [List.dropLast_cons_of_ne_nil (ofLines_ne_nil hlines), List.splitOn_append_cons_self,
        ih hlines]

theorem return_notMem_ofLines {lines : List Text} (h : ∀ line ∈ lines, '\r' ∉ line) :
    '\r' ∉ ofLines lines := by
  intro hc
  obtain ⟨line, hline, hc⟩ := List.mem_flatMap.1 hc
  simp [h line hline] at hc

theorem lines_ofLines {lines : List Text} (hne : lines ≠ []) (h : ∀ line ∈ lines, '\r' ∉ line) :
    (ofLines lines).lines = lines.flatMap (·.splitOn '\n') := by
  rw [lines_of_ne_nil (ofLines_ne_nil hne), unifyNewlines_of_notMem (return_notMem_ofLines h),
    dropFinalNewline, if_pos (getLast?_ofLines hne), splitOn_dropLast_ofLines hne]

/-- Lines without terminators are read as they were written. -/
theorem lines_ofLines_of_notMem {lines : List Text} (hne : lines ≠ [])
    (h : ∀ line ∈ lines, '\n' ∉ line ∧ '\r' ∉ line) : (ofLines lines).lines = lines := by
  have hsplit : ∀ line ∈ lines, line.splitOn '\n' = [line] := fun line hline =>
    List.splitOn_eq_singleton (h line hline).1
  rw [lines_ofLines hne fun line hline => (h line hline).2, List.flatMap_congr hsplit,
    List.flatMap_singleton']

end SceneDowngrade.Text
