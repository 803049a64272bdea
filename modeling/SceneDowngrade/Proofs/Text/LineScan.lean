import SceneDowngrade.Proofs.Text.Lines

/-!
# Reading lines in one scan

The newlines of a text are first made the same and then split at. One scan from the left, which
knows all three terminators, reads the same lines.
-/
namespace SceneDowngrade.Text

/-- The lines that a scan from the left reads, where `line` was read since the last terminator. The
text behind the last terminator is a line only if it is not empty. -/
def scanLines (line : Text) : Text → List Text
  | [] => if line.isEmpty then [] else [line]
  | '\r' :: '\n' :: rest => line :: scanLines [] rest
  | '\r' :: rest => line :: scanLines [] rest
  | '\n' :: rest => line :: scanLines [] rest
  | c :: rest => scanLines (line ++ [c]) rest

/-- The lines of a text in which each newline is one character. -/
def unifiedLines (text : Text) : List Text :=
  if text.isEmpty then [] else text.dropFinalNewline.splitOn '\n'

@[simp] theorem unifyNewlines_nil : unifyNewlines [] = [] := by simp [unifyNewlines]

theorem unifyNewlines_pair (rest : Text) :
    unifyNewlines ('\r' :: '\n' :: rest) = '\n' :: unifyNewlines rest := by
  have hpair : '\r' :: '\n' :: rest = ['\r', '\n'] ++ rest := rfl
  rw [unifyNewlines, hpair, replaceAll_found (by simp)]
  rfl

theorem unifyNewlines_pass {c : Char} {rest : Text} (h : ¬ ['\r', '\n'] <+: c :: rest) :
    unifyNewlines (c :: rest) = (if c = '\r' then '\n' else c) :: unifyNewlines rest := by
  rw [unifyNewlines, replaceAll_pass h, List.map_cons, unifyNewlines]

theorem unifyNewlines_cons {c : Char} (h : c ≠ '\r') (rest : Text) :
    unifyNewlines (c :: rest) = c :: unifyNewlines rest := by
  have hpair : ¬ ['\r', '\n'] <+: c :: rest := fun hp => h (List.cons_prefix_cons.1 hp).1.symm
  rw [unifyNewlines_pass hpair, if_neg h]

theorem unifyNewlines_return {rest : Text} (h : ∀ more, rest ≠ '\n' :: more) :
    unifyNewlines ('\r' :: rest) = '\n' :: unifyNewlines rest := by
  have hpair : ¬ ['\r', '\n'] <+: '\r' :: rest := by
    rintro ⟨more, hmore⟩
    exact h more (List.cons.inj hmore).2.symm
  rw [unifyNewlines_pass hpair, if_pos rfl]

theorem unifyNewlines_eq_nil_iff {text : Text} : unifyNewlines text = [] ↔ text = [] := by
  rw [unifyNewlines, List.map_eq_nil_iff, replaceAll_eq_nil_iff (by simp) (by simp)]

theorem lines_eq_unifiedLines (text : Text) : text.lines = unifiedLines text.unifyNewlines := by
  simp only [lines, unifiedLines, List.isEmpty_iff, unifyNewlines_eq_nil_iff]

theorem unifiedLines_of_notMem {line : Text} (h : '\n' ∉ line) :
    unifiedLines line = if line.isEmpty then [] else [line] := by
  have hlast : line.getLast? ≠ some '\n' := fun hl => h (List.mem_of_getLast? hl)
  rw [unifiedLines, dropFinalNewline, if_neg hlast, List.splitOn_eq_singleton h]

theorem dropFinalNewline_append_cons {front rest : Text} (c : Char) (h : rest ≠ []) :
    dropFinalNewline (front ++ c :: rest) = front ++ c :: rest.dropFinalNewline := by
  obtain ⟨last, hlast⟩ := Option.ne_none_iff_exists'.1 (mt List.getLast?_eq_none_iff.1 h)
  have hsame : (front ++ c :: rest).getLast? = rest.getLast? := by
    rw [List.getLast?_append_cons, List.getLast?_cons, hlast, Option.getD_some]
  rw [dropFinalNewline, dropFinalNewline, hsame]
  split_ifs
  · rw [List.dropLast_append_cons, List.dropLast_cons_of_ne_nil h]
  · rfl

/-- What stands before the first newline is the first line. -/
theorem unifiedLines_append {line : Text} (h : '\n' ∉ line) (rest : Text) :
    unifiedLines (line ++ '\n' :: rest) = line :: unifiedLines rest := by
  have hne : ¬ (line ++ '\n' :: rest).isEmpty = true := by simp
  rw [unifiedLines, if_neg hne]
  by_cases hrest : rest = []
  · have hdrop : dropFinalNewline (line ++ ['\n']) = line := by simp [dropFinalNewline]
    rw [hrest, hdrop, List.splitOn_eq_singleton h]
    rfl
  · rw [dropFinalNewline_append_cons _ hrest, List.splitOn_append_cons_self,
      List.splitOn_eq_singleton h, unifiedLines, if_neg (by simpa using hrest)]
    rfl

/-- The scan has read the beginning of a line without a newline, and goes on to read the rest. -/
theorem scanLines_eq {line : Text} (h : '\n' ∉ line) (text : Text) :
    scanLines line text = unifiedLines (line ++ text.unifyNewlines) := by
  have hempty : '\n' ∉ ([] : Text) := List.not_mem_nil
  fun_induction scanLines line text with
  | case1 line hline =>
    rw [unifyNewlines_nil, List.append_nil, unifiedLines_of_notMem h, if_pos hline]
  | case2 line hline =>
    rw [unifyNewlines_nil, List.append_nil, unifiedLines_of_notMem h, if_neg hline]
  | case3 line rest ih =>
    rw [ih hempty, unifyNewlines_pair, unifiedLines_append h, List.nil_append]
  | case4 line rest hrest ih =>
    rw [ih hempty, unifyNewlines_return fun more he => hrest more he, unifiedLines_append h,
      List.nil_append]
  | case5 line rest ih =>
    rw [ih hempty, unifyNewlines_cons (by decide), unifiedLines_append h, List.nil_append]
  | case6 line c rest hpair hreturn hnewline ih =>
    have hline : '\n' ∉ line ++ [c] := by simp [h, Ne.symm hnewline]
    rw [ih hline, unifyNewlines_cons hreturn, List.append_assoc, List.singleton_append]

/-- The lines of a text are those that one scan from the left reads. None of them has a terminator
in it, and only the empty text has no line. Written with a newline behind each, strings without a
carriage return are read again with nothing lost. -/
theorem lines_eq_scanLines (text : Text) :
    text.lines = scanLines [] text ∧ (∀ line ∈ text.lines, '\n' ∉ line ∧ '\r' ∉ line) ∧
      (text.lines = [] ↔ text = []) ∧
      ∀ lines : List Text, lines ≠ [] → (∀ line ∈ lines, '\r' ∉ line) →
        (ofLines lines).lines = lines.flatMap (·.splitOn '\n') := by
  refine ⟨?_, fun line hline => terminator_notMem_lines hline, lines_eq_nil_iff,
    fun lines hne hreturn => lines_ofLines hne hreturn⟩
  rw [lines_eq_unifiedLines, scanLines_eq List.not_mem_nil, List.nil_append]

/-- A carriage return before a pair, an empty line, and a last line without a terminator. -/
theorem lines_eq_scanLines_mixed :
    Text.lines "a\r\r\n\nb".toList = [['a'], [], [], ['b']] ∧
      (ofLines ["c\n".toList, []]).lines = [['c'], [], []] := by
  obtain ⟨hscan, -, -, hwritten⟩ := lines_eq_scanLines "a\r\r\n\nb".toList
  have hlines : ∀ line ∈ ["c\n".toList, []], '\r' ∉ line := by decide
  exact ⟨hscan.trans (by decide), (hwritten _ (by simp) hlines).trans (by decide)⟩

end SceneDowngrade.Text
