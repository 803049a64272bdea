import Mathlib.Data.List.DropRight
import SceneDowngrade.Json.Token
import SceneDowngrade.Proofs.Json.Grammar

/-!
# Tokens are read whole

White space, words, colons and numbers, each with any text behind it. A number needs to know that it
ends: what follows must not go on with it.
-/
namespace SceneDowngrade.Json

theorem isSpace_iff {c : Char} :
    isSpace c = true ↔ c = ' ' ∨ c = '\t' ∨ c = '\n' ∨ c = '\r' := by
  simp [isSpace, or_assoc]

theorem skipSpace_append {space : Text} (h : Space space) (rest : Text) :
    skipSpace (space ++ rest) = skipSpace rest :=
  List.dropWhile_append_of_pos fun c hc => isSpace_iff.2 (h c hc)

theorem skipSpace_of_space {space : Text} (h : Space space) : skipSpace space = [] := by
  rw [← List.append_nil space, skipSpace_append h]
  rfl

theorem skipSpace_cons {c : Char} (h : isSpace c = false) (rest : Text) :
    skipSpace (c :: rest) = c :: rest := by
  simp [skipSpace, h]

theorem skipSpace_skipSpace (text : Text) : skipSpace (skipSpace text) = skipSpace text :=
  List.dropWhile_idempotent _ text

theorem readColon_append {space : Text} (h : Space space) (rest : Text) :
    readColon (space ++ ':' :: rest) = .ok rest := by
  rw [readColon, skipSpace_append h]
  rfl

theorem readWord_append (word rest : Text) : readWord word (word ++ rest) = .ok rest := by
  induction word with
  | nil => rfl
  | cons c word ih => simp [readWord, ih]

/-- What follows a number does not go on with it. -/
def EndsNumber (rest : Text) : Prop :=
  ∀ c ∈ rest.head?, c.isDigit = false ∧ c ≠ '.' ∧ c ≠ 'e' ∧ c ≠ 'E'

theorem EndsNumber.space_append {space rest : Text} (hspace : Space space)
    (h : EndsNumber rest) : EndsNumber (space ++ rest) := by
  cases space with
  | nil => exact h
  | cons c space =>
    rintro d ⟨⟩
    rcases hspace c List.mem_cons_self with rfl | rfl | rfl | rfl <;> decide

theorem readDigits_append {digits : Text} (h : Digits digits) {rest : Text}
    (hrest : ∀ c ∈ rest.head?, c.isDigit = false) :
    readDigits (digits ++ rest) = .ok (digits.map digitValue, rest) := by
  have htake : rest.takeWhile Char.isDigit = [] := by
    cases rest with
    | nil => rfl
    | cons c rest => simp [hrest c rfl]
  have hdrop : rest.dropWhile Char.isDigit = rest := by
    cases rest with
    | nil => rfl
    | cons c rest => simp [hrest c rfl]
  obtain ⟨hne, hdigits⟩ := h
  cases digits with
  | nil => exact absurd rfl hne
  | cons d digits =>
    rw [readDigits.eq_def, List.cons_append]
    dsimp only
    rw [if_pos (hdigits d List.mem_cons_self), takeDigits, ← List.cons_append,
      List.takeWhile_append_of_pos hdigits, List.dropWhile_append_of_pos hdigits, htake, hdrop,
      List.append_nil]

theorem eq_zero_of_digitValue {c : Char} (h : c.isDigit = true) (hc : digitValue c = 0) :
    c = '0' := by
  rw [Char.isDigit, Bool.and_eq_true, decide_eq_true_iff] at h
  have hle : '0'.toNat ≤ c.toNat := UInt32.le_iff_toNat_le.1 h.1
  rw [digitValue] at hc
  exact Char.toNat_inj.1 (by omega)

theorem readWhole_append {whole : Text} (h : WholeText whole) {rest : Text}
    (hrest : ∀ c ∈ rest.head?, c.isDigit = false) :
    ∃ digits, readWhole (whole ++ rest) = .ok (digits, rest) := by
  obtain ⟨hdigits, hzero⟩ := h
  have hnot : ¬ ((whole.map digitValue).head? = some 0 ∧ 1 < (whole.map digitValue).length) := by
    rintro ⟨hhead, hlength⟩
    obtain ⟨c, hc, hvalue⟩ : ∃ c, whole.head? = some c ∧ digitValue c = 0 := by
      simpa using hhead
    have hisDigit := hdigits.2 c (List.mem_of_head? hc)
    rw [eq_zero_of_digitValue hisDigit hvalue] at hc
    rw [hzero hc] at hlength
    exact absurd hlength (by decide)
  rw [readWhole, readDigits_append hdigits hrest]
  exact ⟨_, if_neg (by simpa using hnot)⟩

theorem readFraction_append {fraction : Text} (h : FractionText fraction) {rest : Text}
    (hrest : ∀ c ∈ rest.head?, c.isDigit = false ∧ c ≠ '.') :
    ∃ digits, readFraction (fraction ++ rest) = .ok (digits, rest) := by
  cases h with
  | none =>
    refine ⟨[], ?_⟩
    cases rest with
    | nil => rfl
    | cons c rest => simp [readFraction, (hrest c rfl).2]
  | some hdigits => exact ⟨_, readDigits_append hdigits fun c hc => (hrest c hc).1⟩

theorem readSign_append {sign digits : Text} (hsign : sign ∈ [[], ['+'], ['-']])
    (hdigits : Digits digits) (rest : Text) :
    (readSign (sign ++ (digits ++ rest))).2 = digits ++ rest := by
  simp only [List.mem_cons, List.not_mem_nil, or_false] at hsign
  rcases hsign with rfl | rfl | rfl
  · obtain ⟨d, digits, rfl⟩ := List.exists_cons_of_ne_nil hdigits.1
    have hd := hdigits.2 d List.mem_cons_self
    have hplus : d ≠ '+' := by
      rintro rfl
      cases hd
    have hminus : d ≠ '-' := by
      rintro rfl
      cases hd
    simp [readSign, hplus, hminus]
  · rfl
  · rfl

theorem readPower_append {power : Text} (h : PowerText power) {rest : Text}
    (hrest : EndsNumber rest) : ∃ n, readPower (power ++ rest) = .ok (n, rest) := by
  cases h with
  | none =>
    refine ⟨none, ?_⟩
    cases rest with
    | nil => rfl
    | cons c rest =>
      obtain ⟨-, -, he, hE⟩ := hrest c rfl
      simp [readPower, he, hE]
  | @some mark sign digits hmark hsign hdigits =>
    have hread := readDigits_append hdigits fun c hc => (hrest c hc).1
    have hafter := readSign_append hsign hdigits rest
    rw [List.cons_append, List.append_assoc, readPower, if_pos (by simpa using hmark)]
    cases hs : readSign (sign ++ (digits ++ rest)) with
    | mk negative left =>
      rw [hs] at hafter
      obtain rfl : left = digits ++ rest := hafter
      dsimp only
      rw [hread]
      exact ⟨_, rfl⟩

/-- A number that is skipped, less its sign. -/
theorem skipNumber_append {whole fraction power rest : Text} (hwhole : WholeText whole)
    (hfraction : FractionText fraction) (hpower : PowerText power) (hrest : EndsNumber rest) :
    skipNumber (whole ++ (fraction ++ (power ++ rest))) = .ok rest := by
  have hbehind : ∀ c ∈ (power ++ rest).head?, c.isDigit = false ∧ c ≠ '.' := by
    cases hpower with
    | none => exact fun c hc => ⟨(hrest c hc).1, (hrest c hc).2.1⟩
    | some hmark =>
      rintro c ⟨⟩
      rcases hmark with rfl | rfl <;> decide
  have hdigits : ∀ c ∈ (fraction ++ (power ++ rest)).head?, c.isDigit = false := by
    cases hfraction with
    | none => exact fun c hc => (hbehind c hc).1
    | some =>
      rintro c ⟨⟩
      rfl
  obtain ⟨_, hw⟩ := readWhole_append hwhole hdigits
  obtain ⟨_, hf⟩ := readFraction_append hfraction hbehind
  obtain ⟨_, hp⟩ := readPower_append hpower hrest
  simp [skipNumber, readNumeral, hw, hf, hp, bind, Except.bind, pure, Except.pure]

end SceneDowngrade.Json
