import SceneDowngrade.Json.String
import SceneDowngrade.Proofs.Json.Grammar

/-!
# Strings are read and skipped whole

A reader that comes to the text of a string gives back its characters and what follows the closing
quote. A string that is only skipped ends at the same place.
-/
namespace SceneDowngrade.Json

theorem hexValue?_of_hexDigit {c : Char} {n : Nat} (h : HexDigit c n) : hexValue? c = some n := by
  have hall : ∀ n < 16,
      hexValue? n.digitChar = some n ∧ hexValue? n.digitChar.toUpper = some n := by
    decide
  obtain ⟨hn, rfl | rfl⟩ := h
  · exact (hall n hn).1
  · exact (hall n hn).2

theorem exists_digits_of_unitText {unit : Nat} {text : Text} (h : UnitText unit text) :
    ∃ digits, text = '\\' :: 'u' :: digits ∧ digits.length = 4 ∧
      ∀ rest, readUnit (digits ++ rest) = .ok (unit, rest) := by
  obtain ⟨ha, hb, hc, hd⟩ := h
  refine ⟨_, rfl, rfl, fun rest => ?_⟩
  simp [readUnit, hexNumber?, hexValue?_of_hexDigit ha, hexValue?_of_hexDigit hb,
    hexValue?_of_hexDigit hc, hexValue?_of_hexDigit hd]

/-- A character is escaped by one code unit that is no surrogate, or by a pair of surrogates. -/
theorem codeUnits_cases (c : Char) :
    (codeUnits c = [c.toNat] ∧ isHighSurrogate c.toNat = false ∧ isLowSurrogate c.toNat = false) ∨
      ∃ high low, codeUnits c = [high, low] ∧ isHighSurrogate high = true ∧
        isLowSurrogate high = false ∧ isLowSurrogate low = true ∧
        pairedCodePoint high low = c.toNat := by
  have hvalid : c.toNat < 0xD800 ∨ 0xDFFF < c.toNat ∧ c.toNat < 0x110000 := c.valid
  rw [codeUnits]
  split_ifs with hplane
  · refine .inl ⟨rfl, ?_, ?_⟩
    · simp [isHighSurrogate]
      omega
    · simp [isLowSurrogate]
      omega
  · refine .inr ⟨_, _, rfl, ?_, ?_, ?_, ?_⟩
    · simp [isHighSurrogate]
      omega
    · simp [isLowSurrogate]
      omega
    · simp [isLowSurrogate]
      omega
    · rw [pairedCodePoint]
      omega

theorem readChar_plain {c : Char} (hquote : c ≠ '"') (hslash : c ≠ '\\') (hc : 0x20 ≤ c.toNat)
    (rest : Text) : readChar (c :: rest) = .ok (some c, rest) := by
  have hcontrol : ¬ c.toNat < 0x20 := by omega
  unfold readChar
  split <;> simp_all

theorem readChar_units {c : Char} {texts : List Text}
    (h : List.Forall₂ UnitText (codeUnits c) texts) (rest : Text) :
    readChar (texts.flatten ++ rest) = .ok (some c, rest) := by
  obtain ⟨hunits, hhigh, hlow⟩ | ⟨high, low, hunits, hhigh, hnot, hlow, hpaired⟩ :=
    codeUnits_cases c
  · rw [hunits] at h
    obtain ⟨text, _, htext, hnil, rfl⟩ := List.forall₂_cons_left_iff.1 h
    obtain rfl := List.forall₂_nil_left_iff.1 hnil
    obtain ⟨digits, rfl, -, hread⟩ := exists_digits_of_unitText htext
    have hescape : readUnitEscape (digits ++ rest) = .ok (c, rest) := by
      simp [readUnitEscape, hread, hhigh, hlow, bind, Except.bind, pure, Except.pure]
    simp [readChar, hescape, Except.map]
  · rw [hunits] at h
    obtain ⟨first, _, hfirst, hrest, rfl⟩ := List.forall₂_cons_left_iff.1 h
    obtain ⟨second, _, hsecond, hnil, rfl⟩ := List.forall₂_cons_left_iff.1 hrest
    obtain rfl := List.forall₂_nil_left_iff.1 hnil
    obtain ⟨digits, rfl, -, hread⟩ := exists_digits_of_unitText hfirst
    obtain ⟨more, rfl, -, hmore⟩ := exists_digits_of_unitText hsecond
    have hescape : readUnitEscape (digits ++ '\\' :: 'u' :: (more ++ rest)) = .ok (c, rest) := by
      simp [readUnitEscape, hread, hmore, hhigh, hnot, hlow, hpaired, bind, Except.bind, pure,
        Except.pure]
    simp [readChar, hescape, Except.map]

theorem letterEscape?_of_mem {c letter : Char} (h : (letter, c) ∈ letterEscapes) :
    letter ≠ 'u' ∧ letterEscape? letter = some c := by
  have hall : ∀ pair ∈ letterEscapes, pair.1 ≠ 'u' ∧ letterEscape? pair.1 = some pair.2 := by
    decide
  exact hall _ h

theorem readChar_of_charText {c : Char} {front : Text} (h : CharText c front) (rest : Text) :
    readChar (front ++ rest) = .ok (some c, rest) := by
  cases h with
  | plain hquote hslash hc => exact readChar_plain hquote hslash hc rest
  | @letter letter hletter =>
    have ⟨hunit, hescape⟩ := letterEscape?_of_mem hletter
    simp [readChar, hescape]
  | units hunits => exact readChar_units hunits rest

theorem readChars_of_stringText {s text : Text} (h : StringText s text) {fuel : Nat}
    (hfuel : s.length < fuel) (rest : Text) :
    readChars fuel (text ++ '"' :: rest) = .ok (s, rest) := by
  induction h generalizing fuel with
  | nil =>
    obtain ⟨fuel, rfl⟩ := Nat.exists_eq_succ_of_ne_zero (Nat.ne_of_gt hfuel)
    rfl
  | cons hc hs ih =>
    obtain ⟨fuel, rfl⟩ := Nat.exists_eq_succ_of_ne_zero (Nat.ne_of_gt (Nat.zero_lt_of_lt hfuel))
    rw [List.append_assoc, readChars, readChar_of_charText hc]
    simp [bind, Except.bind, pure, Except.pure, ih (Nat.lt_of_succ_lt_succ hfuel)]

theorem CharText.length_pos {c : Char} {front : Text} (h : CharText c front) :
    0 < front.length := by
  cases h with
  | plain => exact Nat.one_pos
  | letter => exact Nat.two_pos
  | units hunits =>
    have hne : codeUnits c ≠ [] := by
      rw [codeUnits]
      split_ifs <;> simp
    obtain ⟨unit, units, hcons⟩ := List.exists_cons_of_ne_nil hne
    rw [hcons] at hunits
    obtain ⟨text, _, htext, -, rfl⟩ := List.forall₂_cons_left_iff.1 hunits
    obtain ⟨digits, rfl, -⟩ := exists_digits_of_unitText htext
    simp

theorem StringText.length_le {s text : Text} (h : StringText s text) : s.length ≤ text.length := by
  induction h with
  | nil => exact Nat.le_refl _
  | cons hc hs ih =>
    have hpos := hc.length_pos
    simp only [List.length_cons, List.length_append]
    omega

theorem readString_of_stringText {s text : Text} (h : StringText s text) (rest : Text) :
    readString (text ++ '"' :: rest) = .ok (s, rest) := by
  refine readChars_of_stringText h ?_ rest
  have hle := h.length_le
  simp only [List.length_append, List.length_cons]
  omega

/-- `skipChars` passes over the text in so many steps, whatever stands behind it. -/
def PassedIn (steps : Nat) (text : Text) : Prop :=
  ∀ fuel rest, skipChars (fuel + steps) (text ++ rest) = skipChars fuel rest

theorem PassedIn.append {steps more : Nat} {text next : Text} (h : PassedIn steps text)
    (hnext : PassedIn more next) : PassedIn (more + steps) (text ++ next) := by
  intro fuel rest
  rw [← Nat.add_assoc, List.append_assoc, h, hnext]

theorem passedIn_of_skipChar {text : Text}
    (h : ∀ rest, skipChar (text ++ rest) = .ok (true, rest)) : PassedIn 1 text := by
  intro fuel rest
  simp [skipChars, h, bind, Except.bind]

theorem passedIn_of_unitText {unit : Nat} {text : Text} (h : UnitText unit text) :
    PassedIn 1 text := by
  obtain ⟨digits, rfl, -, hread⟩ := exists_digits_of_unitText h
  refine passedIn_of_skipChar fun rest => ?_
  simp [skipChar, hread, Except.map]

theorem passedIn_of_unitTexts {units : List Nat} {texts : List Text}
    (h : List.Forall₂ UnitText units texts) : PassedIn texts.length texts.flatten := by
  induction h with
  | nil => exact fun _ _ => rfl
  | cons hunit _ ih => exact (passedIn_of_unitText hunit).append ih

theorem length_le_flatten_unitTexts {units : List Nat} {texts : List Text}
    (h : List.Forall₂ UnitText units texts) : texts.length ≤ texts.flatten.length := by
  induction h with
  | nil => exact Nat.le_refl _
  | cons hunit _ ih =>
    obtain ⟨digits, rfl, -⟩ := exists_digits_of_unitText hunit
    simp only [List.length_cons, List.flatten_cons, List.length_append]
    omega

theorem exists_passedIn_of_charText {c : Char} {front : Text} (h : CharText c front) :
    ∃ steps ≤ front.length, PassedIn steps front := by
  cases h with
  | plain hquote hslash hc =>
    refine ⟨1, Nat.le_refl _, passedIn_of_skipChar fun rest => ?_⟩
    have hcontrol : ¬ c.toNat < 0x20 := by omega
    rw [List.singleton_append]
    unfold skipChar
    split <;> simp_all
  | @letter letter hletter =>
    refine ⟨1, by simp, passedIn_of_skipChar fun rest => ?_⟩
    have ⟨hunit, hescape⟩ := letterEscape?_of_mem hletter
    simp [skipChar, hescape]
  | units hunits =>
    exact ⟨_, length_le_flatten_unitTexts hunits, passedIn_of_unitTexts hunits⟩

theorem exists_passedIn_of_stringText {s text : Text} (h : StringText s text) :
    ∃ steps ≤ text.length, PassedIn steps text := by
  induction h with
  | nil => exact ⟨0, Nat.le_refl _, fun _ _ => rfl⟩
  | cons hc _ ih =>
    obtain ⟨steps, hsteps, hpassed⟩ := exists_passedIn_of_charText hc
    obtain ⟨more, hmore, hrest⟩ := ih
    refine ⟨more + steps, ?_, hpassed.append hrest⟩
    rw [List.length_append]
    omega

theorem skipString_of_stringText {s text : Text} (h : StringText s text) (rest : Text) :
    skipString (text ++ '"' :: rest) = .ok rest := by
  obtain ⟨steps, hsteps, hpassed⟩ := exists_passedIn_of_stringText h
  have hfuel : (text ++ '"' :: rest).length + 1 =
      (text.length - steps + rest.length + 1) + 1 + steps := by
    simp only [List.length_append, List.length_cons]
    omega
  rw [skipString, hfuel, hpassed]
  rfl

end SceneDowngrade.Json
