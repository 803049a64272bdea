import SceneDowngrade.Json.Skip
import SceneDowngrade.Proofs.Json.Strings
import SceneDowngrade.Proofs.Json.Tokens

/-!
# Values are skipped whole

Whatever a value holds, skipping it ends right behind its text. The lists and objects that are open
around it are not looked at, so a value is skipped in the same steps inside them as on its own.
-/
namespace SceneDowngrade.Json

/-- After white space the text begins with a character that closes nothing. -/
def Opens (text : Text) : Prop :=
  ∃ before c rest, text = before ++ c :: rest ∧ Space before ∧ isSpace c = false ∧
    ∀ frame : Open, c ≠ frame.closing

/-- A value is skipped in no more steps than its text is long. -/
def SkipsValue (text : Text) : Prop :=
  ∃ steps ≤ text.length, ∀ fuel frames rest, EndsNumber rest →
    skipFrom (fuel + steps) .value frames (text ++ rest) = skipFrom fuel .separator frames rest

/-- A value with white space around it is skipped up to the comma or the end of the list or object
that it stands in. -/
def SkipsElement (text : Text) : Prop :=
  ∃ steps ≤ text.length, ∀ fuel frame frames c rest, c = ',' ∨ c = Open.closing frame →
    skipFrom (fuel + steps) .value (frame :: frames) (text ++ c :: rest) =
      skipFrom fuel .separator (frame :: frames) (c :: rest)

/-- The same for one item of a list or one member of an object. -/
def SkipsEntry (frame : Open) (text : Text) : Prop :=
  ∃ steps ≤ text.length, ∀ fuel frames c rest, c = ',' ∨ c = frame.closing →
    (frame.enter (text ++ c :: rest)).bind (skipFrom (fuel + steps) .value (frame :: frames)) =
      skipFrom fuel .separator (frame :: frames) (c :: rest)

/-- All that a list or object holds is skipped with its end. -/
def SkipsEntries (frame : Open) (text : Text) : Prop :=
  ∃ steps ≤ text.length + 1, ∀ fuel frames rest,
    (frame.enter (text ++ frame.closing :: rest)).bind
        (skipFrom (fuel + steps) .value (frame :: frames)) =
      skipFrom fuel .separator frames rest

section Steps
variable (fuel : Nat) (frame : Open) (frames : List Open)

theorem skipFrom_value_append {space : Text} (h : Space space) (rest : Text) :
    skipFrom fuel .value frames (space ++ rest) = skipFrom fuel .value frames rest := by
  cases fuel with
  | zero => simp [skipFrom]
  | succ fuel => simp only [skipFrom, skipSpace_append h]

theorem skipFrom_separator_append {space : Text} (h : Space space) (rest : Text) :
    skipFrom fuel .separator (frame :: frames) (space ++ rest) =
      skipFrom fuel .separator (frame :: frames) rest := by
  cases fuel with
  | zero => simp [skipFrom]
  | succ fuel => simp only [skipFrom, skipSpace_append h]

theorem skipFrom_comma (rest : Text) :
    skipFrom (fuel + 1) .separator (frame :: frames) (',' :: rest) =
      (frame.enter rest).bind (skipFrom fuel .value (frame :: frames)) := by
  rw [skipFrom, skipSpace_cons (by decide)]
  rfl

theorem skipFrom_closing (rest : Text) :
    skipFrom (fuel + 1) .separator (frame :: frames) (frame.closing :: rest) =
      skipFrom fuel .separator frames rest := by
  cases frame <;> simp [skipFrom, skipSpace, isSpace, Open.closing]

theorem skipFrom_scalar {c : Char} {text rest : Text} (hspace : isSpace c = false)
    (hopened : opened? c = none) (h : skipScalar c text = .ok rest) :
    skipFrom (fuel + 1) .value frames (c :: text) = skipFrom fuel .separator frames rest := by
  rw [skipFrom, skipSpace_cons hspace]
  simp only [hopened, h]
  rfl

theorem enter_skipSpace (text : Text) :
    (frame.enter (skipSpace text)).bind (skipFrom fuel .value (frame :: frames)) =
      (frame.enter text).bind (skipFrom fuel .value (frame :: frames)) := by
  cases frame with
  | list =>
    cases fuel with
    | zero => simp [Open.enter, Except.bind, skipFrom]
    | succ fuel => simp only [Open.enter, Except.bind, skipFrom, skipSpace_skipSpace]
  | object => simp only [Open.enter, skipName, skipSpace_skipSpace]

theorem skipFrom_opening {c : Char} (hspace : isSpace c = false) (hopened : opened? c = some frame)
    {text : Text} (h : Opens text) (rest : Text) :
    skipFrom (fuel + 1) .value frames (c :: (text ++ rest)) =
      (frame.enter (text ++ rest)).bind (skipFrom fuel .value (frame :: frames)) := by
  obtain ⟨before, d, inner, rfl, hbefore, hd, hclosing⟩ := h
  have hskip : skipSpace (before ++ d :: inner ++ rest) = d :: (inner ++ rest) := by
    rw [List.append_assoc, skipSpace_append hbefore, List.cons_append, skipSpace_cons hd]
  rw [← enter_skipSpace, hskip, skipFrom, skipSpace_cons hspace]
  simp only [hopened, hskip, if_neg (hclosing frame)]
  rfl

theorem skipFrom_empty {c : Char} (hspace : isSpace c = false) (hopened : opened? c = some frame)
    {space : Text} (h : Space space) (rest : Text) :
    skipFrom (fuel + 1) .value frames (c :: (space ++ frame.closing :: rest)) =
      skipFrom fuel .separator frames rest := by
  have hclosing : isSpace frame.closing = false := by cases frame <;> decide
  rw [skipFrom, skipSpace_cons hspace]
  simp only [hopened, skipSpace_append h, skipSpace_cons hclosing, if_true]

end Steps

theorem endsNumber_cons {c : Char} {frame : Open} (h : c = ',' ∨ c = frame.closing) (rest : Text) :
    EndsNumber (c :: rest) := by
  rintro d ⟨⟩
  rcases h with rfl | rfl
  · decide
  · cases frame <;> decide

theorem Opens.of_space {before text : Text} (hbefore : Space before) (h : Opens text)
    (after : Text) : Opens (before ++ (text ++ after)) := by
  obtain ⟨space, c, rest, rfl, hspace, hc⟩ := h
  refine ⟨before ++ space, c, rest ++ after, by simp, ?_, hc⟩
  exact List.forall_mem_append.2 ⟨hbefore, hspace⟩

theorem Opens.append {text : Text} (h : Opens text) (after : Text) : Opens (text ++ after) :=
  Opens.of_space (by simp [Space] : Space []) h after

theorem Opens.of_cons {c : Char} (hspace : isSpace c = false)
    (hclosing : ∀ frame : Open, c ≠ frame.closing) (rest : Text) : Opens (c :: rest) :=
  ⟨[], c, rest, rfl, by simp [Space], hspace, hclosing⟩

theorem SkipsValue.of_scalar {c : Char} {text : Text} (hspace : isSpace c = false)
    (hopened : opened? c = none)
    (h : ∀ rest, EndsNumber rest → skipScalar c (text ++ rest) = .ok rest) :
    SkipsValue (c :: text) := by
  refine ⟨1, by simp, fun fuel frames rest hrest => ?_⟩
  rw [List.cons_append, skipFrom_scalar fuel frames hspace hopened (h rest hrest)]

theorem SkipsValue.of_entries (frame : Open) {c : Char} {text : Text} (hspace : isSpace c = false)
    (hopened : opened? c = some frame) (hopens : Opens text) (h : SkipsEntries frame text) :
    SkipsValue (c :: (text ++ [frame.closing])) := by
  obtain ⟨steps, hsteps, hskip⟩ := h
  refine ⟨steps + 1, by simpa using hsteps, fun fuel frames rest _ => ?_⟩
  rw [List.cons_append, List.append_assoc, List.singleton_append, ← Nat.add_assoc,
    skipFrom_opening _ _ _ hspace hopened hopens, hskip]

theorem SkipsValue.of_empty (frame : Open) {c : Char} {space : Text} (hspace : isSpace c = false)
    (hopened : opened? c = some frame) (h : Space space) :
    SkipsValue (c :: (space ++ [frame.closing])) := by
  refine ⟨1, by simp, fun fuel frames rest _ => ?_⟩
  rw [List.cons_append, List.append_assoc, List.singleton_append,
    skipFrom_empty _ _ _ hspace hopened h]

theorem SkipsValue.element {before text after : Text} (hbefore : Space before)
    (h : SkipsValue text) (hafter : Space after) : SkipsElement (before ++ (text ++ after)) := by
  obtain ⟨steps, hsteps, hskip⟩ := h
  refine ⟨steps, ?_, fun fuel frame frames c rest hc => ?_⟩
  · simp only [List.length_append]
    omega
  · have hends : EndsNumber (c :: rest) := endsNumber_cons hc rest
    rw [List.append_assoc, List.append_assoc, skipFrom_value_append _ _ hbefore,
      hskip _ _ _ (hends.space_append hafter), skipFrom_separator_append _ _ _ hafter]

theorem SkipsElement.item {text : Text} (h : SkipsElement text) : SkipsEntry .list text := by
  obtain ⟨steps, hsteps, hskip⟩ := h
  exact ⟨steps, hsteps, fun fuel frames c rest hc => hskip fuel .list frames c rest hc⟩

theorem skipName_append {name before written after : Text} (hbefore : Space before)
    (hname : StringText name written) (hafter : Space after) (rest : Text) :
    skipName (before ++ '"' :: (written ++ '"' :: (after ++ ':' :: rest))) = .ok rest := by
  rw [skipName, skipSpace_append hbefore, skipSpace_cons (by decide)]
  simp [skipString_of_stringText hname, readColon_append hafter, bind, Except.bind]

theorem SkipsElement.member {name before written after text : Text} (hbefore : Space before)
    (hname : StringText name written) (hafter : Space after) (h : SkipsElement text) :
    SkipsEntry .object (before ++ '"' :: (written ++ '"' :: (after ++ ':' :: text))) := by
  obtain ⟨steps, hsteps, hskip⟩ := h
  refine ⟨steps, ?_, fun fuel frames c rest hc => ?_⟩
  · simp only [List.length_append, List.length_cons]
    omega
  · have henter : Open.enter .object
        (before ++ '"' :: (written ++ '"' :: (after ++ ':' :: text)) ++ c :: rest) =
        .ok (text ++ c :: rest) := by
      have hname' := skipName_append hbefore hname hafter (text ++ c :: rest)
      simpa [Open.enter] using hname'
    rw [henter]
    exact hskip fuel .object frames c rest hc

theorem SkipsEntry.last {frame : Open} {text : Text} (h : SkipsEntry frame text) :
    SkipsEntries frame text := by
  obtain ⟨steps, hsteps, hskip⟩ := h
  refine ⟨1 + steps, by omega, fun fuel frames rest => ?_⟩
  rw [← Nat.add_assoc, hskip _ _ _ _ (.inr rfl), skipFrom_closing]

theorem SkipsEntry.next {frame : Open} {text more : Text} (h : SkipsEntry frame text)
    (hmore : SkipsEntries frame more) : SkipsEntries frame (text ++ ',' :: more) := by
  obtain ⟨steps, hsteps, hskip⟩ := h
  obtain ⟨others, hothers, hrest⟩ := hmore
  refine ⟨others + 1 + steps, ?_, fun fuel frames rest => ?_⟩
  · simp only [List.length_append, List.length_cons]
    omega
  · rw [List.append_assoc, List.cons_append, ← Nat.add_assoc, hskip _ _ _ _ (.inl rfl),
      ← Nat.add_assoc, skipFrom_comma, hrest]

/-- How the text of a phrase is skipped. -/
def Phrase.Skips : Phrase → Text → Prop
  | .value _ => SkipsValue
  | .element _ => SkipsElement
  | .elements _ => SkipsEntries .list
  | .member _ => SkipsEntry .object
  | .members _ => SkipsEntries .object

theorem ne_of_isDigit {c d : Char} (h : c.isDigit = true) (hd : d.isDigit = false) : c ≠ d := by
  rintro rfl
  simp [h] at hd

theorem skipScalar_of_isDigit {c : Char} (h : c.isDigit = true) (rest : Text) :
    skipScalar c rest = skipNumber (c :: rest) := by
  simp [skipScalar, h, ne_of_isDigit h (rfl : 'n'.isDigit = false),
    ne_of_isDigit h (rfl : 't'.isDigit = false), ne_of_isDigit h (rfl : 'f'.isDigit = false),
    ne_of_isDigit h (rfl : '"'.isDigit = false), ne_of_isDigit h (rfl : '-'.isDigit = false)]

/-- A number is a scalar from its sign or its first digit on. -/
theorem NumberText.cases {text : Text} (h : NumberText text) :
    ∃ c digits, text = c :: digits ∧ (c = '-' ∨ c.isDigit = true) ∧
      ∀ rest, EndsNumber rest → skipScalar c (digits ++ rest) = .ok rest := by
  obtain ⟨hsign, hwhole, hfraction, hpower⟩ := h
  have hskip (rest : Text) (hrest : EndsNumber rest) :=
    skipNumber_append hwhole hfraction hpower hrest
  simp only [List.mem_cons, List.not_mem_nil, or_false] at hsign
  rcases hsign with rfl | rfl
  · obtain ⟨d, digits, rfl⟩ := List.exists_cons_of_ne_nil hwhole.1.1
    have hd := hwhole.1.2 d List.mem_cons_self
    refine ⟨d, _, rfl, .inr hd, fun rest hrest => ?_⟩
    rw [skipScalar_of_isDigit hd]
    simpa using hskip rest hrest
  · refine ⟨'-', _, rfl, .inl rfl, fun rest hrest => ?_⟩
    simpa [skipScalar] using hskip rest hrest

/-- What holds of the sign and of no digit does not hold of how a number begins. -/
theorem opens_number {c : Char} (h : c = '-' ∨ c.isDigit = true) :
    isSpace c = false ∧ opened? c = none ∧ ∀ frame : Open, c ≠ frame.closing := by
  rcases h with rfl | h
  · exact ⟨by decide, by decide, by rintro (_ | _) <;> decide⟩
  · refine ⟨?_, ?_, ?_⟩
    · simp [isSpace, ne_of_isDigit h (rfl : ' '.isDigit = false),
        ne_of_isDigit h (rfl : '\t'.isDigit = false), ne_of_isDigit h (rfl : '\n'.isDigit = false),
        ne_of_isDigit h (rfl : '\r'.isDigit = false)]
    · simp [opened?, ne_of_isDigit h (rfl : '['.isDigit = false),
        ne_of_isDigit h (rfl : '\x7b'.isDigit = false)]
    · rintro (_ | _)
      · exact ne_of_isDigit h rfl
      · exact ne_of_isDigit h rfl

theorem Spells.opens {phrase : Phrase} {text : Text} (h : Spells phrase text) : Opens text := by
  induction h with
  | null | true | false | string | emptyList | list | emptyObject | object =>
    exact .of_cons (by decide) (by rintro (_ | _) <;> decide) _
  | number hnumber =>
    obtain ⟨c, digits, rfl, hc, -⟩ := hnumber.cases
    exact .of_cons (opens_number hc).1 (opens_number hc).2.2 _
  | element hbefore _ _ ih => exact .of_space hbefore ih _
  | lastElement _ ih => exact ih
  | nextElement _ _ ih _ => exact ih.append _
  | member hbefore =>
    exact ⟨_, '"', _, rfl, hbefore, by decide, by rintro (_ | _) <;> decide⟩
  | lastMember _ ih => exact ih
  | nextMember _ _ ih _ => exact ih.append _

theorem Spells.skips {phrase : Phrase} {text : Text} (h : Spells phrase text) :
    phrase.Skips text := by
  induction h with
  | null => exact .of_scalar (by decide) (by decide) fun rest _ => readWord_append _ rest
  | true => exact .of_scalar (by decide) (by decide) fun rest _ => readWord_append _ rest
  | false => exact .of_scalar (by decide) (by decide) fun rest _ => readWord_append _ rest
  | number hnumber =>
    obtain ⟨c, digits, rfl, hc, hskip⟩ := hnumber.cases
    exact .of_scalar (opens_number hc).1 (opens_number hc).2.1 hskip
  | string hstring =>
    refine .of_scalar (by decide) (by decide) fun rest _ => ?_
    rw [List.append_assoc]
    exact skipString_of_stringText hstring rest
  | emptyList hspace => exact .of_empty .list (by decide) rfl hspace
  | list h ih => exact .of_entries .list (by decide) rfl h.opens ih
  | emptyObject hspace => exact .of_empty .object (by decide) rfl hspace
  | object h ih => exact .of_entries .object (by decide) rfl h.opens ih
  | element hbefore _ hafter ih => exact ih.element hbefore hafter
  | lastElement _ ih => exact ih.item.last
  | nextElement _ _ ih ihrest => exact ih.item.next ihrest
  | member hbefore hname hafter _ ih => exact ih.member hbefore hname hafter
  | lastMember _ ih => exact ih.last
  | nextMember _ _ ih ihrest => exact ih.next ihrest

/-- The white space behind a skipped value is left to what comes next. -/
theorem skipValue_element {value : Value} {text : Text} (h : Spells (.element value) text)
    {rest : Text} (hrest : EndsNumber rest) :
    ∃ after, Space after ∧ skipValue (text ++ rest) = .ok (after ++ rest) := by
  cases h with
  | @element _ before text after hbefore hvalue hafter =>
    obtain ⟨steps, hsteps, hskip⟩ := hvalue.skips
    have hends : EndsNumber (after ++ rest) := hrest.space_append hafter
    have hfuel : (before ++ (text ++ after) ++ rest).length + 1 =
        (before.length + (text.length - steps) + (after ++ rest).length + 1) + steps := by
      simp only [List.length_append]
      omega
    refine ⟨after, hafter, ?_⟩
    rw [skipValue, hfuel, List.append_assoc, List.append_assoc, skipFrom_value_append _ _ hbefore,
      hskip _ _ _ hends, skipFrom]

end SceneDowngrade.Json
