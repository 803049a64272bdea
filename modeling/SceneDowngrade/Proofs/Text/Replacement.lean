import SceneDowngrade.Proofs.Text.Occurrence

/-!
# Replacement

Replacing goes from the left: at an occurrence of the old text it writes the new one and goes on
behind the occurrence, elsewhere it copies one character. Most facts follow these two steps. The
main ones say when a replacement acts on the parts of a text one by one, and when it leaves the
occurrences of another text as they are.
-/
namespace SceneDowngrade.Text

section
variable {old new : Text}

theorem replaceFrom_eq (skip : Nat) (text : Text) :
    replaceFrom old new skip text = replaceAll (text.drop skip) old new := by
  induction text generalizing skip with
  | nil => cases skip <;> simp [replaceFrom, replaceAll]
  | cons c rest ih =>
    cases skip with
    | zero => rfl
    | succ skip => rw [replaceFrom, ih, List.drop_succ_cons]

@[simp] theorem replaceAll_nil : replaceAll [] old new = [] := by simp [replaceAll, replaceFrom]

theorem replaceAll_found (hne : old ≠ []) (rest : Text) :
    replaceAll (old ++ rest) old new = new ++ replaceAll rest old new := by
  obtain ⟨c, tail, rfl⟩ := List.exists_cons_of_ne_nil hne
  have hp : (c :: tail).isPrefixOf (c :: (tail ++ rest)) = true :=
    List.isPrefixOf_iff_prefix.2 (List.prefix_append (c :: tail) rest)
  have step : replaceAll (c :: (tail ++ rest)) (c :: tail) new =
      new ++ replaceFrom (c :: tail) new tail.length (tail ++ rest) := by
    rw [replaceAll, replaceFrom, if_pos hp]
    rfl
  rw [List.cons_append, step, replaceFrom_eq, List.drop_left]

theorem replaceAll_pass {c : Char} {rest : Text} (h : ¬ old <+: c :: rest) :
    replaceAll (c :: rest) old new = c :: replaceAll rest old new := by
  have hp : ¬ old.isPrefixOf (c :: rest) = true := fun hp => h (List.isPrefixOf_iff_prefix.1 hp)
  simp only [replaceAll, replaceFrom, hp, if_false, Bool.false_eq_true]

@[elab_as_elim]
theorem replacement_induction {motive : Text → Prop} (hne : old ≠ []) (nil : motive [])
    (found : ∀ rest, motive rest → motive (old ++ rest))
    (pass : ∀ c rest, ¬ old <+: c :: rest → motive rest → motive (c :: rest))
    (text : Text) : motive text := by
  induction hn : text.length using Nat.strong_induction_on generalizing text with
  | _ n ih =>
    subst hn
    cases text with
    | nil => exact nil
    | cons c rest =>
      by_cases hp : old <+: c :: rest
      · obtain ⟨tail, ht⟩ := hp
        have hlen := congrArg List.length ht
        have hpos := List.length_pos_iff.2 hne
        rw [List.length_append] at hlen
        rw [← ht]
        exact found tail (ih _ (by omega) tail rfl)
      · exact pass c rest hp (ih _ (by simp) rest rfl)

/-- A text goes unchanged as far as no occurrence begins in it. -/
theorem replaceAll_append_of_not_startsIn {front back : Text} (h : ¬ old.StartsIn front back) :
    replaceAll (front ++ back) old new = front ++ replaceAll back old new := by
  induction front with
  | nil => rfl
  | cons c rest ih =>
    have hp : ¬ old <+: c :: (rest ++ back) := fun hp =>
      h ⟨c :: rest, by simp, List.suffix_rfl, hp⟩
    rw [List.cons_append, replaceAll_pass hp, ih fun hs => h hs.of_cons, List.cons_append]

theorem replaceAll_of_not_isInfix {text : Text} (h : ¬ old <:+: text) :
    replaceAll text old new = text := by
  have hs : ¬ old.StartsIn text [] := by
    rintro ⟨tail, -, hs, hp⟩
    rw [List.append_nil] at hp
    exact h (hp.isInfix.trans hs.isInfix)
  have h : replaceAll (text ++ []) old new = text ++ replaceAll [] old new :=
    replaceAll_append_of_not_startsIn hs
  simpa using h

theorem replaceAll_of_notMem {text : Text} {c : Char} (hold : c ∈ old) (htext : c ∉ text) :
    replaceAll text old new = text :=
  replaceAll_of_not_isInfix (not_isInfix_of_notMem hold htext)

theorem replaceAll_append (hne : old ≠ []) {front back : Text} (h : old.CleanCut front back) :
    replaceAll (front ++ back) old new = replaceAll front old new ++ replaceAll back old new := by
  induction front using replacement_induction hne with
  | nil => simp
  | found rest ih =>
    have hcut : old.CleanCut rest back := fun head tail hh ht he hs =>
      h head tail hh ht he (hs.trans (List.suffix_append old rest))
    rw [List.append_assoc, replaceAll_found hne, replaceAll_found hne, ih hcut, List.append_assoc]
  | pass c rest hp ih =>
    have hcut : old.CleanCut rest back := fun head tail hh ht he hs =>
      h head tail hh ht he (hs.trans (List.suffix_cons c rest))
    have hp' : ¬ old <+: c :: (rest ++ back) := by
      intro hpre
      rcases List.prefix_or_prefix_of_prefix hpre (List.prefix_append (c :: rest) back) with ho | ho
      · exact hp ho
      · -- the occurrence would go on behind the seam
        obtain ⟨tail, rfl⟩ := ho
        by_cases ht : tail = []
        · exact hp (by simp [ht])
        · exact h (c :: rest) tail (by simp) ht rfl List.suffix_rfl
            ((List.prefix_append_right_inj (c :: rest)).1 hpre)
    rw [List.cons_append, replaceAll_pass hp', replaceAll_pass hp, ih hcut, List.cons_append]

/-- A part that the old text cannot overlap stays, and parts the text. -/
theorem Independent.replaceAll_append (hne : old ≠ []) {part : Text} (h : old.Independent part)
    (front back : Text) :
    replaceAll (front ++ part ++ back) old new =
      replaceAll front old new ++ part ++ replaceAll back old new := by
  have hcut : old.CleanCut front part := by
    have h : old.CleanCut front (part ++ []) := h.1.cleanCut_right
    rwa [List.append_nil] at h
  have hpart : part ≠ [] := by
    rintro rfl
    exact (h.1 old List.suffix_rfl hne).2 List.nil_prefix
  rw [Text.replaceAll_append hne h.cleanCut_left, Text.replaceAll_append hne hcut,
    replaceAll_of_not_isInfix (h.2.not_isInfix hpart)]

theorem Independent.replaceAll_append_left (hne : old ≠ []) {part : Text}
    (h : old.Independent part) (back : Text) :
    replaceAll (part ++ back) old new = part ++ replaceAll back old new := by
  have hparts : replaceAll ([] ++ part ++ back) old new =
      replaceAll [] old new ++ part ++ replaceAll back old new := h.replaceAll_append hne [] back
  simpa using hparts

theorem replaceAll_cons_of_notMem {c : Char} (hne : old ≠ []) (hc : c ∉ old) (front back : Text) :
    replaceAll (front ++ c :: back) old new =
      replaceAll front old new ++ c :: replaceAll back old new := by
  rw [replaceAll_append hne (.of_notMem_right hc), replaceAll_pass]
  intro hp
  obtain ⟨d, rest, rfl⟩ := List.exists_cons_of_ne_nil hne
  obtain ⟨rfl, -⟩ := List.cons_prefix_cons.1 hp
  exact hc (by simp)

theorem mem_replaceAll_iff (hne : old ≠ []) {c : Char} (hold : c ∉ old) (hnew : c ∉ new)
    (text : Text) : c ∈ replaceAll text old new ↔ c ∈ text := by
  induction text using replacement_induction hne with
  | nil => simp
  | found rest ih => rw [replaceAll_found hne]; simp [hold, hnew, ih]
  | pass d rest hpass ih => rw [replaceAll_pass hpass]; simp [ih]

theorem notMem_replaceAll (hne : old ≠ []) {c : Char} (hnew : c ∉ new) {text : Text}
    (htext : c ∉ text) : c ∉ replaceAll text old new := by
  induction text using replacement_induction hne with
  | nil => simp
  | found rest ih =>
    rw [List.mem_append, not_or] at htext
    rw [replaceAll_found hne]
    simp [hnew, ih htext.2]
  | pass d rest hpass ih =>
    rw [List.mem_cons, not_or] at htext
    rw [replaceAll_pass hpass]
    simp [htext.1, ih htext.2]

theorem replaceAll_eq_nil_iff (hne : old ≠ []) (hnew : new ≠ []) {text : Text} :
    replaceAll text old new = [] ↔ text = [] := by
  induction text using replacement_induction hne with
  | nil => simp
  | found rest => rw [replaceAll_found hne]; simp [hne, hnew]
  | pass c rest hpass => rw [replaceAll_pass hpass]; simp

/-- A character that a replacement does not deal with parts the text before as it parts the text
after. -/
theorem exists_of_replaceAll_eq_append_cons (hne : old ≠ []) {c : Char} (hold : c ∉ old)
    (hnew : c ∉ new) {text front back : Text} (h : replaceAll text old new = front ++ c :: back) :
    ∃ before after, text = before ++ c :: after ∧ replaceAll before old new = front ∧
      replaceAll after old new = back := by
  induction text using replacement_induction hne generalizing front with
  | nil => simp at h
  | found rest ih =>
    rw [replaceAll_found hne] at h
    have ⟨more, hfront, hrest⟩ : ∃ more, front = new ++ more ∧
        replaceAll rest old new = more ++ c :: back := by
      rcases List.append_eq_append_iff.1 h with ⟨more, hfront, hrest⟩ | ⟨more, rfl, hback⟩
      · exact ⟨more, hfront, hrest⟩
      · cases more with
        | nil => exact ⟨[], by simp, hback.symm⟩
        | cons d more =>
          obtain ⟨rfl, -⟩ := List.cons_eq_cons.1 hback
          simp at hnew
    obtain ⟨before, after, rfl, rfl, hafter⟩ := ih hrest
    exact ⟨old ++ before, after, by simp, by rw [replaceAll_found hne, hfront], hafter⟩
  | pass d rest hpass ih =>
    rw [replaceAll_pass hpass] at h
    cases front with
    | nil =>
      obtain ⟨rfl, hback⟩ := List.cons_eq_cons.1 h
      exact ⟨[], rest, rfl, by simp, hback⟩
    | cons e front =>
      obtain ⟨rfl, hrest⟩ := List.cons_eq_cons.1 h
      obtain ⟨before, after, rfl, rfl, hafter⟩ := ih hrest
      have hp : ¬ old <+: d :: before := fun hp =>
        hpass (hp.trans (List.prefix_append (d :: before) (c :: after)))
      exact ⟨d :: before, after, rfl, replaceAll_pass hp, hafter⟩

theorem exists_of_replaceAll_eq_cons (hne : old ≠ []) (hne' : new ≠ []) {c : Char} (hold : c ∉ old)
    (hnew : c ∉ new) {text back : Text} (h : replaceAll text old new = c :: back) :
    ∃ after, text = c :: after ∧ replaceAll after old new = back := by
  have happend : replaceAll text old new = [] ++ c :: back := h
  obtain ⟨before, after, rfl, hbefore, hafter⟩ :=
    exists_of_replaceAll_eq_append_cons hne hold hnew happend
  obtain rfl := (replaceAll_eq_nil_iff hne hne').1 hbefore
  exact ⟨after, rfl, hafter⟩

/-- What a replaced text begins with, if the new text cannot have a part in it, was there before. -/
theorem prefix_of_replaceAll (hne : old ≠ []) {part : Text} (hnew : part.Misses new) {text : Text}
    (h : part <+: replaceAll text old new) : part <+: text := by
  induction text using replacement_induction hne generalizing part with
  | nil => simpa using h
  | found rest =>
    by_cases hp : part = []
    · simp [hp]
    · rw [replaceAll_found hne] at h
      exact absurd h (hnew.not_isPrefix_append hp)
  | pass c rest hpass ih =>
    rw [replaceAll_pass hpass] at h
    cases part with
    | nil => simp
    | cons d tail =>
      obtain ⟨rfl, htail⟩ := List.cons_prefix_cons.1 h
      exact List.cons_prefix_cons.2 ⟨rfl, ih (hnew.of_suffix (List.suffix_cons d tail)) htail⟩

/-- An occurrence in a replaced text begins in a new text that was put in, or else where the text
had no occurrence of the old one. -/
theorem exists_of_infix_replaceAll (hne : old ≠ []) {part : Text} (hpart : part ≠ []) {text : Text}
    (h : part <:+: replaceAll text old new) :
    ∃ tail, tail <:+ text ∧
      (¬ old <+: tail ∧ part <+: replaceAll tail old new ∨
        ∃ rest, tail = old ++ rest ∧ part.StartsIn new (replaceAll rest old new)) := by
  induction text using replacement_induction hne with
  | nil => simp [hpart] at h
  | found rest ih =>
    rw [replaceAll_found hne] at h
    rcases startsIn_or_infix h with hs | hi
    · exact ⟨old ++ rest, List.suffix_rfl, .inr ⟨rest, rfl, hs⟩⟩
    · obtain ⟨tail, htail, hcase⟩ := ih hi
      exact ⟨tail, htail.trans (List.suffix_append old rest), hcase⟩
  | pass c rest hpass ih =>
    rw [replaceAll_pass hpass, List.infix_cons_iff, ← replaceAll_pass hpass] at h
    rcases h with hp | hi
    · exact ⟨c :: rest, List.suffix_rfl, .inl ⟨hpass, hp⟩⟩
    · obtain ⟨tail, htail, hcase⟩ := ih hi
      exact ⟨tail, htail.trans (List.suffix_cons c rest), hcase⟩

/-- A replacement makes no occurrence of a text that the new one cannot overlap. -/
theorem infix_of_replaceAll (hne : old ≠ []) {part : Text} (hpart : part ≠ [])
    (hnew : part.Independent new) {text : Text} (h : part <:+: replaceAll text old new) :
    part <:+: text := by
  obtain ⟨tail, htail, ⟨-, hp⟩ | ⟨rest, rfl, hs⟩⟩ := exists_of_infix_replaceAll hne hpart h
  · exact (prefix_of_replaceAll hne hnew.1 hp).isInfix.trans htail.isInfix
  · exact absurd hs hnew.2.not_startsIn

/-- A text that the new one cannot overlap is gone once it is replaced. -/
theorem not_isInfix_replaceAll_self (hne : old ≠ []) (h : old.Independent new) (text : Text) :
    ¬ old <:+: replaceAll text old new := by
  intro hi
  obtain ⟨tail, -, ⟨hpass, hp⟩ | ⟨rest, rfl, hs⟩⟩ := exists_of_infix_replaceAll hne hne hi
  · exact hpass (prefix_of_replaceAll hne h.1 hp)
  · exact absurd hs h.2.not_startsIn

/-- What a text begins with, if the old text cannot have a part in it, is there afterwards. -/
theorem prefix_replaceAll (hne : old ≠ []) {part : Text} (hold : part.Misses old)
    {text : Text} (h : part <+: text) : part <+: replaceAll text old new := by
  induction text using replacement_induction hne generalizing part with
  | nil => simpa using h
  | found rest =>
    by_cases hp : part = []
    · simp [hp]
    · exact absurd h (hold.not_isPrefix_append hp)
  | pass c rest hpass ih =>
    rw [replaceAll_pass hpass]
    cases part with
    | nil => simp
    | cons d tail =>
      obtain ⟨rfl, htail⟩ := List.cons_prefix_cons.1 h
      exact List.cons_prefix_cons.2 ⟨rfl, ih (hold.of_suffix (List.suffix_cons d tail)) htail⟩

theorem prefix_replaceAll_iff (hne : old ≠ []) {part : Text} (hold : part.Misses old)
    (hnew : part.Misses new) (text : Text) :
    part <+: replaceAll text old new ↔ part <+: text :=
  ⟨prefix_of_replaceAll hne hnew, prefix_replaceAll hne hold⟩

/-- A replacement neither makes nor breaks an occurrence that it cannot overlap. -/
theorem infix_replaceAll_iff (hne : old ≠ []) {part : Text} (hpart : part ≠ [])
    (hold : part.Independent old) (hnew : part.Independent new) (text : Text) :
    part <:+: replaceAll text old new ↔ part <:+: text := by
  induction text using replacement_induction hne with
  | nil => simp
  | found rest ih =>
    rw [replaceAll_found hne, hnew.infix_append hpart, hold.infix_append hpart, ih]
  | pass c rest hpass ih =>
    rw [List.infix_cons_iff, ← ih, ← prefix_replaceAll_iff hne hold.1 hnew.1,
      replaceAll_pass hpass, List.infix_cons_iff]

theorem infix_replaceAll_of_occurs (hne : old ≠ []) {text : Text} (h : old <:+: text) :
    new <:+: replaceAll text old new := by
  induction text using replacement_induction hne with
  | nil => simp [hne] at h
  | found rest =>
    rw [replaceAll_found hne]
    exact (List.prefix_append _ _).isInfix
  | pass c rest hpass ih =>
    rw [replaceAll_pass hpass]
    exact (ih ((List.infix_cons_iff.1 h).resolve_left hpass)).trans (List.suffix_cons _ _).isInfix

/-- What a replaced text ends with, if the new text cannot have a part in it, was there before. -/
theorem suffix_of_replaceAll (hne : old ≠ []) {part : Text} (hold : part.Independent old)
    (hnew : part.Independent new) {text : Text} (h : part <:+ replaceAll text old new) :
    part <:+ text := by
  induction text using replacement_induction hne with
  | nil => simpa using h
  | found rest ih =>
    rw [replaceAll_found hne] at h
    rcases suffix_append_cases h with h | ⟨head, hhead, hs, rfl⟩
    · exact (ih h).trans (List.suffix_append _ _)
    · exact absurd (List.prefix_append head _) (hnew.2 head hs hhead).1
  | pass c rest hpass ih =>
    rw [replaceAll_pass hpass] at h
    rcases List.suffix_cons_iff.1 h with rfl | h
    · -- the whole text is an occurrence, so nothing in it was replaced
      rw [← replaceAll_pass hpass] at hold hnew ⊢
      by_cases hi : old <:+: c :: rest
      · have hpart : replaceAll (c :: rest) old new ≠ [] := by simp [replaceAll_pass hpass]
        exact absurd (infix_replaceAll_of_occurs hne hi) (hnew.1.not_isInfix hpart)
      · rw [replaceAll_of_not_isInfix hi]
    · exact (ih h).trans (List.suffix_cons _ _)

theorem length_replaceAll_le (hne : old ≠ []) (hle : new.length ≤ old.length) (text : Text) :
    (replaceAll text old new).length ≤ text.length := by
  induction text using replacement_induction hne with
  | nil => simp
  | found rest ih =>
    rw [replaceAll_found hne, List.length_append, List.length_append]
    omega
  | pass c rest hpass ih =>
    rw [replaceAll_pass hpass, List.length_cons, List.length_cons]
    omega

/-- A replacement by something shorter shows. -/
theorem replaceAll_eq_self_iff (hlt : new.length < old.length) {text : Text} :
    replaceAll text old new = text ↔ ¬ old <:+: text := by
  have hne : old ≠ [] := List.length_pos_iff.1 (Nat.zero_lt_of_lt hlt)
  refine ⟨fun h => ?_, replaceAll_of_not_isInfix⟩
  induction text using replacement_induction hne with
  | nil => simpa using hne
  | found rest =>
    have hlength := length_replaceAll_le hne (Nat.le_of_lt hlt) rest
    have hsame := congrArg List.length h
    rw [replaceAll_found hne, List.length_append, List.length_append] at hsame
    omega
  | pass c rest hpass ih =>
    rw [replaceAll_pass hpass, List.cons_inj_right] at h
    exact fun hinfix => (List.infix_cons_iff.1 hinfix).elim hpass (ih h)

theorem occursIn_replaceAll (hne : old ≠ []) {part : Text} (hpart : part ≠ [])
    (hold : part.Independent old) (hnew : part.Independent new) (text : Text) :
    part.occursIn (replaceAll text old new) = part.occursIn text := by
  rw [Bool.eq_iff_iff, occursIn_iff_infix, occursIn_iff_infix,
    infix_replaceAll_iff hne hpart hold hnew]

end

@[simp] theorem replaceEach_nil (text : Text) : text.replaceEach [] = text := rfl

@[simp] theorem replaceEach_cons (text : Text) (pair : Text × Text) (pairs : List (Text × Text)) :
    text.replaceEach (pair :: pairs) = (text.replaceAll pair.1 pair.2).replaceEach pairs := rfl

theorem replaceEach_append (text : Text) (pairs more : List (Text × Text)) :
    text.replaceEach (pairs ++ more) = (text.replaceEach pairs).replaceEach more := by
  simp [replaceEach]

theorem replaceEach_of_not_isInfix {text : Text} {pairs : List (Text × Text)}
    (h : ∀ pair ∈ pairs, ¬ pair.1 <:+: text) : text.replaceEach pairs = text := by
  induction pairs with
  | nil => rfl
  | cons pair pairs ih =>
    obtain ⟨hpair, hpairs⟩ := List.forall_mem_cons.1 h
    rw [replaceEach_cons, replaceAll_of_not_isInfix hpair, ih hpairs]

theorem notMem_replaceEach {c : Char} {pairs : List (Text × Text)}
    (h : ∀ pair ∈ pairs, pair.1 ≠ [] ∧ c ∉ pair.2) {text : Text} (htext : c ∉ text) :
    c ∉ text.replaceEach pairs := by
  induction pairs generalizing text with
  | nil => exact htext
  | cons pair pairs ih =>
    obtain ⟨⟨hne, hnew⟩, hpairs⟩ := List.forall_mem_cons.1 h
    exact ih hpairs (notMem_replaceAll hne hnew htext)

theorem infix_of_replaceEach {part : Text} (hpart : part ≠ []) {pairs : List (Text × Text)}
    (h : ∀ pair ∈ pairs, pair.1 ≠ [] ∧ part.Independent pair.2) {text : Text}
    (hi : part <:+: text.replaceEach pairs) : part <:+: text := by
  induction pairs generalizing text with
  | nil => exact hi
  | cons pair pairs ih =>
    obtain ⟨⟨hne, hnew⟩, hpairs⟩ := List.forall_mem_cons.1 h
    exact infix_of_replaceAll hne hpart hnew (ih hpairs hi)

/-- What is replaced is gone for good, if neither its own new text nor a later one brings it back. -/
theorem not_isInfix_replaceEach {old new : Text} {after : List (Text × Text)} (hne : old ≠ [])
    (hself : old.Independent new) (h : ∀ pair ∈ after, pair.1 ≠ [] ∧ old.Independent pair.2)
    (before : List (Text × Text)) (text : Text) :
    ¬ old <:+: text.replaceEach (before ++ (old, new) :: after) := by
  rw [replaceEach_append, replaceEach_cons]
  intro hi
  exact not_isInfix_replaceAll_self hne hself _ (infix_of_replaceEach hne h hi)

theorem infix_replaceEach_iff {part : Text} (hpart : part ≠ []) {pairs : List (Text × Text)}
    (h : ∀ pair ∈ pairs, pair.1 ≠ [] ∧ part.Independent pair.1 ∧ part.Independent pair.2)
    (text : Text) : part <:+: text.replaceEach pairs ↔ part <:+: text := by
  induction pairs generalizing text with
  | nil => rfl
  | cons pair pairs ih =>
    obtain ⟨⟨hne, hold, hnew⟩, hpairs⟩ := List.forall_mem_cons.1 h
    rw [replaceEach_cons, ih hpairs, infix_replaceAll_iff hne hpart hold hnew]

theorem occursIn_replaceEach {part : Text} (hpart : part ≠ []) {pairs : List (Text × Text)}
    (h : ∀ pair ∈ pairs, pair.1 ≠ [] ∧ part.Independent pair.1 ∧ part.Independent pair.2)
    (text : Text) : part.occursIn (text.replaceEach pairs) = part.occursIn text := by
  rw [Bool.eq_iff_iff, occursIn_iff_infix, occursIn_iff_infix, infix_replaceEach_iff hpart h]

end SceneDowngrade.Text
