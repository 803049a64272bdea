import Mathlib.Data.List.Infix
import SceneDowngrade.Text.Basic

/-!
# Occurrences of one text in another

When a text is put together from two, an occurrence of a third stands in the front, in the back, or
across the seam. The lemmas here rule the last case out: by a character the third text does not
have, or because it has no end in common with what stands at the seam.
-/
namespace SceneDowngrade.Text

theorem occursIn_iff_infix {part text : Text} : part.occursIn text = true ↔ part <:+: text := by
  induction text with
  | nil => simp [occursIn]
  | cons c rest ih =>
    rw [occursIn, Bool.or_eq_true, ih, List.isPrefixOf_iff_prefix, List.infix_cons_iff]

theorem occursIn_eq_false_iff {part text : Text} :
    part.occursIn text = false ↔ ¬ part <:+: text := by
  rw [← occursIn_iff_infix, Bool.not_eq_true]

/-- Whether an occurrence of `part` in `front ++ back` begins in `front`. -/
def StartsIn (part front back : Text) : Prop :=
  ∃ tail, tail ≠ [] ∧ tail <:+ front ∧ part <+: tail ++ back

/-- No occurrence of `part` in `front ++ back` stands across the seam. -/
def CleanCut (part front back : Text) : Prop :=
  ∀ head tail, head ≠ [] → tail ≠ [] → part = head ++ tail → head <:+ front → ¬ tail <+: back

/-- No non-empty tail of `part` agrees with `other` as far as both go. -/
def Misses (part other : Text) : Prop :=
  ∀ tail, tail <:+ part → tail ≠ [] → ¬ tail <+: other ∧ ¬ other <+: tail

/-- An occurrence of one of the texts never overlaps an occurrence of the other. -/
def Independent (a b : Text) : Prop := a.Misses b ∧ b.Misses a

-- These two come before the search through all characters there are.
instance (priority := high) decidableForallMem (text : Text) (p : Char → Prop) [DecidablePred p] :
    Decidable (∀ c ∈ text, p c) :=
  List.decidableBAll p text

instance (priority := high) decidableExistsMem (text : Text) (p : Char → Prop) [DecidablePred p] :
    Decidable (∃ c ∈ text, p c) :=
  List.decidableBEx p text

instance (part other : Text) : Decidable (part.Misses other) :=
  decidable_of_iff (∀ tail ∈ part.tails, tail ≠ [] → ¬ tail <+: other ∧ ¬ other <+: tail)
    (forall_congr' fun _ => imp_congr_left (List.mem_tails _ _))

instance (a b : Text) : Decidable (a.Independent b) := inferInstanceAs (Decidable (_ ∧ _))

theorem Independent.symm {a b : Text} (h : a.Independent b) : b.Independent a := ⟨h.2, h.1⟩

theorem Misses.of_suffix {part tail other : Text} (h : part.Misses other) (ht : tail <:+ part) :
    tail.Misses other := fun rest hrest =>
  h rest (hrest.trans ht)

theorem Misses.not_isPrefix {part other : Text} (h : part.Misses other) (hne : part ≠ []) :
    ¬ part <+: other :=
  (h part List.suffix_rfl hne).1

theorem Misses.append_right {part other back : Text} (h : part.Misses other) :
    part.Misses (other ++ back) := by
  intro tail ht hne
  have ⟨hshort, hlong⟩ := h tail ht hne
  refine ⟨fun hp => ?_, fun hp => hlong ((List.prefix_append other back).trans hp)⟩
  rcases List.prefix_or_prefix_of_prefix hp (List.prefix_append other back) with hp | hp
  · exact hshort hp
  · exact hlong hp

theorem Misses.not_isPrefix_append {part other back : Text} (h : part.Misses other)
    (hne : part ≠ []) : ¬ part <+: other ++ back :=
  h.append_right.not_isPrefix hne

/-- A text with an occurrence of `other` has a tail that begins with it. -/
theorem Misses.not_isInfix {part other : Text} (h : part.Misses other) (hne : part ≠ []) :
    ¬ other <:+: part := by
  rintro ⟨front, back, rfl⟩
  by_cases hb : other ++ back = []
  · obtain ⟨rfl, rfl⟩ := List.append_eq_nil_iff.1 hb
    exact (h _ List.suffix_rfl hne).2 List.nil_prefix
  · exact (h (other ++ back) ⟨front, by simp⟩ hb).2 (List.prefix_append _ _)

theorem CleanCut.of_notMem_right {part front back : Text} {c : Char} (hc : c ∉ part) :
    part.CleanCut front (c :: back) := by
  rintro head tail - ht rfl - hp
  obtain ⟨d, rest, rfl⟩ := List.exists_cons_of_ne_nil ht
  obtain ⟨rfl, -⟩ := List.cons_prefix_cons.1 hp
  exact hc (by simp)

theorem Misses.cleanCut_right {part other front back : Text} (h : part.Misses other) :
    part.CleanCut front (other ++ back) := by
  rintro head tail - ht rfl -
  exact (h.of_suffix (List.suffix_append head tail)).not_isPrefix_append ht

theorem Independent.cleanCut_left {part other front back : Text} (h : part.Independent other) :
    part.CleanCut (front ++ other) back := by
  rintro head tail hh ht rfl hs -
  rcases List.suffix_or_suffix_of_suffix hs (List.suffix_append front other) with hs | ⟨u, rfl⟩
  · exact (h.2 head hs hh).1 (List.prefix_append _ _)
  · exact (h.1 (other ++ tail) ⟨u, by simp⟩ (by simp [ht])).2 (List.prefix_append _ _)

theorem infix_append_iff {part front back : Text} (h : part.CleanCut front back) :
    part <:+: front ++ back ↔ part <:+: front ∨ part <:+: back := by
  rw [List.infix_append_iff_ne_nil]
  constructor
  · rintro (hf | hb | ⟨head, tail, hh, ht, he, hs, hp⟩)
    · exact .inl hf
    · exact .inr hb
    · exact absurd hp (h head tail hh ht he hs)
  · rintro (hf | hb)
    · exact .inl hf
    · exact .inr (.inl hb)

theorem Independent.infix_append {part other rest : Text} (h : part.Independent other)
    (hne : part ≠ []) : part <:+: other ++ rest ↔ part <:+: rest := by
  have hother : other ≠ [] := by
    rintro rfl
    exact (h.1 part List.suffix_rfl hne).2 List.nil_prefix
  have hcut : part.CleanCut other rest := by
    have h : part.CleanCut ([] ++ other) rest := h.cleanCut_left
    rwa [List.nil_append] at h
  rw [infix_append_iff hcut, or_iff_right (h.2.not_isInfix hother)]

theorem not_isInfix_of_notMem {part text : Text} {c : Char} (hp : c ∈ part) (ht : c ∉ text) :
    ¬ part <:+: text := fun h => ht (h.mem hp)

/-- Two equal texts part at the same place, if neither front has the character of the other cut. -/
theorem append_cons_inj {front back other rest : Text} {c d : Char} (hf : d ∉ front)
    (ho : c ∉ other) :
    front ++ c :: back = other ++ d :: rest ↔ front = other ∧ c = d ∧ back = rest := by
  constructor
  · intro h
    rcases List.append_eq_append_iff.1 h with ⟨more, rfl, hm⟩ | ⟨more, rfl, hm⟩
    · cases more with
      | nil => simpa using hm
      | cons e more =>
        obtain ⟨rfl, -⟩ := List.cons_eq_cons.1 hm
        simp at ho
    · cases more with
      | nil => simpa [eq_comm] using hm
      | cons e more =>
        obtain ⟨rfl, -⟩ := List.cons_eq_cons.1 hm
        simp at hf
  · rintro ⟨rfl, rfl, rfl⟩
    rfl

theorem append_cons_prefix_iff {front back other rest : Text} {c d : Char} (hf : d ∉ front)
    (ho : c ∉ other) :
    front ++ c :: back <+: other ++ d :: rest ↔ front = other ∧ c = d ∧ back <+: rest := by
  constructor
  · rintro ⟨more, h⟩
    rw [List.append_assoc, List.cons_append, append_cons_inj hf ho] at h
    obtain ⟨rfl, rfl, rfl⟩ := h
    exact ⟨rfl, rfl, List.prefix_append _ _⟩
  · rintro ⟨rfl, rfl, more, rfl⟩
    exact ⟨more, by simp⟩

theorem prefix_append_cons_of_notMem {part front back : Text} {c : Char} (hc : c ∉ part) :
    part <+: front ++ c :: back ↔ part <+: front := by
  constructor
  · intro h
    have hfront := List.prefix_append front (c :: back)
    rcases List.prefix_or_prefix_of_prefix h hfront with h | ⟨more, rfl⟩
    · exact h
    · rw [List.prefix_append_right_inj] at h
      cases more with
      | nil => simp
      | cons d more =>
        obtain ⟨rfl, -⟩ := List.cons_prefix_cons.1 h
        simp at hc
  · exact fun h => h.trans (List.prefix_append _ _)

theorem infix_append_cons_of_notMem {part front back : Text} {c : Char} (hc : c ∉ part) :
    part <:+: front ++ c :: back ↔ part <:+: front ∨ part <:+: back := by
  rw [infix_append_iff (.of_notMem_right hc), List.infix_cons_iff]
  have hnil : part <+: [] ++ c :: back ↔ part <+: [] := prefix_append_cons_of_notMem hc
  rw [List.nil_append, List.prefix_nil] at hnil
  rw [hnil]
  constructor
  · rintro (h | rfl | h)
    · exact .inl h
    · exact .inr (List.nil_infix)
    · exact .inr h
  · rintro (h | h)
    · exact .inl h
    · exact .inr (.inr h)

theorem suffix_append_cases {tail front back : Text} (h : tail <:+ front ++ back) :
    tail <:+ back ∨ ∃ rest, rest ≠ [] ∧ rest <:+ front ∧ tail = rest ++ back := by
  rcases List.suffix_or_suffix_of_suffix h (List.suffix_append front back) with hs | ⟨rest, rfl⟩
  · exact .inl hs
  · by_cases hr : rest = []
    · exact .inl (by simp [hr])
    · obtain ⟨more, hm⟩ := h
      rw [← List.append_assoc] at hm
      exact .inr ⟨rest, hr, ⟨more, List.append_cancel_right hm⟩, rfl⟩

/-- An occurrence in a text of two parts begins in the front, or else it stands in the back. -/
theorem startsIn_or_infix {part front back : Text} (h : part <:+: front ++ back) :
    part.StartsIn front back ∨ part <:+: back := by
  obtain ⟨tail, hp, hs⟩ := List.infix_iff_prefix_suffix.1 h
  rcases suffix_append_cases hs with hback | ⟨head, hhead, hfront, rfl⟩
  · exact .inr (hp.isInfix.trans hback.isInfix)
  · exact .inl ⟨head, hhead, hfront, hp⟩

/-- A text whose first character stands nowhere else in it. -/
theorem Misses.of_head {c : Char} {rest other : Text} (hc : c ∉ rest)
    (hp : ¬ c :: rest <+: c :: other) (ho : ¬ c :: other <+: c :: rest) :
    Misses (c :: rest) (c :: other) := by
  intro tail ht hne
  rcases List.suffix_cons_iff.1 ht with rfl | ht
  · exact ⟨hp, ho⟩
  · obtain ⟨d, more, rfl⟩ := List.exists_cons_of_ne_nil hne
    have hd : d ≠ c := fun h => hc (h ▸ ht.mem (by simp))
    simp [List.cons_prefix_cons, hd, hd.symm]

/-- A text that has not got the first character of the other one. -/
theorem Misses.of_notMem {part other : Text} {c : Char} (hc : c ∉ part) :
    part.Misses (c :: other) := by
  intro tail ht hne
  obtain ⟨d, rest, rfl⟩ := List.exists_cons_of_ne_nil hne
  have hd : d ≠ c := fun h => hc (h ▸ ht.mem (by simp))
  simp [List.cons_prefix_cons, hd, hd.symm]

theorem StartsIn.head_mem {part front back : Text} {c : Char} (h : part.StartsIn front back)
    (hc : part.head? = some c) : c ∈ front := by
  obtain ⟨tail, hne, hs, hp⟩ := h
  obtain ⟨d, tail, rfl⟩ := List.exists_cons_of_ne_nil hne
  obtain ⟨rest, rfl⟩ : ∃ rest, part = c :: rest := by
    cases part with
    | nil => simp at hc
    | cons e rest => exact ⟨rest, by simpa using hc⟩
  obtain ⟨rfl, -⟩ := List.cons_prefix_cons.1 hp
  exact hs.mem (by simp)

theorem Misses.not_startsIn {part front back : Text} (h : front.Misses part) :
    ¬ part.StartsIn front back := by
  rintro ⟨tail, hne, hs, hp⟩
  have ⟨hshort, hlong⟩ := h tail hs hne
  rcases List.prefix_or_prefix_of_prefix hp (List.prefix_append tail back) with hp | hp
  · exact hlong hp
  · exact hshort hp

theorem StartsIn.of_isPrefix {part whole front back : Text} (h : whole.StartsIn front back)
    (hp : part <+: whole) : part.StartsIn front back := by
  obtain ⟨tail, hne, hs, hw⟩ := h
  exact ⟨tail, hne, hs, hp.trans hw⟩

theorem StartsIn.of_cons {part rest back : Text} {c : Char} (h : part.StartsIn rest back) :
    part.StartsIn (c :: rest) back := by
  obtain ⟨tail, hne, hs, hp⟩ := h
  exact ⟨tail, hne, hs.trans (List.suffix_cons c rest), hp⟩

end SceneDowngrade.Text
