import Mathlib.Tactic.ByContra
import SceneDowngrade.Proofs.Text.Replacement

/-!
# What a replacement leaves of the replaced text

The new text may join with its surroundings into the old one, or into the old text of another
replacement. If it has but one place in there, the joined text comes up only around the new text of
an occurrence, and what it was joined from stood in the text before.
-/
namespace SceneDowngrade.Text

/-- The new text and what stands around it join into the old one, `front` before it and `back`
behind it, and the two have no other part in common. -/
structure JoinsInto (new old front back : Text) : Prop where
  new_ne : new ≠ []
  split : old = front ++ new ++ back
  once : ∀ tail, tail <:+ old → tail ≠ [] → tail ≠ new ++ back → ¬ tail <+: new ∧ ¬ new <+: tail
  inner : Misses new.tail old

instance (new old front back : Text) : Decidable (JoinsInto new old front back) :=
  decidable_of_iff
    (new ≠ [] ∧ old = front ++ new ++ back ∧
      (∀ tail ∈ old.tails, tail ≠ [] → tail ≠ new ++ back → ¬ tail <+: new ∧ ¬ new <+: tail) ∧
      Misses new.tail old)
    ⟨fun ⟨h₁, h₂, h₃, h₄⟩ => ⟨h₁, h₂, fun tail ht => h₃ tail ((List.mem_tails _ _).2 ht), h₄⟩,
      fun h => ⟨h.new_ne, h.split, fun tail ht => h.once tail ((List.mem_tails _ _).1 ht), h.inner⟩⟩

namespace JoinsInto

-- The joined text is called `whole` where another text is replaced.
variable {new old whole front back : Text}

theorem old_ne (h : JoinsInto new old front back) : old ≠ [] := by
  simp [h.split, h.new_ne]

theorem back_misses (h : JoinsInto new old front back) : back.Misses new := by
  intro tail ht hne
  refine h.once tail (h.split ▸ ht.trans (List.suffix_append _ _)) hne ?_
  rintro rfl
  have hlength := ht.length_le
  have hnew := List.length_pos_iff.2 h.new_ne
  rw [List.length_append] at hlength
  omega

/-- A tail of the old text that begins with the new one, or ends within it, is the new one with what
stands behind it. -/
theorem eq_of_prefix_append (h : JoinsInto new old front back) {part rest : Text}
    (hpart : part <:+ old) (hne : part ≠ []) (hp : part <+: new ++ rest) :
    part = new ++ back ∧ back <+: rest := by
  have hwhole : part = new ++ back := by
    by_contra hother
    have ⟨hshort, hlong⟩ := h.once part hpart hne hother
    rcases List.prefix_or_prefix_of_prefix hp (List.prefix_append new rest) with hp | hp
    · exact hshort hp
    · exact hlong hp
  rw [hwhole, List.prefix_append_right_inj] at hp
  exact ⟨hwhole, hp⟩

theorem front_eq (h : JoinsInto new old front back) {rest : Text} (hold : old = rest ++ new ++ back) :
    rest = front := by
  have hsplit := hold.symm.trans h.split
  exact List.append_cancel_right (List.append_cancel_right hsplit)

/-- The old text begins in the new one only as the new text with what stands behind it. -/
theorem of_startsIn (h : JoinsInto new old front back) {rest : Text}
    (hs : old.StartsIn new rest) : front = [] ∧ back <+: rest := by
  obtain ⟨head, hhead, hsuffix, hp⟩ := hs
  obtain ⟨c, inner, hnew⟩ := List.exists_cons_of_ne_nil h.new_ne
  rcases List.suffix_cons_iff.1 (hnew ▸ hsuffix) with hwhole | hsuffix
  · rw [hwhole, ← hnew] at hp
    obtain ⟨hold, hback⟩ := h.eq_of_prefix_append List.suffix_rfl h.old_ne hp
    have hfront : [] = front := h.front_eq (by simpa using hold)
    exact ⟨hfront.symm, hback⟩
  · have hinner : Misses inner old := by simpa [hnew] using h.inner
    exact absurd ⟨head, hhead, hsuffix, hp⟩ hinner.not_startsIn

/-- What a replaced text begins with, if it is a tail of the joined text, was there before, or else
it is joined around the new text of an occurrence. -/
theorem prefix_of_replaceAll (h : JoinsInto new whole front back) (hne : old ≠ [])
    {part text : Text} (hpart : part <:+ whole) (hp : part <+: replaceAll text old new) :
    part <+: text ∨ ∃ rest, part = rest ++ new ++ back ∧ rest ++ old ++ back <+: text := by
  induction text using replacement_induction hne generalizing part with
  | nil => exact .inl (by simpa using hp)
  | found rest =>
    by_cases hempty : part = []
    · exact .inl (by simp [hempty])
    · rw [replaceAll_found hne] at hp
      obtain ⟨hwhole, hback⟩ := h.eq_of_prefix_append hpart hempty hp
      have hback := Text.prefix_of_replaceAll hne h.back_misses hback
      exact .inr ⟨[], hwhole, by simpa [List.prefix_append_right_inj] using hback⟩
  | pass c rest hpass ih =>
    rw [replaceAll_pass hpass] at hp
    cases part with
    | nil => exact .inl List.nil_prefix
    | cons d tail =>
      obtain ⟨rfl, htail⟩ := List.cons_prefix_cons.1 hp
      rcases ih ((List.suffix_cons d tail).trans hpart) htail with hrest | ⟨more, rfl, hmore⟩
      · exact .inl (List.cons_prefix_cons.2 ⟨rfl, hrest⟩)
      · exact .inr ⟨d :: more, rfl, List.cons_prefix_cons.2 ⟨rfl, hmore⟩⟩

/-- The text that begins in a new text that was put in was joined from the old one. -/
theorem prefix_of_startsIn (h : JoinsInto new whole front back) (hne : old ≠ []) {rest : Text}
    (hs : whole.StartsIn new (replaceAll rest old new)) :
    front ++ old ++ back <+: old ++ rest := by
  obtain ⟨rfl, hback⟩ := h.of_startsIn hs
  have hback := Text.prefix_of_replaceAll hne h.back_misses hback
  simpa [List.prefix_append_right_inj] using hback

/-- Where the old text occurs after its replacement, it is joined around the new text of an
occurrence. -/
theorem infix_of_replaceAll (h : JoinsInto new old front back) {text : Text}
    (hi : old <:+: replaceAll text old new) : front ++ old ++ back <:+: text := by
  obtain ⟨tail, htail, ⟨hpass, hp⟩ | ⟨rest, rfl, hs⟩⟩ :=
    exists_of_infix_replaceAll h.old_ne h.old_ne hi
  · rcases h.prefix_of_replaceAll h.old_ne List.suffix_rfl hp with hp | ⟨more, hold, hmore⟩
    · exact absurd hp hpass
    · obtain rfl := h.front_eq hold
      exact hmore.isInfix.trans htail.isInfix
  · exact (h.prefix_of_startsIn h.old_ne hs).isInfix.trans htail.isInfix

/-- An old text that begins with the new one occurs after its replacement exactly if an occurrence
was followed by the rest of it. -/
theorem infix_replaceAll_iff (h : JoinsInto new old [] back) {text : Text} :
    old <:+: replaceAll text old new ↔ old ++ back <:+: text := by
  have hold : old = new ++ back := by simpa using h.split
  have hmisses : back.Misses old := hold ▸ h.back_misses.append_right
  refine ⟨fun hi => by simpa using h.infix_of_replaceAll hi, fun hi => ?_⟩
  induction text using replacement_induction h.old_ne with
  | nil => simp [h.old_ne] at hi
  | found rest ih =>
    rw [replaceAll_found h.old_ne]
    rcases startsIn_or_infix hi with ⟨head, hhead, hs, hp⟩ | hi
    · have hwhole : head = old := by
        by_contra hne
        have ⟨hshort, hlong⟩ := h.once head hs hhead (hold ▸ hne)
        have hnew : new <+: head ++ rest := by
          refine List.IsPrefix.trans ?_ hp
          rw [hold, List.append_assoc]
          exact List.prefix_append _ _
        rcases List.prefix_or_prefix_of_prefix hnew (List.prefix_append head rest) with hp | hp
        · exact hlong hp
        · exact hshort hp
      rw [hwhole, List.prefix_append_right_inj] at hp
      have hback : back <+: replaceAll rest old new := prefix_replaceAll h.old_ne hmisses hp
      refine List.IsPrefix.isInfix ?_
      conv_lhs => rw [hold]
      exact (List.prefix_append_right_inj new).2 hback
    · exact (ih hi).trans (List.suffix_append _ _).isInfix
  | pass c rest hpass ih =>
    rw [replaceAll_pass hpass]
    refine List.IsInfix.trans (ih ?_) (List.suffix_cons c _).isInfix
    refine (List.infix_cons_iff.1 hi).resolve_left fun hp => ?_
    exact hpass ((List.prefix_append old back).trans hp)

/-- The replacement the other way round gives the text that the old one is joined from. -/
theorem replaceAll_eq (h : JoinsInto new whole front back) (old : Text) :
    replaceAll whole new old = front ++ old ++ back := by
  have hfront : ¬ new.StartsIn front (new ++ back) := by
    rintro ⟨tail, hne, hs, hp⟩
    have hlonger : tail ++ (new ++ back) ≠ new ++ back := by simpa using hne
    obtain ⟨start, rfl⟩ := hs
    have hsuffix : tail ++ (new ++ back) <:+ whole := ⟨start, by simp [h.split]⟩
    exact (h.once _ hsuffix (by simp [hne]) hlonger).2 hp
  have hback : ¬ new <:+: back := by
    by_cases hempty : back = []
    · simp [hempty, h.new_ne]
    · exact h.back_misses.not_isInfix hempty
  rw [h.split, List.append_assoc, replaceAll_append_of_not_startsIn hfront,
    replaceAll_found h.new_ne, replaceAll_of_not_isInfix hback, List.append_assoc]

end JoinsInto

/-- The new text stands in `whole` in one place at most, and overlaps it nowhere else. -/
def MeetsOnce (new whole : Text) : Prop :=
  whole.Independent new ∨ ∃ front back, JoinsInto new whole front back

instance (new whole : Text) : Decidable (MeetsOnce new whole) :=
  decidable_of_iff
    (whole.Independent new ∨ ∃ back ∈ whole.tails,
      JoinsInto new whole (whole.take (whole.length - (new ++ back).length)) back)
    (or_congr_right ⟨fun ⟨back, _, h⟩ => ⟨_, back, h⟩, fun ⟨front, back, h⟩ => by
      refine ⟨back, (List.mem_tails _ _).2 (h.split ▸ List.suffix_append _ _), ?_⟩
      have hfront : whole.take (whole.length - (new ++ back).length) = front := by
        have hlength : whole.length - (new ++ back).length = front.length := by
          simp [h.split]
        rw [hlength, h.split, List.append_assoc, List.take_left]
      rwa [hfront]⟩)

/-- The text that the replacement turns into `part`, if the new text stands in there. -/
def sources (pair : Text × Text) (part : Text) : List Text :=
  if pair.2 <:+: part then [part.replaceAll pair.2 pair.1] else []

theorem sources_eq_nil {pair : Text × Text} {part : Text} (hne : part ≠ [])
    (h : part.Independent pair.2) : sources pair part = [] :=
  if_neg (h.1.not_isInfix hne)

theorem JoinsInto.mem_sources {new whole front back : Text} (h : JoinsInto new whole front back)
    (old : Text) : front ++ old ++ back ∈ sources (old, new) whole := by
  have hnew : new <:+: whole := ⟨front, back, h.split.symm⟩
  rw [sources, if_pos hnew, List.mem_singleton, h.replaceAll_eq]

namespace MeetsOnce

variable {new whole old : Text}

theorem prefix_of_replaceAll (h : MeetsOnce new whole) (hne : old ≠ []) {text : Text}
    (hp : whole <+: replaceAll text old new) :
    whole <+: text ∨ ∃ source ∈ sources (old, new) whole, source <+: text := by
  rcases h with h | ⟨front, back, h⟩
  · exact .inl (Text.prefix_of_replaceAll hne h.1 hp)
  · rcases h.prefix_of_replaceAll hne List.suffix_rfl hp with hp | ⟨rest, hwhole, hrest⟩
    · exact .inl hp
    · obtain rfl := h.front_eq hwhole
      exact .inr ⟨_, h.mem_sources old, hrest⟩

theorem exists_of_startsIn (h : MeetsOnce new whole) (hne : old ≠ []) {rest : Text}
    (hs : whole.StartsIn new (replaceAll rest old new)) :
    ∃ source ∈ sources (old, new) whole, source <+: old ++ rest := by
  rcases h with h | ⟨front, back, h⟩
  · exact absurd hs h.2.not_startsIn
  · exact ⟨_, h.mem_sources old, h.prefix_of_startsIn hne hs⟩

/-- A replacement makes an occurrence only from its source. -/
theorem infix_of_replaceAll (h : MeetsOnce new whole) (hne : old ≠ []) (hwhole : whole ≠ [])
    {text : Text} (hi : whole <:+: replaceAll text old new) :
    whole <:+: text ∨ ∃ source ∈ sources (old, new) whole, source <:+: text := by
  obtain ⟨tail, htail, ⟨-, hp⟩ | ⟨rest, rfl, hs⟩⟩ := exists_of_infix_replaceAll hne hwhole hi
  · rcases h.prefix_of_replaceAll hne hp with hp | ⟨source, hsource, hp⟩
    · exact .inl (hp.isInfix.trans htail.isInfix)
    · exact .inr ⟨source, hsource, hp.isInfix.trans htail.isInfix⟩
  · obtain ⟨source, hsource, hp⟩ := h.exists_of_startsIn hne hs
    exact .inr ⟨source, hsource, hp.isInfix.trans htail.isInfix⟩

end MeetsOnce

end SceneDowngrade.Text
