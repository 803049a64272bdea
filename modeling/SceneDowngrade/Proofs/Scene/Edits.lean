import SceneDowngrade.Proofs.Scene.AnchorRules
import SceneDowngrade.Proofs.Scene.References

/-!
# Edits around references

The renames and the expansions of presets know nothing of references. They neither make nor break
the frame of one, and at most they edit the id inside.
-/
namespace SceneDowngrade.Scene

open Text

/-- An edit that cannot touch the frame of a reference or a numeral. -/
structure SafeEdit (old new : Text) : Prop where
  new_ne : new ≠ []
  bare : Bare old ∧ Bare new
  name : referenceName.Independent old ∧ referenceName.Independent new
  letter : ∃ c ∈ old, c ≠ ' ' ∧ c.isDigit = false

instance (old new : Text) : Decidable (SafeEdit old new) :=
  decidable_of_iff
    (new ≠ [] ∧ (Bare old ∧ Bare new) ∧
      (referenceName.Independent old ∧ referenceName.Independent new) ∧
      ∃ c ∈ old, c ≠ ' ' ∧ c.isDigit = false)
    ⟨fun ⟨h₁, h₂, h₃, h₄⟩ => ⟨h₁, h₂, h₃, h₄⟩, fun ⟨h₁, h₂, h₃, h₄⟩ => ⟨h₁, h₂, h₃, h₄⟩⟩

namespace SafeEdit

variable {old new : Text}

theorem old_ne (h : SafeEdit old new) : old ≠ [] := by
  obtain ⟨c, hc, -⟩ := h.letter
  exact List.ne_nil_of_mem hc

theorem bare_replaceAll_iff (h : SafeEdit old new) (text : Text) :
    Bare (text.replaceAll old new) ↔ Bare text := by
  have ⟨⟨hq, ho, hc⟩, hq', ho', hc'⟩ := h.bare
  simp only [Bare, mem_replaceAll_iff h.old_ne hq hq', mem_replaceAll_iff h.old_ne ho ho',
    mem_replaceAll_iff h.old_ne hc hc']

/-- What stands before the opening parenthesis of a reference keeps the name at its end. -/
theorem replaceAll_append_name (h : SafeEdit old new) (front : Text) :
    replaceAll (front ++ referenceName) old new = replaceAll front old new ++ referenceName := by
  have hsplit : replaceAll (front ++ referenceName ++ []) old new =
      replaceAll front old new ++ referenceName ++ replaceAll [] old new :=
    h.name.1.symm.replaceAll_append h.old_ne front []
  simpa using hsplit

/-- An edit acts on the three parts of a text with a reference in it. -/
theorem replaceAll_append_frame (h : SafeEdit old new) (front id back : Text) :
    replaceAll (front ++ reference id ++ back) old new =
      replaceAll front old new ++ reference (replaceAll id old new) ++ replaceAll back old new := by
  have ⟨hq, ho, hc⟩ := h.bare.1
  have hsplit : front ++ reference id ++ back =
      (front ++ referenceName) ++ '(' :: ([] ++ '"' :: (id ++ '"' :: ([] ++ ')' :: back))) := by
    simp [reference_eq]
  rw [hsplit, replaceAll_cons_of_notMem h.old_ne ho, replaceAll_cons_of_notMem h.old_ne hq,
    replaceAll_cons_of_notMem h.old_ne hq, replaceAll_cons_of_notMem h.old_ne hc,
    h.replaceAll_append_name]
  simp [reference_eq]

theorem replaceAll_append_numbered (h : SafeEdit old new) (number : Nat) (front back : Text) :
    replaceAll (front ++ numberedReference number ++ back) old new =
      replaceAll front old new ++ numberedReference number ++ replaceAll back old new := by
  have ⟨hq, ho, hc⟩ := h.bare.1
  have hsplit : front ++ numberedReference number ++ back =
      (front ++ referenceName) ++ '(' :: ((' ' :: (numeral number ++ [' '])) ++ ')' :: back) := by
    simp [numberedReference_eq]
  have hkept : replaceAll (' ' :: (numeral number ++ [' '])) old new =
      ' ' :: (numeral number ++ [' ']) := by
    obtain ⟨c, hmem, hspace, hdigit⟩ := h.letter
    exact replaceAll_of_notMem hmem (by simp [hspace, notMem_numeral hdigit])
  rw [hsplit, replaceAll_cons_of_notMem h.old_ne ho, replaceAll_cons_of_notMem h.old_ne hc,
    h.replaceAll_append_name, hkept]
  simp [numberedReference_eq]

theorem infix_replaceAll_iff (h : SafeEdit old new) (id text : Text) :
    reference id <:+: replaceAll text old new ↔
      ∃ other, reference other <:+: text ∧ replaceAll other old new = id := by
  have ⟨⟨hq, ho, hc⟩, hq', ho', hc'⟩ := h.bare
  constructor
  · rintro ⟨front, back, he⟩
    -- the four characters of the frame are traced back one after another
    have hname : replaceAll text old new =
        (front ++ referenceName) ++ '(' :: '"' :: (id ++ '"' :: ')' :: back) := by
      rw [← he, reference_eq]
      simp
    obtain ⟨before, inner, rfl, hbefore, hinner⟩ :=
      exists_of_replaceAll_eq_append_cons h.old_ne ho ho' hname
    obtain ⟨quoted, rfl, hquoted⟩ :=
      exists_of_replaceAll_eq_cons h.old_ne h.new_ne hq hq' hinner
    obtain ⟨other, closing, rfl, hother, hclosing⟩ :=
      exists_of_replaceAll_eq_append_cons h.old_ne hq hq' hquoted
    obtain ⟨after, rfl, -⟩ := exists_of_replaceAll_eq_cons h.old_ne h.new_ne hc hc' hclosing
    obtain ⟨start, rfl⟩ := suffix_of_replaceAll h.old_ne h.name.1 h.name.2
      ⟨front, hbefore.symm⟩
    exact ⟨other, ⟨start, after, by simp [reference_eq]⟩, hother⟩
  · rintro ⟨other, ⟨front, back, rfl⟩, rfl⟩
    rw [h.replaceAll_append_frame]
    exact ⟨_, _, rfl⟩

end SafeEdit

def SafeEdits (pairs : List (Text × Text)) : Prop := ∀ pair ∈ pairs, SafeEdit pair.1 pair.2

namespace SafeEdits

variable {pairs : List (Text × Text)}

theorem bare_replaceEach_iff (h : SafeEdits pairs) (text : Text) :
    Bare (text.replaceEach pairs) ↔ Bare text := by
  induction pairs generalizing text with
  | nil => rfl
  | cons pair pairs ih =>
    obtain ⟨hpair, hpairs⟩ := List.forall_mem_cons.1 h
    rw [replaceEach_cons, ih hpairs, hpair.bare_replaceAll_iff]

theorem replaceEach_append_numbered (h : SafeEdits pairs) (number : Nat) (front back : Text) :
    replaceEach (front ++ numberedReference number ++ back) pairs =
      replaceEach front pairs ++ numberedReference number ++ replaceEach back pairs := by
  induction pairs generalizing front back with
  | nil => rfl
  | cons pair pairs ih =>
    obtain ⟨hpair, hpairs⟩ := List.forall_mem_cons.1 h
    rw [replaceEach_cons, hpair.replaceAll_append_numbered, ih hpairs, replaceEach_cons,
      replaceEach_cons]

theorem replaceEach_append_reference (h : SafeEdits pairs) (front id back : Text) :
    replaceEach (front ++ reference id ++ back) pairs =
      replaceEach front pairs ++ reference (replaceEach id pairs) ++ replaceEach back pairs := by
  induction pairs generalizing front id back with
  | nil => rfl
  | cons pair pairs ih =>
    obtain ⟨hpair, hpairs⟩ := List.forall_mem_cons.1 h
    rw [replaceEach_cons, hpair.replaceAll_append_frame, ih hpairs, replaceEach_cons,
      replaceEach_cons, replaceEach_cons]

theorem infix_replaceEach_iff (h : SafeEdits pairs) (id text : Text) :
    reference id <:+: replaceEach text pairs ↔
      ∃ other, reference other <:+: text ∧ replaceEach other pairs = id := by
  induction pairs generalizing text with
  | nil => simp
  | cons pair pairs ih =>
    obtain ⟨hpair, hpairs⟩ := List.forall_mem_cons.1 h
    simp only [replaceEach_cons, ih hpairs, hpair.infix_replaceAll_iff]
    constructor
    · rintro ⟨_, ⟨other, ho, rfl⟩, he⟩
      exact ⟨other, ho, he⟩
    · rintro ⟨other, ho, he⟩
      exact ⟨_, ⟨other, ho, rfl⟩, he⟩

end SafeEdits

theorem safeEdits_tokenRenames : SafeEdits tokenRenames := by
  unfold SafeEdits
  decide +kernel

theorem AnchorRule.safeEdits : ∀ rule ∈ anchorRules,
    SafeEdits rule.renames ∧ SafeEdit rule.token rule.expansion := by
  unfold SafeEdits
  decide +kernel

end SceneDowngrade.Scene
