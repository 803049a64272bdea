import Mathlib.Data.List.DropRight
import SceneDowngrade.Text.Basic

/-!
# Trimming

A text is its trimmed core between two runs of blank characters, and the core neither begins nor
ends with one. These two facts together say what the core is.
-/
namespace SceneDowngrade.Text

def Blank (text : Text) : Prop := ∀ c ∈ text, isBlank c = true

def Trimmed (text : Text) : Prop :=
  (∀ c ∈ text.head?, isBlank c = false) ∧ ∀ c ∈ text.getLast?, isBlank c = false

theorem trim_eq (text : Text) : text.trim = (text.dropWhile isBlank).rdropWhile isBlank := rfl

theorem trim_surrounded (text : Text) :
    ∃ front back, Blank front ∧ Blank back ∧ text = front ++ text.trim ++ back := by
  refine ⟨text.takeWhile isBlank, (text.dropWhile isBlank).rtakeWhile isBlank,
    fun _ => List.mem_takeWhile_imp, fun _ => List.mem_rtakeWhile_imp, ?_⟩
  rw [trim_eq, List.append_assoc, List.rdropWhile_append_rtakeWhile,
    List.takeWhile_append_dropWhile]

theorem trimmed_trim (text : Text) : text.trim.Trimmed := by
  rw [trim_eq]
  constructor
  · intro c hc
    obtain ⟨rest, hrest⟩ := List.rdropWhile_prefix isBlank (text.dropWhile isBlank)
    have hhead : (text.dropWhile isBlank).head? = some c := by
      rw [← hrest, List.head?_append, Option.mem_def.1 hc, Option.some_or]
    have h := List.head?_dropWhile_not isBlank text
    rw [hhead] at h
    exact h
  · intro c hc
    obtain ⟨hne, rfl⟩ := List.mem_getLast?_eq_getLast hc
    exact Bool.eq_false_iff.2 (List.rdropWhile_last_not isBlank _ hne)

theorem blank_of_trim_eq_nil {text : Text} (h : text.trim = []) : text.Blank := by
  obtain ⟨front, back, hf, hb, he⟩ := text.trim_surrounded
  rw [h, List.append_nil] at he
  intro c hc
  rw [he, List.mem_append] at hc
  exact hc.elim (hf c) (hb c)

theorem Trimmed.rdropWhile {text : Text} (h : text.Trimmed) : text.rdropWhile isBlank = text := by
  refine List.rdropWhile_eq_self_iff.2 fun hne => ?_
  simp [h.2 _ (List.getLast_mem_getLast? hne)]

theorem rdropWhile_append_blank {core back : Text} (hb : back.Blank) :
    (core ++ back).rdropWhile isBlank = core.rdropWhile isBlank := by
  have hback : ∀ c ∈ back.reverse, isBlank c = true := fun c hc => hb c (List.mem_reverse.1 hc)
  rw [List.rdropWhile, List.reverse_append, List.dropWhile_append_of_pos hback, List.rdropWhile]

theorem trim_surround {front core back : Text} (hf : front.Blank) (hb : back.Blank)
    (hc : core.Trimmed) : Text.trim (front ++ core ++ back) = core := by
  rw [trim_eq, List.append_assoc, List.dropWhile_append_of_pos hf]
  cases core with
  | nil =>
    rw [List.nil_append, List.dropWhile_eq_nil_iff.2 hb]
    rfl
  | cons c rest =>
    rw [List.cons_append, List.dropWhile_cons_of_neg (by simp [hc.1 c rfl]), ← List.cons_append,
      rdropWhile_append_blank hb, hc.rdropWhile]

theorem blank_nil : Blank [] := by simp [Blank]

theorem trimmed_nil : Trimmed [] := by simp [Trimmed]

theorem trim_of_trimmed {text : Text} (h : text.Trimmed) : text.trim = text := by
  simpa using trim_surround blank_nil blank_nil h

theorem trim_eq_self_iff {text : Text} : text.trim = text ↔ text.Trimmed :=
  ⟨fun h => h ▸ text.trimmed_trim, trim_of_trimmed⟩

instance (text : Text) : Decidable text.Trimmed := decidable_of_iff _ trim_eq_self_iff

@[simp] theorem trim_trim (text : Text) : text.trim.trim = text.trim :=
  trim_of_trimmed text.trimmed_trim

theorem trim_of_blank {text : Text} (h : text.Blank) : text.trim = [] := by
  have hsurround : Text.trim (text ++ [] ++ []) = [] := trim_surround h blank_nil trimmed_nil
  simpa using hsurround

/-- No occurrence begins in blank characters, if the part begins with another one. -/
theorem infix_of_infix_blank_append {part front rest : Text} (hne : part ≠ [])
    (hhead : ∀ c ∈ part.head?, isBlank c = false) (hf : front.Blank)
    (h : part <:+: front ++ rest) : part <:+: rest := by
  induction front with
  | nil => exact h
  | cons c front ih =>
    obtain ⟨hc, hfront⟩ := List.forall_mem_cons.1 hf
    rcases List.infix_cons_iff.1 h with hp | hi
    · obtain ⟨d, tail, rfl⟩ := List.exists_cons_of_ne_nil hne
      obtain ⟨rfl, -⟩ := List.cons_prefix_cons.1 hp
      simp [hhead d rfl] at hc
    · exact ih hfront hi

/-- What neither begins nor ends with a blank character is found in the core if it is found. -/
theorem infix_trim_iff {part : Text} (hne : part ≠ []) (h : part.Trimmed) (text : Text) :
    part <:+: text.trim ↔ part <:+: text := by
  obtain ⟨front, back, hf, hb, he⟩ := text.trim_surrounded
  constructor
  · intro hi
    rw [he, List.append_assoc]
    exact (hi.trans (List.prefix_append _ _).isInfix).trans (List.suffix_append _ _).isInfix
  · intro hi
    rw [he, List.append_assoc] at hi
    have hi := infix_of_infix_blank_append hne h.1 hf hi
    -- seen from its end, the text begins with the blank characters behind the core
    rw [← List.reverse_infix, List.reverse_append] at hi
    have hback : Blank back.reverse := fun c hc => hb c (List.mem_reverse.1 hc)
    have hlast : ∀ c ∈ part.reverse.head?, isBlank c = false := by
      rw [List.head?_reverse]
      exact h.2
    have hi := infix_of_infix_blank_append (by simpa using hne) hlast hback hi
    exact List.reverse_infix.1 hi

end SceneDowngrade.Text
