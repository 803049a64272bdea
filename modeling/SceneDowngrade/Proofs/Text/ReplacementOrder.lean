import Mathlib.Data.List.Nodup
import SceneDowngrade.Proofs.Text.Rejoining

/-!
# Replacements in another order

Two replacements meet where their old texts overlap, and where the new text of the one completes the
old text of the other. Elsewhere they act on different places and may change places. So a list of
replacements may be made in any order on a text where no two of them meet, if none of them makes a
place where two others do.
-/
namespace SceneDowngrade.Text

/-- The texts in which an occurrence of `part` runs into one of `other`. -/
def overlaps (part other : Text) : List Text :=
  (part.tails.filter fun tail => tail ≠ [] ∧ tail <+: other).map fun tail =>
    part ++ other.drop tail.length

theorem mem_overlaps {part tail more : Text} (hs : tail <:+ part) (hne : tail ≠ []) :
    part ++ more ∈ overlaps part (tail ++ more) := by
  refine List.mem_map.2 ⟨tail, ?_, by rw [List.drop_left]⟩
  exact List.mem_filter.2 ⟨(List.mem_tails _ _).2 hs, by simp [hne]⟩

theorem overlaps_eq_nil {part other : Text} (h : part.Misses other) : overlaps part other = [] := by
  rw [overlaps, List.map_eq_nil_iff, List.filter_eq_nil_iff]
  intro tail htail hboth
  have ⟨hne, hp⟩ : tail ≠ [] ∧ tail <+: other := by simpa using hboth
  exact (h tail ((List.mem_tails _ _).1 htail) hne).1 hp

/-- The texts in which two replacements meet. -/
def clashes (first second : Text × Text) : List Text :=
  overlaps first.1 second.1 ++ overlaps second.1 first.1 ++
    (sources first second.1 ++ sources second first.1)

theorem mem_clashes_of_mem_overlaps {first second : Text × Text} {clash : Text}
    (h : clash ∈ overlaps first.1 second.1) : clash ∈ clashes first second :=
  List.mem_append_left _ (List.mem_append_left _ h)

theorem mem_clashes_of_mem_sources {first second : Text × Text} {clash : Text}
    (h : clash ∈ sources first second.1) : clash ∈ clashes first second :=
  List.mem_append_right _ (List.mem_append_left _ h)

theorem mem_clashes_comm {first second : Text × Text} {clash : Text} :
    clash ∈ clashes first second ↔ clash ∈ clashes second first := by
  simp only [clashes, List.mem_append]
  exact or_congr or_comm or_comm

/-- The replacements meet nowhere in the text. -/
def NoClash (first second : Text × Text) (text : Text) : Prop :=
  ∀ clash ∈ clashes first second, ¬ clash <:+: text

namespace NoClash

variable {first second : Text × Text} {text : Text}

theorem symm (h : NoClash first second text) : NoClash second first text :=
  fun clash hclash => h clash (mem_clashes_comm.1 hclash)

theorem of_isSuffix {tail : Text} (h : NoClash first second text) (ht : tail <:+ text) :
    NoClash first second tail := fun clash hclash hi =>
  h clash hclash (hi.trans ht.isInfix)

end NoClash

/-- The first replacement reaches an occurrence that the second one is after only where they
meet. -/
structure MeetsInClashes (first second : Text × Text) : Prop where
  old_ne : first.1 ≠ []
  outside : ¬ second.1 <:+: first.1
  new : MeetsOnce first.2 second.1

instance (first second : Text × Text) : Decidable (MeetsInClashes first second) :=
  decidable_of_iff
    (first.1 ≠ [] ∧ ¬ second.1 <:+: first.1 ∧ MeetsOnce first.2 second.1)
    ⟨fun ⟨h₁, h₂, h₃⟩ => ⟨h₁, h₂, h₃⟩, fun ⟨h₁, h₂, h₃⟩ => ⟨h₁, h₂, h₃⟩⟩

namespace MeetsInClashes

variable {first second : Text × Text}

theorem not_startsIn_old (h : MeetsInClashes first second) {rest : Text}
    (hclear : NoClash first second (first.1 ++ rest)) : ¬ second.1.StartsIn first.1 rest := by
  rintro ⟨tail, hne, hs, hp⟩
  rcases List.prefix_or_prefix_of_prefix hp (List.prefix_append tail rest) with hp' | ⟨more, hmore⟩
  · exact h.outside (hp'.isInfix.trans hs.isInfix)
  · rw [← hmore, List.prefix_append_right_inj] at hp
    have hmem : first.1 ++ more ∈ overlaps first.1 second.1 := hmore ▸ mem_overlaps hs hne
    exact hclear _ (mem_clashes_of_mem_overlaps hmem)
      ((List.prefix_append_right_inj first.1).2 hp).isInfix

theorem not_startsIn_new (h : MeetsInClashes first second) {rest : Text}
    (hclear : NoClash first second (first.1 ++ rest)) :
    ¬ second.1.StartsIn first.2 (rest.replaceAll first.1 first.2) := by
  intro hs
  obtain ⟨source, hsource, hp⟩ := h.new.exists_of_startsIn h.old_ne hs
  exact hclear source (mem_clashes_of_mem_sources hsource) hp.isInfix

theorem prefix_of_replaceAll (h : MeetsInClashes first second) {text : Text}
    (hclear : NoClash first second text) (hp : second.1 <+: text.replaceAll first.1 first.2) :
    second.1 <+: text := by
  refine (h.new.prefix_of_replaceAll h.old_ne hp).resolve_right ?_
  rintro ⟨source, hsource, hp⟩
  exact hclear source (mem_clashes_of_mem_sources hsource) hp.isInfix

/-- An occurrence of the first old text gives way to its new one before the second replacement. -/
theorem replaceAll_found (h : MeetsInClashes first second) {rest : Text}
    (hclear : NoClash first second (first.1 ++ rest)) :
    ((first.1 ++ rest).replaceAll first.1 first.2).replaceAll second.1 second.2 =
      first.2 ++ (rest.replaceAll first.1 first.2).replaceAll second.1 second.2 := by
  rw [Text.replaceAll_found h.old_ne,
    replaceAll_append_of_not_startsIn (h.not_startsIn_new hclear)]

/-- An occurrence of the first old text gives way to its new one after the second replacement. -/
theorem replaceAll_kept (h : MeetsInClashes first second) {rest : Text}
    (hclear : NoClash first second (first.1 ++ rest)) :
    ((first.1 ++ rest).replaceAll second.1 second.2).replaceAll first.1 first.2 =
      first.2 ++ (rest.replaceAll second.1 second.2).replaceAll first.1 first.2 := by
  rw [replaceAll_append_of_not_startsIn (h.not_startsIn_old hclear),
    Text.replaceAll_found h.old_ne]

theorem replaceAll_pass (h : MeetsInClashes first second) {c : Char} {rest : Text}
    (hclear : NoClash first second (c :: rest)) (hfirst : ¬ first.1 <+: c :: rest)
    (hsecond : ¬ second.1 <+: c :: rest) :
    replaceAll (replaceAll (c :: rest) first.1 first.2) second.1 second.2 =
      c :: replaceAll (replaceAll rest first.1 first.2) second.1 second.2 := by
  have hstill : ¬ second.1 <+: c :: replaceAll rest first.1 first.2 := by
    rw [← Text.replaceAll_pass hfirst]
    exact fun hp => hsecond (h.prefix_of_replaceAll hclear hp)
  rw [Text.replaceAll_pass hfirst, Text.replaceAll_pass hstill]

end MeetsInClashes

theorem replaceAll_comm {first second : Text × Text} (hfirst : MeetsInClashes first second)
    (hsecond : MeetsInClashes second first) {text : Text} (hclear : NoClash first second text) :
    (text.replaceAll first.1 first.2).replaceAll second.1 second.2 =
      (text.replaceAll second.1 second.2).replaceAll first.1 first.2 := by
  -- by the length of the text, since an occurrence of either old text is passed as a whole
  induction hn : text.length using Nat.strong_induction_on generalizing text with
  | _ n ih =>
    subst hn
    have hshorter {old rest : Text} (hne : old ≠ []) : rest.length < (old ++ rest).length := by
      have := List.length_pos_iff.2 hne
      rw [List.length_append]
      omega
    cases text with
    | nil => simp
    | cons c rest =>
      by_cases hf : first.1 <+: c :: rest
      · obtain ⟨rest, htext⟩ := hf
        have hrest := hclear.of_isSuffix (htext ▸ List.suffix_append first.1 rest)
        rw [← htext] at hclear ⊢
        rw [hfirst.replaceAll_found hclear, hfirst.replaceAll_kept hclear,
          ih _ (htext ▸ hshorter hfirst.old_ne) hrest rfl]
      by_cases hs : second.1 <+: c :: rest
      · obtain ⟨rest, htext⟩ := hs
        have hrest := hclear.of_isSuffix (htext ▸ List.suffix_append second.1 rest)
        rw [← htext] at hclear ⊢
        rw [hsecond.replaceAll_found hclear.symm, hsecond.replaceAll_kept hclear.symm,
          ih _ (htext ▸ hshorter hsecond.old_ne) hrest rfl]
      have hrest := hclear.of_isSuffix (List.suffix_cons c rest)
      rw [hfirst.replaceAll_pass hclear hf hs, hsecond.replaceAll_pass hclear.symm hs hf,
        ih _ (by simp) hrest rfl]

/-- Neither replacement touches, makes or breaks an occurrence that the other one is after. -/
structure Apart (first second : Text × Text) : Prop where
  first_ne : first.1 ≠ []
  second_ne : second.1 ≠ []
  olds : first.1.Independent second.1
  first_new : first.1.Independent second.2
  second_new : second.1.Independent first.2

namespace Apart

variable {first second : Text × Text}

theorem symm (h : Apart first second) : Apart second first :=
  ⟨h.second_ne, h.first_ne, h.olds.symm, h.second_new, h.first_new⟩

theorem meetsInClashes (h : Apart first second) : MeetsInClashes first second :=
  ⟨h.first_ne, h.olds.1.not_isInfix h.first_ne, .inl h.second_new⟩

/-- Replacements that are apart meet in no text. -/
theorem noClash (h : Apart first second) (text : Text) : NoClash first second text := by
  have hnone : clashes first second = [] := by
    rw [clashes, overlaps_eq_nil h.olds.1, overlaps_eq_nil h.olds.2,
      sources_eq_nil h.second_ne h.second_new, sources_eq_nil h.first_ne h.first_new]
    rfl
  intro clash hclash
  rw [hnone] at hclash
  exact absurd hclash List.not_mem_nil

theorem replaceAll_comm (h : Apart first second) (text : Text) :
    (text.replaceAll first.1 first.2).replaceAll second.1 second.2 =
      (text.replaceAll second.1 second.2).replaceAll first.1 first.2 :=
  Text.replaceAll_comm h.meetsInClashes h.symm.meetsInClashes (h.noClash text)

end Apart

theorem replaceEach_perm {pairs order : List (Text × Text)}
    (h : ∀ first ∈ pairs, ∀ second ∈ pairs, first ≠ second → Apart first second)
    (hperm : order.Perm pairs) (text : Text) : text.replaceEach order = text.replaceEach pairs := by
  refine (hperm.symm.foldl_eq' (fun first hfirst second hsecond text => ?_) text).symm
  by_cases hne : first = second
  · rw [hne]
  · exact (h first hfirst second hsecond hne).replaceAll_comm text

/-- Any two of the replacements interfere only where they meet, and no other one makes such a place,
unless from a text in which it meets one of the two itself. -/
structure Interchangeable (pairs : List (Text × Text)) : Prop where
  meets : ∀ first ∈ pairs, ∀ second ∈ pairs, first ≠ second → MeetsInClashes first second
  kept : ∀ first ∈ pairs, ∀ second ∈ pairs, first ≠ second →
    ∀ third ∈ pairs, third ≠ first → third ≠ second → ∀ clash ∈ clashes first second,
      MeetsOnce third.2 clash ∧ ∀ source ∈ sources third clash,
        ∃ other ∈ clashes third first ++ clashes third second, other <:+: source

/-- No two of the replacements meet in the text. -/
def NoClashes (pairs : List (Text × Text)) (text : Text) : Prop :=
  ∀ first ∈ pairs, ∀ second ∈ pairs, first ≠ second → NoClash first second text

namespace Interchangeable

variable {pairs : List (Text × Text)} {text : Text}

/-- A replacement keeps two others apart, if it meets neither of them. -/
theorem noClash_replaceAll (h : Interchangeable pairs) {first second third : Text × Text}
    (hfirst : first ∈ pairs) (hsecond : second ∈ pairs) (hne : first ≠ second)
    (hthird : third ∈ pairs) (hnef : third ≠ first) (hnes : third ≠ second)
    (hclear : NoClash first second text) (hthere : NoClash third first text)
    (hback : NoClash third second text) :
    NoClash first second (text.replaceAll third.1 third.2) := by
  intro clash hclash hi
  have hempty : clash ≠ [] := fun he => hclear clash hclash (he ▸ List.nil_infix)
  obtain ⟨honce, hsources⟩ := h.kept first hfirst second hsecond hne third hthird hnef hnes clash
    hclash
  have hold := (h.meets third hthird first hfirst hnef).old_ne
  rcases honce.infix_of_replaceAll hold hempty hi with hi | ⟨source, hsource, hi⟩
  · exact hclear clash hclash hi
  · obtain ⟨other, hother, hinside⟩ := hsources source hsource
    rcases List.mem_append.1 hother with hother | hother
    · exact hthere other hother (hinside.trans hi)
    · exact hback other hother (hinside.trans hi)

theorem noClashes_replaceAll (h : Interchangeable pairs) {third : Text × Text}
    {rest : List (Text × Text)} (hpairs : third :: rest ⊆ pairs) (honce : third ∉ rest)
    (hclear : NoClashes (third :: rest) text) :
    NoClashes rest (text.replaceAll third.1 third.2) := by
  intro first hfirst second hsecond hne
  have hnef : third ≠ first := fun he => honce (he ▸ hfirst)
  have hnes : third ≠ second := fun he => honce (he ▸ hsecond)
  have hf := List.mem_cons_of_mem third hfirst
  have hs := List.mem_cons_of_mem third hsecond
  have ht : third ∈ third :: rest := List.mem_cons_self
  exact h.noClash_replaceAll (hpairs hf) (hpairs hs) hne (hpairs ht) hnef hnes
    (hclear first hf second hs hne) (hclear third ht first hf hnef) (hclear third ht second hs hnes)

/-- On a text where no two of them meet, the replacements may be made in any order. -/
theorem replaceEach_perm (h : Interchangeable pairs) {order other : List (Text × Text)}
    (hperm : order.Perm other) (hpairs : other ⊆ pairs) (honce : other.Nodup)
    (hclear : NoClashes other text) : text.replaceEach order = text.replaceEach other := by
  induction hperm generalizing text with
  | nil => rfl
  | cons third hperm ih =>
    obtain ⟨hthird, hrest⟩ := List.nodup_cons.1 honce
    rw [replaceEach_cons, replaceEach_cons]
    exact ih (List.subset_of_cons_subset hpairs) hrest (h.noClashes_replaceAll hpairs hthird hclear)
  | swap first second rest =>
    have hne : first ≠ second := by
      rintro rfl
      simp at honce
    have hf : first ∈ first :: second :: rest := by simp
    have hs : second ∈ first :: second :: rest := by simp
    have hthere := h.meets first (hpairs hf) second (hpairs hs) hne
    have hback := h.meets second (hpairs hs) first (hpairs hf) hne.symm
    simp only [replaceEach_cons, replaceAll_comm hthere hback (hclear first hf second hs hne)]
  | trans hfirst hsecond ihfirst ihsecond =>
    have hmem := fun pair => hsecond.mem_iff (a := pair)
    rw [ihfirst (fun pair hpair => hpairs ((hmem pair).1 hpair)) (hsecond.nodup_iff.2 honce)
      fun first hf second hs => hclear first ((hmem first).1 hf) second ((hmem second).1 hs),
      ihsecond hpairs honce hclear]

end Interchangeable

end SceneDowngrade.Text
