import SceneDowngrade.Proofs.Scene.LineKinds
import SceneDowngrade.Proofs.Text.Lines

/-!
# Line breaks and first characters

Only the expansion of a preset writes line breaks, and each of them stands before the name of an
anchor. All that any edit writes begins with a character that can be seen, so no line is emptied and
none begins with a blank.
-/
namespace SceneDowngrade.Scene

open Text

/-- The text begins with a character that is not blank. -/
def Visible (text : Text) : Prop := ∃ c ∈ text.head?, isBlank c = false

instance (text : Text) : Decidable (Visible text) :=
  decidable_of_iff (text.head?.any fun c => !isBlank c) (by simp [Visible, Option.any_eq_true])

namespace Visible

variable {text : Text}

theorem not_blank (h : Visible text) : ¬ Blank text := by
  obtain ⟨c, hc, hblank⟩ := h
  intro hall
  simp [hall c (List.mem_of_head? hc)] at hblank

theorem ne_nil (h : Visible text) : text ≠ [] := by
  rintro rfl
  obtain ⟨c, hc, -⟩ := h
  cases hc

theorem append (h : Visible text) (back : Text) : Visible (text ++ back) := by
  obtain ⟨c, hc, hblank⟩ := h
  exact ⟨c, by simp [List.head?_append, Option.mem_def.1 hc], hblank⟩

theorem of_isPrefix {part : Text} (h : Visible part) (hp : part <+: text) : Visible text := by
  obtain ⟨back, rfl⟩ := hp
  exact h.append back

theorem of_trim (h : Trimmed text) (hne : text ≠ []) : Visible text := by
  obtain ⟨c, rest, rfl⟩ := List.exists_cons_of_ne_nil hne
  exact ⟨c, rfl, h.1 c rfl⟩

theorem replaceAll (h : Visible text) {old new : Text} (hne : old ≠ []) (hnew : Visible new) :
    Visible (text.replaceAll old new) := by
  by_cases hp : old <+: text
  · obtain ⟨rest, rfl⟩ := hp
    rw [replaceAll_found hne]
    exact hnew.append _
  · obtain ⟨c, rest, rfl⟩ := List.exists_cons_of_ne_nil h.ne_nil
    rw [replaceAll_pass hp]
    exact h

theorem replaceEach (h : Visible text) {pairs : List (Text × Text)}
    (hpairs : ∀ pair ∈ pairs, pair.1 ≠ [] ∧ Visible pair.2) : Visible (text.replaceEach pairs) := by
  induction pairs generalizing text with
  | nil => exact h
  | cons pair pairs ih =>
    obtain ⟨⟨hne, hnew⟩, hrest⟩ := List.forall_mem_cons.1 hpairs
    exact ih (h.replaceAll hne hnew) hrest

end Visible

def anchorName : Text := "anchor_".toList

/-- Every newline in the text stands before the name of an anchor. -/
def BreaksAtAnchors (text : Text) : Prop := ∀ back, '\n' :: back <:+ text → anchorName <+: back

namespace BreaksAtAnchors

variable {text : Text}

theorem of_notMem (h : '\n' ∉ text) : BreaksAtAnchors text := fun _ hs =>
  absurd (hs.mem (List.mem_cons_self ..)) h

theorem of_isSuffix (h : BreaksAtAnchors text) {back : Text} (hs : back <:+ text) :
    BreaksAtAnchors back := fun more hmore => h more (hmore.trans hs)

theorem append {back : Text} (h : BreaksAtAnchors text) (hback : BreaksAtAnchors back) :
    BreaksAtAnchors (text ++ back) := by
  intro more hmore
  rcases suffix_append_cases hmore with hs | ⟨tail, hne, hs, he⟩
  · exact hback more hs
  · obtain ⟨c, tail, rfl⟩ := List.exists_cons_of_ne_nil hne
    obtain ⟨rfl, rfl⟩ := List.cons_eq_cons.1 he
    exact (h tail hs).trans (List.prefix_append _ _)

theorem replaceAll (h : BreaksAtAnchors text) {old new : Text} (hne : old ≠ [])
    (hold : anchorName.Misses old) (hnew : BreaksAtAnchors new) :
    BreaksAtAnchors (text.replaceAll old new) := by
  induction text using replacement_induction hne with
  | nil => simpa using h
  | found rest ih =>
    rw [replaceAll_found hne]
    exact hnew.append (ih (h.of_isSuffix (List.suffix_append _ _)))
  | pass c rest hpass ih =>
    have hrest := ih (h.of_isSuffix (List.suffix_cons c rest))
    rw [replaceAll_pass hpass]
    intro back hback
    rcases List.suffix_cons_iff.1 hback with he | hs
    · -- the name behind the break is kept, since the old text has no part in it
      obtain ⟨rfl, rfl⟩ := List.cons_eq_cons.1 he
      exact prefix_replaceAll hne hold (h rest List.suffix_rfl)
    · exact hrest back hs

/-- The lines of the text, the first of which begins as the text does. -/
theorem exists_splitOn (h : BreaksAtAnchors text) :
    ∃ first more, text.splitOn '\n' = first :: more ∧
      (∀ part : Text, '\n' ∉ part → (part <+: first ↔ part <+: text)) ∧
      ∀ line ∈ more, anchorName <+: line := by
  induction text with
  | nil => exact ⟨[], [], rfl, by simp, by simp⟩
  | cons c rest ih =>
    obtain ⟨first, more, hsplit, hfirst, hmore⟩ := ih (h.of_isSuffix (List.suffix_cons c rest))
    by_cases hc : c = '\n'
    · subst hc
      refine ⟨[], rest.splitOn '\n', splitOn_cons_newline rest, ?_, ?_⟩
      · intro part hpart
        cases part with
        | nil => simp
        | cons d part =>
          have hd : d ≠ '\n' := fun he => hpart (by simp [he])
          simp [List.cons_prefix_cons, hd]
      · have hanchor := (hfirst anchorName (by decide)).2 (h rest List.suffix_rfl)
        rw [hsplit]
        exact List.forall_mem_cons.2 ⟨hanchor, hmore⟩
    · obtain ⟨other, others, hother, hcons⟩ := exists_splitOn_cons hc rest
      obtain ⟨rfl, rfl⟩ := List.cons_eq_cons.1 (hother.symm.trans hsplit)
      refine ⟨c :: other, others, hcons, ?_, hmore⟩
      intro part hpart
      cases part with
      | nil => simp
      | cons d part =>
        rw [List.mem_cons, not_or] at hpart
        rw [List.cons_prefix_cons, List.cons_prefix_cons, hfirst part hpart.2]

end BreaksAtAnchors

/-- The two characters that end a line. -/
def terminators : List Char := ['\n', '\r']

/-- What the rules write begins with a visible character, and only expansions have line breaks. -/
theorem AnchorRule.visible : ∀ rule ∈ anchorRules,
    (rule.token ≠ [] ∧ Visible rule.expansion ∧ '\r' ∉ rule.expansion) ∧
      ∀ pair ∈ rule.renames,
        pair.1 ≠ [] ∧ Visible pair.2 ∧ ∀ c ∈ terminators, c ∉ pair.2 := by
  decide +kernel

theorem AnchorRule.breaksAtAnchors {rule : AnchorRule} (h : rule ∈ anchorRules) :
    anchorName.Misses rule.token ∧ BreaksAtAnchors rule.expansion := by
  have hall : ∀ rule ∈ anchorRules, anchorName.Misses rule.token ∧
      ∀ tail ∈ rule.expansion.tails, tail.head? = some '\n' → anchorName <+: tail.tail := by
    decide +kernel
  obtain ⟨hmisses, htails⟩ := hall rule h
  exact ⟨hmisses, fun back hs => htails _ ((List.mem_tails _ _).2 hs) rfl⟩

theorem visible_tokenRenames : ∀ pair ∈ tokenRenames,
    pair.1 ≠ [] ∧ Visible pair.2 ∧ ∀ c ∈ terminators, c ∉ pair.2 := by
  decide +kernel

section
variable {rules : List AnchorRule} {text : Text}

theorem Visible.expand (h : Visible text) (hrules : rules ⊆ anchorRules) :
    Visible (text.replaceEach (rules.map (·.expansionPair))) := by
  refine h.replaceEach fun pair hpair => ?_
  obtain ⟨rule, hrule, rfl⟩ := List.mem_map.1 hpair
  obtain ⟨hne, hvisible, -⟩ := (AnchorRule.visible rule (hrules hrule)).1
  exact ⟨hne, hvisible⟩

theorem return_notMem_expand (h : '\r' ∉ text) (hrules : rules ⊆ anchorRules) :
    '\r' ∉ text.replaceEach (rules.map (·.expansionPair)) := by
  refine notMem_replaceEach (fun pair hpair => ?_) h
  obtain ⟨rule, hrule, rfl⟩ := List.mem_map.1 hpair
  obtain ⟨hne, -, hreturn⟩ := (AnchorRule.visible rule (hrules hrule)).1
  exact ⟨hne, hreturn⟩

theorem BreaksAtAnchors.expand (h : BreaksAtAnchors text) (hrules : rules ⊆ anchorRules) :
    BreaksAtAnchors (text.replaceEach (rules.map (·.expansionPair))) := by
  induction rules generalizing text with
  | nil => exact h
  | cons rule rules ih =>
    obtain ⟨hrule, hrest⟩ := List.cons_subset.1 hrules
    obtain ⟨hmisses, hbreaks⟩ := AnchorRule.breaksAtAnchors hrule
    exact ih (h.replaceAll (AnchorRule.visible rule hrule).1.1 hmisses hbreaks) hrest

end

section
variable {c : Char} {line : Text}

theorem notMem_trim (h : c ∉ line) : c ∉ line.trim := by
  obtain ⟨front, back, -, -, he⟩ := line.trim_surrounded
  intro hm
  rw [he] at h
  simp [hm] at h

theorem terminator_notMem_numeral (hc : c ∈ terminators) (number : Nat) : c ∉ numeral number := by
  have hdigit : ∀ c ∈ terminators, c.isDigit = false := by decide
  exact notMem_numeral (hdigit c hc) number

theorem terminator_notMem_numberedReference (hc : c ∈ terminators) (number : Nat) :
    c ∉ numberedReference number := by
  have hframe : ∀ c ∈ terminators, c ∉ "ExtResource( ".toList ∧ c ∉ " )".toList := by decide
  obtain ⟨hopening, hclosing⟩ := hframe c hc
  unfold numberedReference
  rw [List.mem_append, List.mem_append, not_or, not_or]
  exact ⟨⟨hopening, terminator_notMem_numeral hc number⟩, hclosing⟩

theorem terminator_notMem_removeUid (h : c ∉ line) : c ∉ uidAttribute.removeFrom line := by
  rw [QuotedSpan.removeFrom_eq]
  exact QuotedSpan.notMem_substitute uidAttribute_delimited (by simp) h

theorem terminator_notMem_downgradeHeader (hc : c ∈ terminators) (h : c ∉ line) :
    c ∉ downgradeHeader line := by
  have hformat : ∀ c ∈ terminators, c ∉ oldFormat := by decide
  exact terminator_notMem_removeUid
    (notMem_replaceAll (by decide) (hformat c hc) (notMem_trim h))

theorem terminator_notMem_declare (hc : c ∈ terminators) (h : c ∉ line) (table : ResourceTable) :
    c ∉ (table.declare line).line := by
  have htexture : ∀ c ∈ terminators, c ∉ "Texture".toList := by decide
  have hplain : c ∉ plainDeclaration line :=
    terminator_notMem_removeUid (notMem_replaceAll (by decide) (htexture c hc) h)
  rw [ResourceTable.declare]
  cases declaredId? (plainDeclaration line) with
  | none => exact hplain
  | some id =>
    have hname : ∀ c ∈ terminators, c ∉ " id=".toList := by decide
    refine notMem_replaceAll (idAttribute_delimited.around_ne_nil id) ?_ hplain
    rw [numberAttribute, List.mem_append, not_or]
    exact ⟨hname c hc, terminator_notMem_numeral hc _⟩

end

namespace Draft

variable {raw : Text} (table : ResourceTable) (above : Text)

theorem terminator_notMem_text {c : Char} (hc : c ∈ terminators) (h : c ∉ raw) :
    c ∉ (ofLine table above raw).text := by
  have hline := notMem_trim h
  rw [ofLine]
  split
  · exact terminator_notMem_declare hc hline table
  · exact hline
  · have hnumbered : c ∉ numberReferences table raw.trim := by
      refine notMem_replaceEach (fun pair hpair => ?_) hline
      obtain ⟨entry, -, rfl⟩ := List.mem_map.1 hpair
      exact ⟨reference_ne_nil entry.1, terminator_notMem_numberedReference hc entry.2⟩
    refine notMem_replaceEach (fun pair hpair => ?_) hnumbered
    obtain ⟨hne, -, hclean⟩ := visible_tokenRenames pair hpair
    exact ⟨hne, hclean c hc⟩
  · exact List.not_mem_nil

theorem terminator_notMem_renamed {c : Char} (hc : c ∈ terminators) (h : c ∉ raw) :
    c ∉ (ofLine table above raw).renamed := by
  refine notMem_replaceEach (fun pair hpair => ?_) (terminator_notMem_text table above hc h)
  obtain ⟨rule, hrule, hpair⟩ := List.mem_flatMap.1 hpair
  obtain ⟨hne, -, hclean⟩ := (AnchorRule.visible rule (rules_subset _ hrule)).2 pair hpair
  exact ⟨hne, hclean c hc⟩

theorem visible_text (hkind : LineKind.ofTrimmed raw.trim ≠ .blank) :
    Visible (ofLine table above raw).text := by
  have hne : raw.trim ≠ [] := fun he => hkind (by rw [he]; rfl)
  have hline : Visible raw.trim := .of_trim raw.trimmed_trim hne
  rw [ofLine]
  cases hk : LineKind.ofTrimmed raw.trim with
  | extResource =>
    have hmarker : Visible extResourceMarker := by decide
    exact hmarker.of_isPrefix
      (table.marker_isPrefix_declare (ofTrimmed_eq_extResource_iff.1 hk))
  | node => exact hline
  | property =>
    have hnumbered : Visible (numberReferences table raw.trim) := by
      refine hline.replaceEach fun pair hpair => ?_
      obtain ⟨entry, -, rfl⟩ := List.mem_map.1 hpair
      have hopening : Visible "ExtResource( ".toList := by decide
      exact ⟨reference_ne_nil entry.1, (hopening.append _).append _⟩
    refine hnumbered.replaceEach fun pair hpair => ?_
    obtain ⟨hne, hvisible, -⟩ := visible_tokenRenames pair hpair
    exact ⟨hne, hvisible⟩
  | blank => exact absurd hk hkind

theorem visible_settled (hkind : LineKind.ofTrimmed raw.trim ≠ .blank) {below : List AnchorRule}
    (hbelow : below ⊆ anchorRules) : Visible ((ofLine table above raw).settled below) := by
  have hrenamed : Visible (ofLine table above raw).renamed := by
    refine (visible_text table above hkind).replaceEach fun pair hpair => ?_
    obtain ⟨rule, hrule, hpair⟩ := List.mem_flatMap.1 hpair
    obtain ⟨hne, hvisible, -⟩ := (AnchorRule.visible rule (rules_subset _ hrule)).2 pair hpair
    exact ⟨hne, hvisible⟩
  exact hrenamed.expand hbelow

theorem breaksAtAnchors_settled (h : '\n' ∉ raw) {below : List AnchorRule}
    (hbelow : below ⊆ anchorRules) :
    BreaksAtAnchors ((ofLine table above raw).settled below) :=
  (BreaksAtAnchors.of_notMem (terminator_notMem_renamed table above (by decide) h)).expand hbelow

end Draft

theorem visible_downgradeHeader {header : Text} (h : ¬ Blank header) :
    Visible (downgradeHeader header) := by
  have htrim : Visible header.trim :=
    .of_trim header.trimmed_trim fun he => h (blank_of_trim_eq_nil he)
  have hformat : Visible (header.trim.replaceAll newFormat oldFormat) :=
    htrim.replaceAll (by decide) (by decide)
  obtain ⟨c, rest, hrest⟩ := List.exists_cons_of_ne_nil hformat.ne_nil
  have hc : isBlank c = false := by
    obtain ⟨d, hd, hblank⟩ := hformat
    rw [hrest] at hd
    obtain rfl : c = d := by simpa using hd
    exact hblank
  -- no attribute begins with a character that is not blank
  have hnone : uidAttribute.run? (c :: rest) = none := by
    cases hrun : uidAttribute.run? (c :: rest) with
    | none => rfl
    | some run =>
      obtain ⟨-, hp⟩ := (QuotedSpan.run?_eq_some_iff uidAttribute_delimited).1 hrun
      have hhead : uidAttribute.around run = ' ' :: ("uid=\"".toList ++ run ++ ['"']) := rfl
      rw [hhead, List.cons_prefix_cons] at hp
      rw [← hp.1] at hc
      exact absurd hc (by decide)
  rw [downgradeHeader, hrest, QuotedSpan.removeFrom_eq, QuotedSpan.substitute_plain hnone]
  exact ⟨c, rfl, hc⟩

end SceneDowngrade.Scene
