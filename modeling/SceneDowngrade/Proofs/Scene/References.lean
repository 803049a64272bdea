import SceneDowngrade.Proofs.Scene.Numbering
import SceneDowngrade.Proofs.Text.Replacement
import SceneDowngrade.Scene.Property

/-!
# References

A reference to an id without quotes and parentheses overlaps no reference to another id, and none by
numeral. So whatever is done to the references of a line is done to each of them on its own.
-/
namespace SceneDowngrade.Scene

open Text

def Bare (id : Text) : Prop := '"' ∉ id ∧ '(' ∉ id ∧ ')' ∉ id

instance (id : Text) : Decidable (Bare id) := inferInstanceAs (Decidable (_ ∧ _))

def referenceName : Text := "ExtResource".toList

def reference (id : Text) : Text := quotedReference.around id

theorem reference_eq (id : Text) :
    reference id = referenceName ++ '(' :: '"' :: (id ++ ['"', ')']) := by
  have hopening : quotedReference.opening = referenceName ++ ['(', '"'] := by decide
  have hclosing : quotedReference.closing = ['"', ')'] := by decide
  simp [reference, QuotedSpan.around, hopening, hclosing]

theorem numberedReference_eq (number : Nat) :
    numberedReference number = referenceName ++ '(' :: ' ' :: (numeral number ++ [' ', ')']) := by
  have hopening : "ExtResource( ".toList = referenceName ++ ['(', ' '] := by decide
  have hclosing : " )".toList = [' ', ')'] := by decide
  unfold numberedReference
  rw [hopening, hclosing]
  simp

theorem referenceName_eq : referenceName = 'E' :: "xtResource".toList := by decide

theorem reference_ne_nil (id : Text) : reference id ≠ [] := by simp [reference_eq]

theorem notMem_numeral {c : Char} (hc : c.isDigit = false) (number : Nat) :
    c ∉ numeral number := by
  intro h
  have hdigit : c.isDigit = true :=
    Nat.isDigit_of_mem_toDigits (by decide) (by decide) h
  simp [hc] at hdigit

theorem referenceName_tail {tail : Text} (h : tail <:+ referenceName) (hne : tail ≠ []) :
    tail = referenceName ∨ tail.head? ≠ some 'E' := by
  have hall : ∀ tail ∈ referenceName.tails,
      tail ≠ [] → tail = referenceName ∨ tail.head? ≠ some 'E' := by decide
  exact hall tail ((List.mem_tails _ _).2 h) hne

/-- Apart from the whole reference, only a tail of the id can begin a tail like a reference. -/
theorem reference_tail {id tail : Text} (h : tail <:+ reference id) (hne : tail ≠ []) :
    tail = reference id ∨ tail.head? ≠ some 'E' ∨
      ∃ rest, rest <:+ id ∧ tail = rest ++ ['"', ')'] := by
  rw [reference_eq] at h ⊢
  rcases suffix_append_cases h with h | ⟨rest, hrest, hs, rfl⟩
  · rcases List.suffix_cons_iff.1 h with rfl | h
    · exact .inr (.inl (by simp))
    rcases List.suffix_cons_iff.1 h with rfl | h
    · exact .inr (.inl (by simp))
    rcases suffix_append_cases h with h | ⟨rest, -, hs, rfl⟩
    · rcases List.suffix_cons_iff.1 h with rfl | h
      · exact .inr (.inl (by simp))
      · rcases List.suffix_cons_iff.1 h with rfl | h
        · exact .inr (.inl (by simp))
        · exact absurd (List.suffix_nil.1 h) hne
    · exact .inr (.inr ⟨rest, hs, rfl⟩)
  · obtain ⟨c, more, rfl⟩ := List.exists_cons_of_ne_nil hrest
    rcases referenceName_tail hs hrest with h | h
    · exact .inl (by rw [h])
    · exact .inr (.inl (by simpa using h))

/-- A tail of a reference, other than all of it, is not the beginning of a reference of any kind. -/
theorem reference_tail_clash {id tail : Text} (hid : '(' ∉ id) (h : tail <:+ reference id)
    (hne : tail ≠ []) (hproper : tail ≠ reference id) (more : Text) :
    ¬ tail <+: referenceName ++ '(' :: more ∧ ¬ referenceName ++ '(' :: more <+: tail := by
  rcases reference_tail h hne with h | h | ⟨rest, hs, rfl⟩
  · exact absurd h hproper
  · obtain ⟨c, rest, rfl⟩ := List.exists_cons_of_ne_nil hne
    have hc : c ≠ 'E' := by simpa using h
    simp [referenceName_eq, List.cons_prefix_cons, hc, hc.symm]
  · have hrest : '(' ∉ rest := fun hm => hid (hs.mem hm)
    have hname : '"' ∉ referenceName := by decide
    rw [append_cons_prefix_iff hrest hname, append_cons_prefix_iff hname hrest]
    simp

theorem eq_of_reference_isPrefix {id other rest : Text} (hid : '"' ∉ id) (hother : '"' ∉ other)
    (h : reference id <+: reference other ++ rest) : id = other := by
  rw [reference_eq, reference_eq, List.append_assoc] at h
  simp only [List.append_assoc, List.cons_append, List.prefix_append_right_inj,
    List.cons_prefix_cons, true_and, List.nil_append] at h
  exact ((append_cons_prefix_iff hid hother).1 h).1

theorem reference_not_isPrefix {id other : Text} (hid : '"' ∉ id) (hother : '"' ∉ other)
    (hne : id ≠ other) : ¬ reference id <+: reference other := fun h =>
  hne (eq_of_reference_isPrefix hid hother (h.trans (List.prefix_append _ [])))

/-- References to different ids never overlap, if one of the ids has no parentheses. -/
theorem reference_independent {id other : Text} (hid : Bare id) (hother : '"' ∉ other)
    (hne : id ≠ other) : (reference id).Independent (reference other) := by
  constructor
  · intro tail ht htail
    by_cases hproper : tail = reference id
    · subst hproper
      exact ⟨reference_not_isPrefix hid.1 hother hne, reference_not_isPrefix hother hid.1 hne.symm⟩
    · rw [reference_eq other]
      exact reference_tail_clash hid.2.1 ht htail hproper _
  · intro tail ht htail
    rcases reference_tail ht htail with rfl | h | ⟨rest, hs, rfl⟩
    · exact ⟨reference_not_isPrefix hother hid.1 hne.symm, reference_not_isPrefix hid.1 hother hne⟩
    · obtain ⟨c, rest, rfl⟩ := List.exists_cons_of_ne_nil htail
      have hc : c ≠ 'E' := by simpa using h
      simp [reference_eq, referenceName_eq, List.cons_prefix_cons, hc, hc.symm]
    · -- only a reference to an id that begins with the closing parenthesis could follow
      have hrest : '"' ∉ rest := fun hm => hother (hs.mem hm)
      have hname : '"' ∉ referenceName ++ ['('] := by decide
      have hsplit : reference id = (referenceName ++ ['(']) ++ '"' :: (id ++ ['"', ')']) := by
        simp [reference_eq]
      rw [hsplit, append_cons_prefix_iff hrest hname, append_cons_prefix_iff hname hrest]
      have hclosing := hid.2.2
      cases id with
      | nil => simp [List.cons_prefix_cons]
      | cons c id =>
        have hc : c ≠ ')' := fun h => hclosing (by simp [h])
        simp [List.cons_prefix_cons, hc, hc.symm]

/-- A reference by name never overlaps one by numeral. -/
theorem reference_independent_numbered {id : Text} (hid : Bare id) (number : Nat) :
    (reference id).Independent (numberedReference number) := by
  have hsplit : reference id = referenceName ++ '(' :: '"' :: (id ++ ['"', ')']) := reference_eq id
  have hwhole : ¬ reference id <+: numberedReference number := by
    simp [reference_eq, numberedReference_eq, List.cons_prefix_cons]
  have hwhole' : ¬ numberedReference number <+: reference id := by
    simp [reference_eq, numberedReference_eq, List.cons_prefix_cons]
  constructor
  · intro tail ht htail
    by_cases hproper : tail = reference id
    · exact hproper ▸ ⟨hwhole, hwhole'⟩
    · rw [numberedReference_eq]
      exact reference_tail_clash hid.2.1 ht htail hproper _
  · have hdigits : 'E' ∉ numeral number := notMem_numeral (by decide) number
    rw [reference_eq, numberedReference_eq, referenceName_eq] at *
    refine Misses.of_head ?_ hwhole' hwhole
    simp [hdigits]

theorem replaceAll_append_reference {id : Text} (hid : Bare id) (new front back : Text) :
    replaceAll (front ++ reference id ++ back) (reference id) new =
      replaceAll front (reference id) new ++ new ++ replaceAll back (reference id) new := by
  have hcut : (reference id).CleanCut front (reference id ++ back) := by
    intro head tail hhead htail he _ hp
    have hproper : tail ≠ reference id := fun h => hhead (by simpa [h] using he)
    have hs : tail <:+ reference id := ⟨head, he.symm⟩
    have hclash := reference_tail_clash hid.2.1 hs htail hproper ('"' :: (id ++ ['"', ')']))
    rw [← reference_eq] at hclash
    rcases List.prefix_or_prefix_of_prefix hp (List.prefix_append (reference id) back) with hp | hp
    · exact hclash.1 hp
    · exact hclash.2 hp
  rw [List.append_assoc, replaceAll_append (reference_ne_nil id) hcut,
    replaceAll_found (reference_ne_nil id), List.append_assoc]

theorem numberReferences_nil (line : Text) : numberReferences ⟨[]⟩ line = line := rfl

theorem numberReferences_cons (id : Text) (number : Nat) (entries : List (Text × Nat))
    (line : Text) :
    numberReferences ⟨(id, number) :: entries⟩ line =
      numberReferences ⟨entries⟩ (line.replaceAll (reference id) (numberedReference number)) := rfl

/-- Numbering takes away the references to the ids of the table, and makes no other one. -/
theorem infix_numberReferences_iff {table : ResourceTable} (hquote : ∀ id ∈ table.ids, '"' ∉ id)
    {id : Text} (hid : Bare id) (line : Text) :
    reference id <:+: numberReferences table line ↔ reference id <:+: line ∧ id ∉ table.ids := by
  obtain ⟨entries⟩ := table
  induction entries generalizing line with
  | nil => simp [numberReferences_nil, ResourceTable.ids]
  | cons entry entries ih =>
    obtain ⟨other, number⟩ := entry
    have hother : '"' ∉ other := hquote other (by simp [ResourceTable.ids])
    have hrest : ∀ id ∈ ResourceTable.ids ⟨entries⟩, '"' ∉ id := fun id h =>
      hquote id (List.mem_cons_of_mem _ h)
    have hids : id ∉ ResourceTable.ids ⟨(other, number) :: entries⟩ ↔
        id ≠ other ∧ id ∉ ResourceTable.ids ⟨entries⟩ := by simp [ResourceTable.ids]
    rw [numberReferences_cons, ih _ hrest, hids]
    by_cases he : id = other
    · subst he
      have hgone := not_isInfix_replaceAll_self (reference_ne_nil id)
        (reference_independent_numbered hid number) line
      simp [hgone]
    · rw [infix_replaceAll_iff (reference_ne_nil other) (reference_ne_nil id)
        (reference_independent hid hother he) (reference_independent_numbered hid number)]
      simp [he]

theorem numberReferences_append_numbered {table : ResourceTable} (hbare : ∀ id ∈ table.ids, Bare id)
    (number : Nat) (front back : Text) :
    numberReferences table (front ++ numberedReference number ++ back) =
      numberReferences table front ++ numberedReference number ++ numberReferences table back := by
  obtain ⟨entries⟩ := table
  induction entries generalizing front back with
  | nil => rfl
  | cons entry entries ih =>
    obtain ⟨other, _⟩ := entry
    have hrest : ∀ id ∈ ResourceTable.ids ⟨entries⟩, Bare id := fun id h =>
      hbare id (List.mem_cons_of_mem _ h)
    have hother := reference_independent_numbered (hbare other (by simp [ResourceTable.ids])) number
    rw [numberReferences_cons, hother.replaceAll_append (reference_ne_nil other), ih _ _ hrest,
      numberReferences_cons, numberReferences_cons]

theorem numberReferences_append_undeclared {table : ResourceTable}
    (hbare : ∀ id ∈ table.ids, Bare id) {id : Text} (hid : '"' ∉ id) (hget : table.get? id = none)
    (front back : Text) :
    numberReferences table (front ++ reference id ++ back) =
      numberReferences table front ++ reference id ++ numberReferences table back := by
  obtain ⟨entries⟩ := table
  induction entries generalizing front back with
  | nil => rfl
  | cons entry entries ih =>
    obtain ⟨other, number⟩ := entry
    have hrest : ∀ id ∈ ResourceTable.ids ⟨entries⟩, Bare id := fun id h =>
      hbare id (List.mem_cons_of_mem _ h)
    obtain ⟨hne, hget⟩ : id ≠ other ∧ ResourceTable.get? ⟨entries⟩ id = none := by
      simpa [ResourceTable.get?_eq_none_iff, ResourceTable.ids] using hget
    have hother := reference_independent (hbare other (by simp [ResourceTable.ids])) hid hne.symm
    rw [numberReferences_cons, hother.replaceAll_append (reference_ne_nil other),
      ih _ _ hrest hget, numberReferences_cons, numberReferences_cons]

/-- Every reference to an id of the table becomes the one by its numeral. -/
theorem numberReferences_append_reference {table : ResourceTable}
    (hbare : ∀ id ∈ table.ids, Bare id) {id : Text} {number : Nat}
    (hget : table.get? id = some number) (front back : Text) :
    numberReferences table (front ++ reference id ++ back) =
      numberReferences table front ++ numberedReference number ++ numberReferences table back := by
  obtain ⟨entries⟩ := table
  induction entries generalizing front back with
  | nil => simp [ResourceTable.get?] at hget
  | cons entry entries ih =>
    obtain ⟨other, first⟩ := entry
    have hother : Bare other := hbare other (by simp [ResourceTable.ids])
    have hrest : ∀ id ∈ ResourceTable.ids ⟨entries⟩, Bare id := fun id h =>
      hbare id (List.mem_cons_of_mem _ h)
    rw [numberReferences_cons, numberReferences_cons, numberReferences_cons]
    by_cases he : id = other
    · subst he
      obtain rfl : first = number := by simpa [ResourceTable.get?] using hget
      rw [replaceAll_append_reference hother, numberReferences_append_numbered hrest]
    · have hget' : ResourceTable.get? ⟨entries⟩ id = some number := by
        have hne : (id == other) = false := beq_eq_false_iff_ne.2 he
        simpa [ResourceTable.get?, List.lookup_cons, hne] using hget
      have hid := hbare id (List.mem_cons_of_mem _ (ResourceTable.mem_ids_of_get? hget'))
      have hindependent := reference_independent hother hid.1 (Ne.symm he)
      rw [hindependent.replaceAll_append (reference_ne_nil other), ih _ _ hrest hget']

/-- The reference to an id by its numeral, if it has one. -/
def numberedBy (number? : Text → Option Nat) (id : Text) : Text :=
  match number? id with
  | none => reference id
  | some number => numberedReference number

theorem quotedReference_delimited : quotedReference.Delimited :=
  ⟨⟨referenceName ++ ['('], by decide⟩, ⟨[')'], by decide⟩⟩

theorem reference_tail_misses {id tail : Text} (hid : '(' ∉ id) (h : tail <:+ reference id)
    (hproper : tail ≠ reference id) (more : Text) :
    Misses tail (referenceName ++ '(' :: more) := by
  intro rest hs hne
  refine reference_tail_clash hid (hs.trans h) hne ?_ more
  rintro rfl
  exact hproper (h.eq_of_length_le hs.length_le)

/-- Numbering other references makes no reference by name. -/
theorem reference_isPrefix_of_substitute {id : Text} (hid : '(' ∉ id) {number? : Text → Option Nat}
    {c : Char} {rest : Text}
    (hp : reference id <+: c :: quotedReference.substitute (numberedBy number?) rest) :
    reference id <+: c :: rest := by
  obtain ⟨d, tail, htail⟩ := List.exists_cons_of_ne_nil (reference_ne_nil id)
  have hsuffix : tail <:+ reference id := htail ▸ List.suffix_cons d tail
  have hproper : tail ≠ reference id := fun h => by simpa [h] using congrArg List.length htail
  have hmisses : ∀ run, '"' ∉ run → Misses tail (numberedBy number? run) := by
    intro run _
    unfold numberedBy
    cases number? run with
    | none =>
      simp only [reference_eq]
      exact reference_tail_misses hid hsuffix hproper _
    | some first =>
      simp only [numberedReference_eq]
      exact reference_tail_misses hid hsuffix hproper _
  rw [htail] at hp ⊢
  obtain ⟨rfl, hrest⟩ := List.cons_prefix_cons.1 hp
  exact List.cons_prefix_cons.2
    ⟨rfl, QuotedSpan.prefix_of_substitute quotedReference_delimited hmisses hrest⟩

/-- A replacement of one reference adds one id to those with a numeral. -/
theorem replaceAll_substitute_numberedBy {id : Text} (hid : Bare id) (number : Nat)
    (number? : Text → Option Nat) (line : Text) :
    replaceAll (quotedReference.substitute (numberedBy number?) line) (reference id)
        (numberedReference number) =
      quotedReference.substitute
        (numberedBy fun other => (number? other).or (if other = id then some number else none))
        line := by
  have hspan := quotedReference_delimited
  induction line using QuotedSpan.pieces_induction hspan with
  | nil => simp
  | found run rest hrun ih =>
    rw [QuotedSpan.substitute_span hspan hrun, QuotedSpan.substitute_span hspan hrun, ← ih]
    cases hnumber : number? run with
    | some first =>
      simp only [numberedBy, hnumber, Option.some_or]
      exact (reference_independent_numbered hid first).replaceAll_append_left (reference_ne_nil id) _
    | none =>
      by_cases he : run = id
      · simp only [numberedBy, hnumber, Option.none_or, if_pos he]
        rw [he, replaceAll_found (reference_ne_nil id)]
      · simp only [numberedBy, hnumber, Option.none_or, if_neg he]
        exact (reference_independent hid hrun (Ne.symm he)).replaceAll_append_left
          (reference_ne_nil id) _
  | pass c rest hpass ih =>
    rw [QuotedSpan.substitute_plain hpass, QuotedSpan.substitute_plain hpass, ← ih,
      replaceAll_pass]
    intro hp
    have hbefore := reference_isPrefix_of_substitute hid.2.1 hp
    rw [(QuotedSpan.run?_eq_some_iff hspan).2 ⟨hid.1, hbefore⟩] at hpass
    cases hpass

/-- Numbering entry by entry is one substitution of all references at once. -/
theorem numberReferences_eq_substitute {table : ResourceTable} (hbare : ∀ id ∈ table.ids, Bare id)
    (line : Text) :
    numberReferences table line = quotedReference.substitute (numberedBy table.get?) line := by
  obtain ⟨entries⟩ := table
  have hall : ∀ number? : Text → Option Nat,
      numberReferences ⟨entries⟩ (quotedReference.substitute (numberedBy number?) line) =
        quotedReference.substitute
          (numberedBy fun id => (number? id).or (ResourceTable.get? ⟨entries⟩ id)) line := by
    induction entries with
    | nil => simp [numberReferences_nil, ResourceTable.get?]
    | cons entry entries ih =>
      obtain ⟨first, number⟩ := entry
      have hfirst : Bare first := hbare first (by simp [ResourceTable.ids])
      have hrest : ∀ id ∈ ResourceTable.ids ⟨entries⟩, Bare id := fun id h =>
        hbare id (List.mem_cons_of_mem _ h)
      intro number?
      rw [numberReferences_cons, replaceAll_substitute_numberedBy hfirst, ih hrest]
      congr 2
      funext id
      rw [Option.or_assoc]
      congr 1
      by_cases he : id = first
      · simp [ResourceTable.get?, he]
      · have hne : (id == first) = false := beq_eq_false_iff_ne.2 he
        simp [ResourceTable.get?, List.lookup_cons, he, hne]
  have hnone := hall fun _ => none
  rw [show numberedBy (fun _ => none) = quotedReference.around from rfl,
    QuotedSpan.substitute_around quotedReference_delimited] at hnone
  simpa using hnone

end SceneDowngrade.Scene
