import Mathlib.Data.List.Nodup
import SceneDowngrade.Proofs.Scene.References
import SceneDowngrade.Proofs.Text.ReplacementOrder

/-!
# References numbered at once

Each entry of the table is replaced on the line that the entries before it left. For ids without
quotes and parentheses this is one pass over the references of the line, whatever the order of the
entries, and the warnings that follow are for references that the table could not number.
-/
namespace SceneDowngrade.Scene

open Text

theorem references_apart {id other : Text} (hid : Bare id) (hother : Bare other) (hne : id ≠ other)
    (number otherNumber : Nat) :
    Apart (reference id, numberedReference number)
      (reference other, numberedReference otherNumber) where
  first_ne := reference_ne_nil id
  second_ne := reference_ne_nil other
  olds := reference_independent hid hother.1 hne
  first_new := reference_independent_numbered hid otherNumber
  second_new := reference_independent_numbered hother number

/-- The entries of a table with one numeral for each id may be numbered in any order. -/
theorem numberReferences_perm {table other : ResourceTable} (hbare : ∀ id ∈ table.ids, Bare id)
    (honce : table.ids.Nodup) (hperm : other.entries.Perm table.entries) (line : Text) :
    numberReferences other line = numberReferences table line := by
  refine replaceEach_perm ?_ (hperm.map _) line
  intro first hfirst second hsecond hne
  obtain ⟨⟨id, number⟩, hentry, rfl⟩ := List.mem_map.1 hfirst
  obtain ⟨⟨otherId, otherNumber⟩, hother, rfl⟩ := List.mem_map.1 hsecond
  have hid : id ∈ table.ids := List.mem_map_of_mem hentry
  have hotherId : otherId ∈ table.ids := List.mem_map_of_mem hother
  refine references_apart (hbare id hid) (hbare otherId hotherId) ?_ number otherNumber
  intro hsame
  have heq := List.inj_on_of_nodup_map honce hentry hother hsame
  exact hne (heq ▸ rfl)

/-- A reference to an id without quotes and parentheses is found wherever it stands. -/
theorem mem_danglingIds_iff {id : Text} (hid : Bare id) (line : Text) :
    id ∈ danglingIds line ↔ reference id <:+: line := by
  have hspan := quotedReference_delimited
  rw [danglingIds]
  induction line using QuotedSpan.pieces_induction hspan with
  | nil => simp [reference_ne_nil]
  | found run rest hrun ih =>
    rw [QuotedSpan.runs_span hspan hrun, List.mem_cons]
    by_cases hsame : id = run
    · subst hsame
      exact iff_of_true (.inl rfl) (List.prefix_append (reference id) rest).isInfix
    · have hindependent := reference_independent hid hrun hsame
      refine (or_iff_right hsame).trans (ih.trans ?_)
      exact (hindependent.infix_append (reference_ne_nil id)).symm
  | pass c rest hpass ih =>
    have hstart : ¬ reference id <+: c :: rest := by
      intro hp
      rw [(QuotedSpan.run?_eq_some_iff hspan).2 ⟨hid.1, hp⟩] at hpass
      cases hpass
    rw [QuotedSpan.runs_plain hpass, List.infix_cons_iff, or_iff_right hstart]
    exact ih

theorem undeclared_mem_danglingNotices_iff {id line : Text} :
    .undeclared id ∈ danglingNotices line ↔ id ∈ danglingIds line := by
  simp [danglingNotices]

/-- If no id of the table has quotes or parentheses, numbering its entries one after another turns
the references of the line into numerals all at once, in whatever order the entries are. No
reference to an id of the table is left, and the warnings name the other ids that the line refers
to. -/
theorem numberReferences_at_once {table : ResourceTable} (hbare : ∀ id ∈ table.ids, Bare id)
    (line : Text) :
    numberReferences table line = quotedReference.substitute (numberedBy table.get?) line ∧
      (table.ids.Nodup → ∀ other : ResourceTable, other.entries.Perm table.entries →
        numberReferences other line = numberReferences table line) ∧
      (∀ id ∈ table.ids, ¬ reference id <:+: numberReferences table line) ∧
      ∀ id, Bare id → (.undeclared id ∈ danglingNotices (numberReferences table line) ↔
        reference id <:+: line ∧ id ∉ table.ids) := by
  have hleft {id : Text} (hid : Bare id) : reference id <:+: numberReferences table line ↔
      reference id <:+: line ∧ id ∉ table.ids :=
    infix_numberReferences_iff (fun other hother => (hbare other hother).1) hid line
  refine ⟨numberReferences_eq_substitute hbare line, fun honce other hperm => ?_, fun id hid => ?_,
    fun id hid => ?_⟩
  · exact numberReferences_perm hbare honce hperm line
  · rw [hleft (hbare id hid)]
    exact fun h => h.2 hid
  · rw [undeclared_mem_danglingNotices_iff, mem_danglingIds_iff hid, hleft hid]

/-- The empty id, and one that another id begins with. -/
def prefixedTable : ResourceTable := ⟨[([], 1), (['1'], 2), ("12".toList, 3)]⟩

def prefixedLine : Text :=
  "a(ExtResource(\"12\"), ExtResource(\"x\"), ExtResource(\"\"), ExtResource(\"ExtResource(\"1\")".toList

theorem numberReferences_at_once_prefixed :
    numberReferences ⟨prefixedTable.entries.reverse⟩ prefixedLine =
        "a(ExtResource( 3 ), ExtResource(\"x\"), ExtResource( 1 ), ExtResource(\"ExtResource( 2 )".toList ∧
      .undeclared ['x'] ∈ danglingNotices (numberReferences prefixedTable prefixedLine) ∧
      .undeclared ['1'] ∉ danglingNotices (numberReferences prefixedTable prefixedLine) := by
  have hbare : ∀ id ∈ prefixedTable.ids, Bare id := by decide
  obtain ⟨hpass, horder, -, hwarned⟩ := numberReferences_at_once hbare prefixedLine
  have hreference : reference ['x'] <:+: prefixedLine := occursIn_iff_infix.1 (by decide +kernel)
  have hreversed := horder (by decide) ⟨prefixedTable.entries.reverse⟩ (List.reverse_perm _)
  refine ⟨?_, (hwarned ['x'] (by decide)).2 ⟨hreference, by decide⟩, fun h => ?_⟩
  · rw [hreversed, hpass]
    decide +kernel
  · exact absurd (by decide) ((hwarned ['1'] (by decide)).1 h).2

end SceneDowngrade.Scene
