import SceneDowngrade.Proofs.Text.QuotedSpan
import SceneDowngrade.Scene.Document

/-!
# Numerals and the lines that bring them

A declaration puts the id it captures in the table, no other line does. A numeral once given stays.
-/
namespace SceneDowngrade.Scene

theorem quotedAttribute_delimited {name : Text} (h : '"' ∉ name) :
    (quotedAttribute name).Delimited :=
  ⟨⟨' ' :: (name ++ ['=']), by simp, by simp [h], by simp [quotedAttribute]⟩, ⟨[], by simp, rfl⟩⟩

theorem idAttribute_delimited : idAttribute.Delimited := quotedAttribute_delimited (by decide)

theorem uidAttribute_delimited : uidAttribute.Delimited := quotedAttribute_delimited (by decide)

namespace ResourceTable

def ids (table : ResourceTable) : List Text := table.entries.map (·.1)

theorem get?_eq_none_iff {table : ResourceTable} {id : Text} :
    table.get? id = none ↔ id ∉ table.ids := by
  rw [get?, List.lookup_eq_none_iff, ids, List.mem_map]
  constructor
  · rintro h ⟨entry, he, rfl⟩
    simpa using h entry he
  · intro h entry he
    exact bne_iff_ne.2 fun hid => h ⟨entry, he, hid.symm⟩

theorem mem_ids_of_get? {table : ResourceTable} {id : Text} {number : Nat}
    (h : table.get? id = some number) : id ∈ table.ids := by
  by_contra hid
  simp [get?_eq_none_iff.2 hid] at h

theorem mem_ids_assign_iff {table : ResourceTable} {id other : Text} :
    other ∈ (table.assign id).table.ids ↔ other ∈ table.ids ∨ other = id := by
  rw [assign]
  cases hget : table.get? id with
  | none => simp [ids]
  | some number =>
    have hid := mem_ids_of_get? hget
    constructor
    · exact .inl
    · rintro (h | rfl)
      · exact h
      · exact hid

theorem get?_assign_of_get? {table : ResourceTable} {id : Text} {number : Nat}
    (h : table.get? id = some number) (other : Text) :
    (table.assign other).table.get? id = some number := by
  rw [assign]
  cases hget : table.get? other with
  | none =>
    rw [get?] at h
    simp [get?, List.lookup_append, h]
  | some _ => exact h

theorem table_declare (table : ResourceTable) (line : Text) :
    (table.declare line).table =
      ((declaredId? (plainDeclaration line)).map fun id => (table.assign id).table).getD table := by
  rw [declare]
  cases declaredId? (plainDeclaration line) <;> rfl

def afterLine (table : ResourceTable) (raw : Text) : ResourceTable :=
  match LineKind.ofTrimmed raw.trim with
  | .extResource => (table.declare raw.trim).table
  | _ => table

def afterLines (table : ResourceTable) (lines : List Text) : ResourceTable :=
  lines.foldl afterLine table

end ResourceTable

/-- The id that a source line puts in the table. -/
def capturedId? (raw : Text) : Option Text :=
  match LineKind.ofTrimmed raw.trim with
  | .extResource => declaredId? (plainDeclaration raw.trim)
  | _ => none

theorem quote_notMem_of_capturedId? {raw id : Text} (h : capturedId? raw = some id) :
    '"' ∉ id := by
  rw [capturedId?] at h
  split at h
  · exact QuotedSpan.quote_notMem_of_mem_runs idAttribute_delimited (List.mem_of_head? h)
  · simp at h

namespace ResourceTable

theorem afterLine_eq (table : ResourceTable) (raw : Text) :
    table.afterLine raw = ((capturedId? raw).map fun id => (table.assign id).table).getD table := by
  rw [afterLine, capturedId?]
  cases LineKind.ofTrimmed raw.trim <;> simp [table_declare]

theorem mem_ids_afterLines_iff {table : ResourceTable} {lines : List Text} {id : Text} :
    id ∈ (table.afterLines lines).ids ↔
      id ∈ table.ids ∨ ∃ raw ∈ lines, capturedId? raw = some id := by
  induction lines generalizing table with
  | nil => simp [afterLines]
  | cons raw lines ih =>
    rw [show table.afterLines (raw :: lines) = (table.afterLine raw).afterLines lines from rfl, ih,
      afterLine_eq]
    cases hraw : capturedId? raw with
    | none => simp [hraw]
    | some other =>
      rw [Option.map_some, Option.getD_some, mem_ids_assign_iff, or_assoc, List.exists_mem_cons_iff,
        hraw, Option.some_inj, eq_comm (a := id)]

theorem get?_afterLines_of_get? {table : ResourceTable} {id : Text} {number : Nat}
    (h : table.get? id = some number) (lines : List Text) :
    (table.afterLines lines).get? id = some number := by
  induction lines generalizing table with
  | nil => exact h
  | cons raw lines ih =>
    have hnext : (table.afterLine raw).get? id = some number := by
      rw [afterLine_eq]
      cases capturedId? raw with
      | none => exact h
      | some other => exact get?_assign_of_get? h other
    exact ih hnext

theorem entries_prefix_assign (table : ResourceTable) (id : Text) :
    table.entries <+: (table.assign id).table.entries := by
  rw [assign]
  cases table.get? id with
  | none => exact List.prefix_append _ _
  | some number => exact List.prefix_refl _

theorem entries_prefix_afterLines (table : ResourceTable) (lines : List Text) :
    table.entries <+: (table.afterLines lines).entries := by
  induction lines generalizing table with
  | nil => exact List.prefix_refl _
  | cons raw lines ih =>
    have hstep : table.entries <+: (table.afterLine raw).entries := by
      rw [afterLine_eq]
      cases capturedId? raw with
      | none => exact List.prefix_refl _
      | some id => exact entries_prefix_assign table id
    exact hstep.trans (ih _)

theorem afterLines_append (table : ResourceTable) (lines more : List Text) :
    table.afterLines (lines ++ more) = (table.afterLines lines).afterLines more :=
  List.foldl_append

end ResourceTable

end SceneDowngrade.Scene
