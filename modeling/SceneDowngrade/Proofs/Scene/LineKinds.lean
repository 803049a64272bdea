import SceneDowngrade.Proofs.Scene.Attributes
import SceneDowngrade.Proofs.Scene.References
import SceneDowngrade.Proofs.Scene.TwoPasses

/-!
# The kind of a line

A line is known by how it begins. No edit of the downgrade finds a marker or writes one, and none
empties a line, so each line is in the output what it is in the source.
-/
namespace SceneDowngrade.Scene

open Text

theorem ofTrimmed_eq_extResource_iff {line : Text} :
    LineKind.ofTrimmed line = .extResource ↔ extResourceMarker <+: line := by
  rw [LineKind.ofTrimmed, ← List.isPrefixOf_iff_prefix]
  split_ifs <;> simp_all

theorem ofTrimmed_eq_node_iff {line : Text} :
    LineKind.ofTrimmed line = .node ↔ nodeMarker <+: line := by
  have hmarkers : ¬ nodeMarker <+: extResourceMarker ∧ ¬ extResourceMarker <+: nodeMarker := by
    decide
  rw [LineKind.ofTrimmed, ← List.isPrefixOf_iff_prefix]
  split_ifs with hresource hnode hempty
  · -- the two markers differ within the length of either
    rw [List.isPrefixOf_iff_prefix] at hresource ⊢
    refine iff_of_false (by simp) fun hnode => ?_
    rcases List.prefix_or_prefix_of_prefix hresource hnode with h | h
    · exact hmarkers.2 h
    · exact hmarkers.1 h
  · simp [hnode]
  · simp [hnode]
  · simp [hnode]

/-- A replacement that finds no marker and makes none. -/
structure KeepsKind (old new : Text) : Prop where
  filled : old ≠ [] ∧ new ≠ []
  resource : extResourceMarker.Misses old ∧ extResourceMarker.Misses new
  node : nodeMarker.Misses old ∧ nodeMarker.Misses new

instance (old new : Text) : Decidable (KeepsKind old new) :=
  decidable_of_iff
    ((old ≠ [] ∧ new ≠ []) ∧ (extResourceMarker.Misses old ∧ extResourceMarker.Misses new) ∧
      nodeMarker.Misses old ∧ nodeMarker.Misses new)
    ⟨fun ⟨h₁, h₂, h₃⟩ => ⟨h₁, h₂, h₃⟩, fun ⟨h₁, h₂, h₃⟩ => ⟨h₁, h₂, h₃⟩⟩

theorem KeepsKind.ofTrimmed_replaceAll {old new : Text} (h : KeepsKind old new) (text : Text) :
    LineKind.ofTrimmed (text.replaceAll old new) = LineKind.ofTrimmed text := by
  obtain ⟨hold, hnew⟩ := h.filled
  have hmarker : ∀ marker : Text, marker.Misses old ∧ marker.Misses new →
      marker.isPrefixOf (text.replaceAll old new) = marker.isPrefixOf text := by
    rintro marker ⟨hmold, hmnew⟩
    rw [Bool.eq_iff_iff, List.isPrefixOf_iff_prefix, List.isPrefixOf_iff_prefix,
      prefix_replaceAll_iff hold hmold hmnew]
  have hempty : (text.replaceAll old new).isEmpty = text.isEmpty := by
    rw [Bool.eq_iff_iff, List.isEmpty_iff, List.isEmpty_iff, replaceAll_eq_nil_iff hold hnew]
  rw [LineKind.ofTrimmed, LineKind.ofTrimmed, hmarker _ h.resource, hmarker _ h.node, hempty]

theorem ofTrimmed_replaceEach {pairs : List (Text × Text)}
    (h : ∀ pair ∈ pairs, KeepsKind pair.1 pair.2) (text : Text) :
    LineKind.ofTrimmed (text.replaceEach pairs) = LineKind.ofTrimmed text := by
  induction pairs generalizing text with
  | nil => rfl
  | cons pair pairs ih =>
    obtain ⟨hpair, hpairs⟩ := List.forall_mem_cons.1 h
    rw [replaceEach_cons, ih hpairs, hpair.ofTrimmed_replaceAll]

theorem keepsKind_tokenRenames : ∀ pair ∈ tokenRenames, KeepsKind pair.1 pair.2 := by
  decide +kernel

theorem AnchorRule.keepsKind : ∀ rule ∈ anchorRules,
    KeepsKind rule.token rule.expansion ∧ ∀ pair ∈ rule.renames, KeepsKind pair.1 pair.2 := by
  decide +kernel

theorem keepsKind_reference (id : Text) (number : Nat) :
    KeepsKind (reference id) (numberedReference number) := by
  rw [reference_eq, numberedReference_eq, referenceName_eq]
  exact ⟨by simp, ⟨.of_notMem (by decide), .of_notMem (by decide)⟩,
    ⟨.of_notMem (by decide), .of_notMem (by decide)⟩⟩

theorem ofTrimmed_numberReferences (table : ResourceTable) (line : Text) :
    LineKind.ofTrimmed (numberReferences table line) = LineKind.ofTrimmed line := by
  refine ofTrimmed_replaceEach (fun pair hpair => ?_) line
  obtain ⟨entry, -, rfl⟩ := List.mem_map.1 hpair
  exact keepsKind_reference entry.1 entry.2

theorem marker_isPrefix_plainDeclaration {line : Text} (h : extResourceMarker <+: line) :
    extResourceMarker <+: plainDeclaration line := by
  have htexture : extResourceMarker <+: line.replaceAll "Texture2D".toList "Texture".toList :=
    prefix_replaceAll (by decide) (.of_notMem (by decide)) h
  obtain ⟨rest, hrest⟩ := htexture
  rw [plainDeclaration, ← hrest, QuotedSpan.removeFrom_eq, uidAttribute,
    QuotedSpan.substitute_append_of_not_startsIn (not_startsIn_marker rest)]
  exact List.prefix_append _ _

theorem ResourceTable.marker_isPrefix_declare {line : Text} (h : extResourceMarker <+: line)
    (table : ResourceTable) : extResourceMarker <+: (table.declare line).line := by
  have hplain := marker_isPrefix_plainDeclaration h
  rw [declare]
  cases declaredId? (plainDeclaration line) with
  | none => exact hplain
  | some id =>
    have hid : idAttribute.around id = ' ' :: ("id=\"".toList ++ id ++ ['"']) := rfl
    exact prefix_replaceAll (idAttribute_delimited.around_ne_nil id)
      (hid ▸ .of_notMem (by decide)) hplain

namespace Draft

theorem ofTrimmed_text (table : ResourceTable) (above raw : Text) :
    LineKind.ofTrimmed (ofLine table above raw).text = LineKind.ofTrimmed raw.trim := by
  rw [ofLine]
  cases hkind : LineKind.ofTrimmed raw.trim with
  | extResource =>
    exact ofTrimmed_eq_extResource_iff.2
      (table.marker_isPrefix_declare (ofTrimmed_eq_extResource_iff.1 hkind))
  | node => exact hkind
  | property =>
    simp only [renameTokens]
    rw [ofTrimmed_replaceEach keepsKind_tokenRenames, ofTrimmed_numberReferences, hkind]
  | blank => rfl

theorem ofTrimmed_settled {below : List AnchorRule} (h : below ⊆ anchorRules)
    (table : ResourceTable) (above raw : Text) :
    LineKind.ofTrimmed ((ofLine table above raw).settled below) =
      LineKind.ofTrimmed raw.trim := by
  have hexpand : ∀ pair ∈ below.map (·.expansionPair), KeepsKind pair.1 pair.2 := by
    intro pair hpair
    obtain ⟨rule, hrule, rfl⟩ := List.mem_map.1 hpair
    exact (AnchorRule.keepsKind rule (h hrule)).1
  have hrename : ∀ pair ∈ (ofLine table above raw).rules.flatMap (·.renames),
      KeepsKind pair.1 pair.2 := by
    intro pair hpair
    obtain ⟨rule, hrule, hpair⟩ := List.mem_flatMap.1 hpair
    exact (AnchorRule.keepsKind rule (rules_subset _ hrule)).2 pair hpair
  rw [settled, ofTrimmed_replaceEach hexpand, renamed, ofTrimmed_replaceEach hrename,
    ofTrimmed_text]

end Draft

end SceneDowngrade.Scene
