import Mathlib.Data.List.Basic
import SceneDowngrade.Proofs.Files.Entries

/-!
# Staged files

A file made under a free name is the one entry that is new. Removed again it leaves the tree as it
was. Moved over another entry it takes the place of that, and all other entries stay.
-/
namespace SceneDowngrade.Files

/-- The object with one name less. -/
def Object.without (location : Location) (object : Object) : Object :=
  { object with names := object.names.filter (· ≠ location) }

namespace Tree

section
variable {tree next : Tree} {location other : Location} {content : Content} {object : Object}

theorem isDirectory_nil (tree : Tree) : tree.isDirectory [] = true := rfl

theorem contains_without (hne : other ≠ location) (object : Object) :
    (object.without location).names.contains other = object.names.contains other := by
  simp [Object.without, hne]

theorem withoutName_of_contains (hne : other ≠ location)
    (h : object.names.contains other = true) :
    withoutName location object = some (object.without location) := by
  have hother : (object.without location).names.contains other = true :=
    (contains_without hne object).trans h
  have hfilled : ¬ (object.without location).names.isEmpty = true := by
    intro hempty
    rw [List.isEmpty_iff.1 hempty] at hother
    simp at hother
  rw [withoutName]
  split
  · exact if_neg hfilled
  · next hlocation =>
    have hkept : object.names.filter (· ≠ location) = object.names := by
      refine List.filter_eq_self.2 fun name hname => decide_eq_true ?_
      rintro rfl
      exact hlocation (List.contains_iff_mem.2 hname)
    rw [Object.without, hkept]

theorem contains_of_withoutName {left : Object} (hne : other ≠ location)
    (h : withoutName location object = some left) :
    left.names.contains other = object.names.contains other := by
  cases hother : object.names.contains other with
  | true =>
    rw [withoutName_of_contains hne hother] at h
    obtain rfl := Option.some_inj.1 h
    exact (contains_without hne object).trans hother
  | false =>
    rw [withoutName] at h
    split at h
    · dsimp only at h
      split at h
      · simp at h
      · obtain rfl := Option.some_inj.1 h
        exact (contains_without hne object).trans hother
    · obtain rfl := Option.some_inj.1 h
      exact hother

theorem find?_filterMap_withoutName (hne : other ≠ location) (objects : List Object) :
    (objects.filterMap (withoutName location)).find? (·.names.contains other) =
      (objects.find? (·.names.contains other)).map (Object.without location) := by
  induction objects with
  | nil => rfl
  | cons object rest ih =>
    cases hother : object.names.contains other with
    | true =>
      have hleft := (contains_without hne object).trans hother
      simp only [List.filterMap_cons_some (withoutName_of_contains hne hother), List.find?_cons,
        hleft, hother, Option.map_some]
    | false =>
      simp only [List.find?_cons, hother, ← ih]
      cases hleft : withoutName location object with
      | none => rw [List.filterMap_cons_none hleft]
      | some left =>
        have hother' := (contains_of_withoutName hne hleft).trans hother
        simp only [List.filterMap_cons_some hleft, List.find?_cons, hother']

theorem object?_unlink (hne : other ≠ location) :
    (tree.unlink location).object? other = (tree.object? other).map (Object.without location) :=
  find?_filterMap_withoutName hne tree.objects

theorem object?_create_self :
    (tree.create location content).object? location = some ⟨[location], content⟩ :=
  List.find?_cons_of_pos (by simp)

theorem entry?_congr (hdirectories : next.directories = tree.directories)
    (hobject : (next.object? location).map (·.content) = (tree.object? location).map (·.content)) :
    next.entry? location = tree.entry? location := by
  unfold entry?
  rw [isDirectory, isDirectory, hdirectories]
  split
  · rfl
  · simpa [Function.comp_def] using congrArg (Option.map Entry.object) hobject

theorem entry?_create (hne : other ≠ location) :
    Tree.entry? (tree.create location content) other = tree.entry? other :=
  entry?_congr rfl (congrArg _ (object?_create hne))

theorem entry?_unlink (hne : other ≠ location) :
    Tree.entry? (tree.unlink location) other = tree.entry? other := by
  refine entry?_congr rfl ?_
  rw [object?_unlink hne, Option.map_map]
  rfl

theorem entry?_create_self (h : tree.isDirectory location ≠ true) (content : Content) :
    Tree.entry? (tree.create location content) location = some (.object content) := by
  have hdirectory : (tree.create location content).isDirectory location = tree.isDirectory location :=
    rfl
  unfold entry?
  rw [hdirectory, if_neg h, object?_create_self]
  rfl

theorem entry?_eq_none_iff : tree.entry? location = none ↔
    tree.isDirectory location ≠ true ∧ tree.object? location = none := by
  unfold entry?
  cases tree.isDirectory location <;> simp

theorem exists_name_of_not_isDirectory (h : tree.isDirectory location ≠ true) :
    ∃ directory name, location = directory ++ [name] := by
  rcases List.eq_nil_or_concat location with rfl | ⟨directory, name, rfl⟩
  · exact absurd tree.isDirectory_nil h
  · exact ⟨directory, name, by simp⟩

theorem unlink_of_object?_eq_none (h : tree.object? location = none) :
    tree.unlink location = tree := by
  have hkept : ∀ object ∈ tree.objects, withoutName location object = some object := by
    intro object hobject
    have hname : ¬ object.names.contains location = true := by
      simpa using List.find?_eq_none.1 h object hobject
    rw [withoutName, if_neg hname]
  rw [unlink, List.filterMap_eq_map_iff_forall_eq_some.2 hkept, List.map_id']

/-- What is made under a free name and removed again leaves no trace. -/
theorem unlink_create (h : tree.object? location = none) :
    (tree.create location content).unlink location = tree := by
  have hnew : withoutName location ⟨[location], content⟩ = none := by simp [withoutName]
  have hobjects : (tree.create location content).unlink location = tree.unlink location := by
    rw [unlink, create, List.filterMap_cons_none hnew]
    rfl
  rw [hobjects, unlink_of_object?_eq_none h]

/-- What is made and then moved over a name might have been made in the place of that name. -/
theorem move_create (hne : location ≠ other) :
    (tree.create location content).move location other =
      (tree.unlink other).create other content := by
  have hkept : withoutName other ⟨[location], content⟩ = some ⟨[location], content⟩ := by
    simp [withoutName, hne.symm]
  simp [move, unlink, create, List.filterMap_cons_some hkept, changeObject]

end

section
variable {tree : Tree} {purpose : Purpose} {slash : Bool} {here location : Location}
  {steps : List Step} {bytes : ByteArray}

/-- Up to its first link a walk does not notice a file made under a free name, unless it ends
there. -/
theorem leg_create (h : tree.entry? location = none) (bytes : ByteArray) :
    (tree.leg purpose slash here steps = .stopped (.absent location) →
        (tree.create location (.data bytes)).leg purpose slash here steps =
          .stopped (.present location)) ∧
      ∀ directory target rest,
        tree.leg purpose slash here steps = .crossing directory target rest →
          (tree.create location (.data bytes)).leg purpose slash here steps =
            .crossing directory target rest := by
  have hkept : ∀ place entry, tree.entry? place = some entry →
      Tree.entry? (tree.create location (.data bytes)) place = some entry := by
    intro place entry hentry
    have hne : place ≠ location := by
      rintro rfl
      simp [h] at hentry
    rw [entry?_create hne, hentry]
  fun_induction leg tree purpose slash here steps with
  | case1 | case4 | case5 | case7 | case9 | case10 | case11 => simp
  | case2 here rest ih | case3 here rest ih => simpa only [leg] using ih
  | case6 here name rest hslash hname hentry hrest =>
    simp only [Leg.stopped.injEq, Place.absent.injEq, reduceCtorEq, false_implies, implies_true,
      and_true]
    rintro rfl
    have hnew := entry?_create_self (entry?_eq_none_iff.1 h).1 (.data bytes)
    have hmark : slash = false := by simpa [hrest] using hslash
    simp [leg, hmark, hname, hnew, hrest]
  | case8 here name rest hslash hname hentry ih =>
    simpa only [leg, hslash, hname, hkept _ _ hentry, if_false, Bool.false_eq_true] using ih
  | case12 here name rest hslash hname target hentry hlast =>
    simp only [reduceCtorEq, false_implies, true_and]
    intro directory target' rest' hcross
    simp only [leg, hslash, hname, hkept _ _ hentry, hlast, if_false, Bool.false_eq_true]
    exact hcross

/-- A path that led to a free name leads to the file made there. -/
theorem walk_create {links : Nat}
    (h : tree.walk purpose links slash here steps = .ok (.absent location)) (bytes : ByteArray) :
    (tree.create location (.data bytes)).walk purpose links slash here steps =
      .ok (.present location) := by
  have hnone := entry?_of_walk_absent h
  induction links generalizing slash here steps with
  | zero =>
    rw [walk] at h ⊢
    split at h
    · next place hleg =>
      cases h
      rw [(leg_create hnone bytes).1 hleg]
    · simp at h
    · simp at h
  | succ links ih =>
    rw [walk] at h ⊢
    split at h
    · next place hleg =>
      cases h
      rw [(leg_create hnone bytes).1 hleg]
    · simp at h
    · next directory target rest hleg =>
      rw [(leg_create hnone bytes).2 _ _ _ hleg]
      exact ih h

theorem place_create {path : Text} (h : tree.place purpose path = .ok (.absent location))
    (bytes : ByteArray) :
    (tree.create location (.data bytes)).place purpose path = .ok (.present location) := by
  rw [Tree.place] at h ⊢
  split at h
  · simp at h
  · exact walk_create h bytes

end

/-- The tree `next` is `tree` but for one entry, which is now a file of its own with these bytes. Two
other entries are names of one object exactly if they were so before (`shared`). -/
structure Replaced (tree next : Tree) (place : Location) (bytes : ByteArray) : Prop where
  directories : next.directories = tree.directories
  mounts : next.mounts = tree.mounts
  working : next.working = tree.working
  entry : next.entry? place = some (.object (.data bytes))
  own : ∀ other, next.isSameObject place other = true → other = place
  others : ∀ other, other ≠ place → next.entry? other = tree.entry? other
  shared : ∀ other further, other ≠ place → further ≠ place →
    next.isSameObject other further = tree.isSameObject other further

theorem replaced_create {tree : Tree} {place : Location} (h : tree.isDirectory place ≠ true)
    (bytes : ByteArray) :
    Replaced tree ((tree.unlink place).create place (.data bytes)) place bytes := by
  have hkind : (tree.unlink place).isDirectory place ≠ true := h
  refine ⟨rfl, rfl, rfl, entry?_create_self hkind _, fun other hsame => ?_, fun other hne => ?_,
    fun other further hne hne' => ?_⟩
  · rw [isSameObject, object?_create_self] at hsame
    simpa using hsame
  · rw [entry?_create hne, entry?_unlink hne]
  · rw [isSameObject, isSameObject, object?_create hne, object?_unlink hne]
    cases tree.object? other with
    | none => rfl
    | some object => exact contains_without hne' object

end Tree

end SceneDowngrade.Files
