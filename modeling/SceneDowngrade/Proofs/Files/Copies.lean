import SceneDowngrade.Proofs.Files.Moves

/-!
# What a written file leaves of the tree

A write puts its bytes into one file, under all the names of that file. At most one entry is new, and
no other entry changes, goes, or comes to lead elsewhere.
-/
namespace SceneDowngrade.Files.Tree

/-- The tree `next` is `tree` after a write to a path that leads to `target`. What was there is still
there and leads where it led (`kept`), under the same names as before (`shared`). Only the names of
the file at `target` may have another entry (`others`). -/
structure Written (tree next : Tree) (path : Text) (target : Location) (bytes : ByteArray) :
    Prop where
  directories : next.directories = tree.directories
  mounts : next.mounts = tree.mounts
  led : tree.place .write path = .ok (.absent target) ∨
    tree.place .write path = .ok (.present target)
  place : next.place .find path = .ok (.present target)
  entry : next.entry? target = some (.object (.data bytes))
  kept : Keeps tree next
  shared : ∀ place, tree.entry? place ≠ none →
    ∀ other, next.isSameObject place other = tree.isSameObject place other
  others : ∀ place, next.isSameObject target place = false → next.entry? place = tree.entry? place
  /-- A new entry is the path's own, or the missing target of the link that the path names. -/
  new : ∀ place, tree.entry? place = none → next.entry? place ≠ none →
    place = target ∧ tree.place .write path = .ok (.absent target) ∧
      (next.place .entry path = .ok (.present target) ∨
        ∃ location link, tree.place .entry path = .ok (.present location) ∧
          tree.entry? location = some (.object (.link link)))

section
variable {tree next : Tree} {path : Text} {target location : Location} {bytes : ByteArray}

theorem isSameObject_create_self {content : Content} (place : Location) :
    (tree.create target content).isSameObject target place = decide (place = target) := by
  rw [isSameObject, object?_create_self]
  simp

theorem isSameObject_setContent (content : Content) (place other : Location) :
    (tree.setContent target content).isSameObject place other = tree.isSameObject place other := by
  rw [isSameObject, isSameObject, object?_setContent]
  cases tree.object? place with
  | none => rfl
  | some object =>
    by_cases hsame : tree.object? target = some object <;> simp [hsame]

theorem entry?_setContent_of_not_same {content : Content} {place : Location}
    (h : tree.isSameObject target place = false) :
    Tree.entry? (tree.setContent target content) place = tree.entry? place := by
  refine entry?_congr rfl ?_
  rw [object?_setContent]
  cases hplace : tree.object? place with
  | none => rfl
  | some object =>
    have hne : tree.object? target ≠ some object := by
      intro htarget
      rw [isSameObject, htarget] at h
      exact Bool.false_ne_true (h.symm.trans (contains_of_find? hplace))
    simp [hne]

theorem entry?_setContent_self (h : tree.entry? target = some (.object (.data bytes)))
    (content : Content) :
    Tree.entry? (tree.setContent target content) target = some (.object content) := by
  obtain ⟨object, hobject, -⟩ := entry?_eq_object_iff.1 h
  rw [entry?_eq_object_iff, file?_setContent, hobject, object?_of_file? hobject]
  exact ⟨_, rfl, by simp⟩

/-- A path that leads to a free name and yet has an entry names a link. -/
theorem Rooted.link_of_place_absent (hroot : tree.Rooted)
    (h : tree.place .write path = .ok (.absent target))
    (hentry : tree.place .entry path = .ok (.present location)) :
    ∃ link, tree.entry? location = some (.object (.link link)) := by
  by_contra hlink
  have hnone := entry?_of_place_absent h
  have hfind := place_find_of_place_entry hentry fun link hentry' => hlink ⟨link, hentry'⟩
  -- the same path leads to the file made under the free name
  have hroot' : (tree.create target (.data default)).Rooted := hroot.congr rfl rfl
  have hmade := hroot'.place_find_of_place_write (place_create h default)
    (entry?_eq_none_iff.1 hnone).1
  have hkept := (keeps_create hnone (.data default)).place hfind
  obtain rfl : location = target := by simpa [hkept] using hmade
  rcases hroot.isDirectory_or_data (by decide) (hroot.isDirectory_startOf _)
    (place_eq_present_iff.1 hfind).2 with hdirectory | ⟨_, hdata⟩
  · exact (entry?_eq_none_iff.1 hnone).1 hdirectory
  · simp [hnone] at hdata

theorem Rooted.written_create (hroot : tree.Rooted)
    (h : tree.place .write path = .ok (.absent target)) (bytes : ByteArray) :
    Written tree (tree.create target (.data bytes)) path target bytes := by
  have hnone := entry?_of_place_absent h
  have hroot' : (tree.create target (.data bytes)).Rooted := hroot.congr rfl rfl
  have hself := entry?_create_self (entry?_eq_none_iff.1 hnone).1 (.data bytes)
  refine ⟨rfl, rfl, .inl h, hroot'.place_find_of_place_write (place_create h bytes)
    (not_isDirectory_of_object hself), hself, keeps_create hnone _, ?_, ?_, ?_⟩
  · intro place hplace other
    have hne : place ≠ target := fun he => hplace (he ▸ hnone)
    rw [isSameObject, isSameObject, object?_create hne]
  · intro place hplace
    rw [isSameObject_create_self, decide_eq_false_iff_not] at hplace
    exact entry?_create hplace
  · intro place hold hnew
    have hplace : place = target := by
      by_contra hne
      exact hnew ((entry?_create hne).trans hold)
    refine ⟨hplace, h, ?_⟩
    by_cases hunnamed : tree.Unnamed path
    · exact .inl (hroot.place_entry_create hunnamed h bytes)
    · rw [Unnamed, not_forall_not] at hunnamed
      obtain ⟨location, hlocation⟩ := hunnamed
      obtain ⟨link, hlink⟩ := hroot.link_of_place_absent h hlocation
      exact .inr ⟨location, link, hlocation, hlink⟩

theorem Rooted.written_setContent (hroot : tree.Rooted)
    (h : tree.place .write path = .ok (.present target)) (hfile : tree.isDirectory target ≠ true)
    (bytes : ByteArray) : Written tree (tree.setContent target (.data bytes)) path target bytes := by
  have hfind := hroot.place_find_of_place_write h hfile
  obtain ⟨old, hdata⟩ := (hroot.isDirectory_or_data (by decide) (hroot.isDirectory_startOf _)
    (place_eq_present_iff.1 hfind).2).resolve_left hfile
  have hkeeps := keeps_setContent hdata bytes
  refine ⟨rfl, rfl, .inr h, hkeeps.place hfind, entry?_setContent_self hdata _, hkeeps, ?_, ?_, ?_⟩
  · exact fun place _ other => isSameObject_setContent _ place other
  · intro place hplace
    rw [isSameObject_setContent] at hplace
    exact entry?_setContent_of_not_same hplace
  · intro place hold hnew
    obtain ⟨hdirectory, hobject⟩ := entry?_eq_none_iff.1 hold
    have hnone : Tree.entry? (tree.setContent target (.data bytes)) place = none :=
      entry?_eq_none_iff.2 ⟨hdirectory, by rw [object?_setContent, hobject, Option.map_none]⟩
    exact absurd hnone hnew

theorem Rooted.written (hroot : tree.Rooted) (hwrite : tree.writeBytes path bytes = .ok next) :
    ∃ target, Written tree next path target bytes := by
  rcases writeBytes_cases hwrite with ⟨target, hplace, rfl⟩ | ⟨target, hplace, hfile, rfl⟩
  · exact ⟨target, hroot.written_create hplace bytes⟩
  · exact ⟨target, hroot.written_setContent hplace (by simp [hfile]) bytes⟩

theorem Written.readBytes (h : Written tree next path target bytes) :
    next.readBytes path = .ok bytes :=
  readBytes_eq_ok_iff.2 ⟨target, h.place, data?_eq_some_iff.2 h.entry⟩

end

end SceneDowngrade.Files.Tree
