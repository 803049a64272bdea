import SceneDowngrade.Proofs.Files.Staging

/-!
# Moving and removing by path

A file written to a path that no entry had can be moved over an entry of the same device, or be
removed again. After the move the path names nothing, and the entry moved over is the file.
-/
namespace SceneDowngrade.Files.Tree

/-- No entry has the path as its name. -/
def Unnamed (tree : Tree) (path : Text) : Prop :=
  ∀ location, tree.place .entry path ≠ .ok (.present location)

/-- All names of an object are on one device. -/
def LinkedWithinDevices (tree : Tree) : Prop :=
  ∀ object ∈ tree.objects, ∀ name ∈ object.names, ∀ other ∈ object.names,
    tree.device name.dropLast = tree.device other.dropLast

section
variable {tree next : Tree} {path other : Text} {location place directory : Location} {name : Text}
  {bytes : ByteArray} {last : Nat}

theorem Rooted.congr (hroot : tree.Rooted) (hdirectories : next.directories = tree.directories)
    (hworking : next.working = tree.working) : next.Rooted := by
  have hsame : next.isDirectory = tree.isDirectory := by
    funext location
    rw [isDirectory, isDirectory, hdirectories]
  constructor
  · rw [hsame, hworking]
    exact hroot.working
  · intro location
    rw [hsame]
    exact hroot.parent

theorem device_congr (hmounts : next.mounts = tree.mounts) (directory : Location) :
    next.device directory = tree.device directory := by
  rw [device, device, hmounts]

theorem LinkedWithinDevices.device_eq (h : tree.LinkedWithinDevices) {object : Object}
    (hlocation : tree.object? location = some object) (hplace : tree.object? place = some object) :
    tree.device location.dropLast = tree.device place.dropLast :=
  h object (List.mem_of_find?_eq_some hlocation)
    location (List.contains_iff_mem.1 (contains_of_find? hlocation))
    place (List.contains_iff_mem.1 (contains_of_find? hplace))

theorem namedObject_eq (h : tree.place .entry path = .ok (.present location))
    (hfile : tree.isDirectory location ≠ true) : tree.namedObject path = .ok location := by
  simp [namedObject, h, hfile, bind, Except.bind, pure, Except.pure]

theorem nameFor_eq (h : tree.place .entry path = .ok (.present location))
    (hfile : tree.isDirectory location ≠ true) : tree.nameFor path = .ok location := by
  simp [nameFor, h, hfile, bind, Except.bind, pure, Except.pure]

/-- An entry that is not a directory is moved over another one unless they are on two devices. -/
theorem rename_eq (hpath : tree.place .entry path = .ok (.present location))
    (hlocation : tree.isDirectory location ≠ true)
    (hother : tree.place .entry other = .ok (.present place))
    (hplace : tree.isDirectory place ≠ true) :
    tree.rename path other =
      if tree.device location.dropLast ≠ tree.device place.dropLast then .error .otherDevice
      else .ok (if tree.isSameObject location place then tree else tree.move location place) := by
  rw [rename, namedObject_eq hpath hlocation, nameFor_eq hother hplace]
  by_cases hdevice : tree.device location.dropLast = tree.device place.dropLast
  · cases hsame : tree.isSameObject location place <;>
      simp [hdevice, hsame, bind, Except.bind, pure, Except.pure]
  · simp [hdevice, bind, Except.bind, throw, throwThe, MonadExceptOf.throw]

theorem remove_eq (hpath : tree.place .entry path = .ok (.present location))
    (hlocation : tree.isDirectory location ≠ true) :
    tree.remove path = .ok (tree.unlink location) := by
  simp [remove, namedObject_eq hpath hlocation, bind, Except.bind, pure, Except.pure]

/-- The entry of a path to a file, which leads there, can be removed, and can be moved onto the
entry of another path to a file unless that is on another device. -/
theorem Rooted.movable (hroot : tree.Rooted)
    (hpath : tree.place .find path = .ok (.present location))
    (hlocation : tree.isDirectory location ≠ true)
    (hother : tree.place .find other = .ok (.present place))
    (hplace : tree.isDirectory place ≠ true) :
    ∃ directory name last entry,
      tree.place .entry path = .ok (.present (directory ++ [name])) ∧
      tree.place .entry other = .ok (.present entry) ∧
      Leads tree .find last false directory [.enter name] location ∧
      tree.remove path = .ok (tree.unlink (directory ++ [name])) ∧
      ∀ fault, tree.rename path other = .error fault ↔
        fault = .otherDevice ∧ tree.device directory ≠ tree.device entry.dropLast := by
  obtain ⟨directory, name, last, hentry, hleads⟩ := hroot.place_entry hpath hlocation
  obtain ⟨above, found, _, hentry', hleads'⟩ := hroot.place_entry hother hplace
  have hfile := hleads.not_isDirectory hlocation
  refine ⟨directory, name, last, above ++ [found], hentry, hentry', hleads,
    remove_eq hentry hfile, fun fault => ?_⟩
  rw [rename_eq hentry hfile hentry' (hleads'.not_isDirectory hplace), List.dropLast_concat,
    List.dropLast_concat]
  split_ifs with hdevice
  · simp [hdevice, eq_comm]
  · simp [hdevice]

/-- Without the entry that leads to one file, paths to another still lead there. -/
theorem Rooted.readBytes_unlink (hroot : tree.Rooted)
    (hleads : Leads tree .find last false directory [.enter name] location)
    (hfile : tree.isDirectory location ≠ true)
    (hpath : tree.place .find path = .ok (.present place)) (hne : place ≠ location)
    (hdata : tree.data? place = some bytes) :
    (tree.unlink (directory ++ [name])).readBytes path = .ok bytes := by
  have hentry := data?_eq_some_iff.1 hdata
  have hplace : place ≠ directory ++ [name] := by
    rintro rfl
    exact hne (hleads.eq_of_data hentry).symm
  have hdiffer : DifferAt tree (tree.unlink (directory ++ [name])) directory name :=
    ⟨fun other hother => entry?_unlink hother, hleads.filed hfile⟩
  obtain ⟨hfault, hfind⟩ := place_eq_present_iff.1 hpath
  refine readBytes_eq_ok_iff.2 ⟨place, place_eq_present_iff.2 ⟨hfault, ?_⟩, ?_⟩
  · rcases hdiffer.leads hroot (by decide) (hroot.isDirectory_startOf _) hfind with
      hnext | ⟨end', hend, -⟩
    · exact hnext
    · exact absurd (hend.unique hleads) hne
  · rw [data?_eq_some_iff, entry?_unlink hplace]
    exact hentry

/-- A path that leads to a free name, and has no entry, names the file that is made there. -/
theorem Rooted.place_entry_create (hroot : tree.Rooted) (hunnamed : tree.Unnamed path)
    (h : tree.place .write path = .ok (.absent location)) (bytes : ByteArray) :
    (tree.create location (.data bytes)).place .entry path = .ok (.present location) := by
  have hnone := (entry?_eq_none_iff.1 (entry?_of_place_absent h)).1
  obtain ⟨directory, name, rfl⟩ := exists_name_of_not_isDirectory hnone
  have hroot' : (tree.create (directory ++ [name]) (.data bytes)).Rooted := hroot.congr rfl rfl
  have hself := entry?_create_self hnone (.data bytes)
  have hfile := not_isDirectory_of_object hself
  have hfind := hroot'.place_find_of_place_write (place_create h bytes) hfile
  obtain ⟨above, found, last, hentry, -⟩ := hroot'.place_entry hfind hfile
  obtain ⟨hfault, hleads⟩ := place_eq_present_iff.1 hentry
  -- the new file leads to itself, and no other entry is new
  have hdiffer : DifferAt (tree.create (directory ++ [name]) (.data bytes)) tree directory name := by
    refine ⟨fun place hne => (entry?_create hne).symm, fun links place hplace => ?_⟩
    rwa [hplace.eq_of_data hself]
  rcases hdiffer.leads hroot' (by decide) (hroot'.isDirectory_startOf _) hleads with
    hold | ⟨end', hend, -⟩
  · exact absurd (place_eq_present_iff.2 ⟨hfault, hold⟩) (hunnamed _)
  · rwa [hend.eq_of_data hself] at hentry

/-- A write to a path without an entry makes the file that the path then names. -/
theorem Rooted.created_of_unnamed (hroot : tree.Rooted) (hunnamed : tree.Unnamed path)
    (hwrite : tree.writeBytes path bytes = .ok next) :
    ∃ location, tree.entry? location = none ∧ next = tree.create location (.data bytes) ∧
      next.place .entry path = .ok (.present location) := by
  rcases writeBytes_cases hwrite with ⟨location, hplace, rfl⟩ | ⟨location, hplace, hfile, -⟩
  · exact ⟨location, entry?_of_place_absent hplace, rfl,
      hroot.place_entry_create hunnamed hplace bytes⟩
  · have hfile' : tree.isDirectory location ≠ true := by simp [hfile]
    obtain ⟨directory, name, -, hentry, -⟩ :=
      hroot.place_entry (hroot.place_find_of_place_write hplace hfile') hfile'
    exact absurd hentry (hunnamed _)

/-- A file made under a free name takes the place of the entry that it is moved over. -/
theorem replaced_of_rename (hnone : tree.entry? location = none)
    (hpath : (tree.create location (.data bytes)).place .entry path = .ok (.present location))
    (hother : (tree.create location (.data bytes)).place .entry other = .ok (.present place))
    (hplace : tree.isDirectory place ≠ true) (hne : place ≠ location)
    (hrename : (tree.create location (.data bytes)).rename path other = .ok next) :
    Replaced tree next place bytes := by
  rw [rename_eq hpath (entry?_eq_none_iff.1 hnone).1 hother hplace] at hrename
  split at hrename
  · simp at hrename
  · have hsame : (tree.create location (.data bytes)).isSameObject location place = false := by
      rw [isSameObject, object?_create_self]
      simp [hne]
    rw [hsame, if_neg (by decide), move_create hne.symm] at hrename
    obtain rfl := Except.ok.inj hrename
    exact replaced_create hplace bytes

/-- A file that is moved over an entry is what the paths to that entry lead to. -/
theorem Replaced.readBytes (h : Replaced tree next (directory ++ [name]) bytes)
    (hroot : tree.Rooted) (hpath : tree.place .entry path = .ok (.present (directory ++ [name])))
    (hleads : Leads tree .find last false directory [.enter name] location)
    (hfile : tree.isDirectory location ≠ true) : next.readBytes path = .ok bytes := by
  have hdiffer : DifferAt tree next directory name := ⟨h.others, hleads.filed hfile⟩
  obtain ⟨hfault, hentry⟩ := place_eq_present_iff.1 hpath
  have hstart : next.startOf (.ofPath path) = tree.startOf (.ofPath path) := by
    rw [startOf, startOf, h.working]
  have hentry' : RouteLeads next .entry (.ofPath path) (directory ++ [name]) := by
    rw [RouteLeads, hstart]
    rcases hdiffer.leads hroot (by decide) (hroot.isDirectory_startOf _) hentry with
      hnext | ⟨end', hend, hnext⟩
    · exact hnext
    · -- the name is as long as it was, so the file can be walked to
      refine hnext _ (.data ?_ h.entry)
      cases hend <;> assumption
  have hplace := place_find_of_place_entry (place_eq_present_iff.2 ⟨hfault, hentry'⟩)
    (by simp [h.entry])
  exact readBytes_eq_ok_iff.2 ⟨_, hplace, data?_eq_some_iff.2 h.entry⟩

/-- A path without an entry has none after a file is moved over an entry that led to a file. -/
theorem Replaced.unnamed (h : Replaced tree next (directory ++ [name]) bytes)
    (hroot : tree.Rooted) (hleads : Leads tree .find last false directory [.enter name] location)
    (hfile : tree.isDirectory location ≠ true) (hunnamed : tree.Unnamed path) :
    next.Unnamed path := by
  intro place hplace
  have hroot' : next.Rooted := hroot.congr h.directories h.working
  have hdiffer : DifferAt next tree directory name := by
    refine ⟨fun other hne => (h.others other hne).symm, fun links other hother => ?_⟩
    rw [hother.eq_of_data h.entry]
    exact not_isDirectory_of_object h.entry
  obtain ⟨hfault, hentry⟩ := place_eq_present_iff.1 hplace
  have hstart : next.startOf (.ofPath path) = tree.startOf (.ofPath path) := by
    rw [startOf, startOf, h.working]
  have hold : ∃ other, RouteLeads tree .entry (.ofPath path) other := by
    rw [RouteLeads, hstart] at hentry
    rcases hdiffer.leads hroot' (by decide) (hstart ▸ hroot'.isDirectory_startOf _) hentry with
      hold | ⟨end', -, hold⟩
    · exact ⟨place, hold⟩
    · exact ⟨_, hold _ (hleads.names hfile end')⟩
  obtain ⟨other, hother⟩ := hold
  exact hunnamed other (place_eq_present_iff.2 ⟨hfault, hother⟩)

end

end SceneDowngrade.Files.Tree
