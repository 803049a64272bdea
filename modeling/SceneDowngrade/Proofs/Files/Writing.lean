import SceneDowngrade.Files.Volume
import SceneDowngrade.Proofs.Files.Walks

/-!
# What a write changes

Writing to a path makes one file or changes the data of one. No walk notices it, and of the files
that were there only the one written to has other bytes afterwards, under all its names.
-/
namespace SceneDowngrade.Text

theorem bytes_injective {text other : Text} (h : text.bytes = other.bytes) : text = other := by
  have hbytes : (String.ofList text).toByteArray = (String.ofList other).toByteArray := h
  simpa using congrArg String.toList (String.toByteArray_inj.1 hbytes)

theorem bytes_of_ofBytes? {data : ByteArray} {text : Text} (h : ofBytes? data = some text) :
    text.bytes = data := by
  rw [ofBytes?, String.fromUTF8?] at h
  split at h
  · obtain rfl := Option.some_inj.1 h
    simp [bytes, String.fromUTF8]
  · simp at h

theorem ofBytes?_bytes (text : Text) : ofBytes? text.bytes = some text := by
  have hvalid : (String.ofList text).toByteArray.IsValidUTF8 := (String.ofList text).isValidUTF8
  rw [ofBytes?, bytes, String.toUTF8_eq_toByteArray, String.fromUTF8?, dif_pos hvalid]
  exact congrArg some String.toList_ofList

end SceneDowngrade.Text

namespace SceneDowngrade.Files.Tree

def file? (tree : Tree) (location : Location) : Option Object :=
  if tree.isDirectory location then none else tree.object? location

section
variable {tree : Tree} {location other : Location}

theorem entry?_eq_object_iff {content : Content} :
    tree.entry? location = some (.object content) ↔
      ∃ object, tree.file? location = some object ∧ object.content = content := by
  unfold entry? file?
  cases tree.isDirectory location <;> simp

theorem data?_eq_some_iff {bytes : ByteArray} :
    tree.data? location = some bytes ↔ tree.entry? location = some (.object (.data bytes)) := by
  rw [data?]
  split
  · next found hfound => simp [hfound]
  · next hnone => simp only [reduceCtorEq, false_iff]; exact fun h => hnone bytes h

theorem contains_of_find? {objects : List Object} {object : Object}
    (h : objects.find? (·.names.contains location) = some object) :
    object.names.contains location = true := by
  have hfound := List.find?_some h
  exact hfound

theorem find?_changeObject (change : Object → Object) (hnames : ∀ o, (change o).names = o.names)
    (objects : List Object) :
    (changeObject location change objects).find? (·.names.contains other) =
      (objects.find? (·.names.contains other)).map fun object =>
        if objects.find? (·.names.contains location) = some object then change object
        else object := by
  induction objects with
  | nil => rfl
  | cons object rest ih =>
    rw [changeObject]
    cases hlocation : object.names.contains location with
    | true =>
      simp only [if_true, List.find?_cons, hlocation, hnames]
      cases hother : object.names.contains other with
      | true => simp
      | false =>
        cases hfind : rest.find? (·.names.contains other) with
        | none => rfl
        | some found =>
          -- the object found has the other name, this one does not
          have hname := contains_of_find? hfind
          have hne : object ≠ found := fun h => by rw [h, hname] at hother; cases hother
          simp [hne]
    | false =>
      simp only [Bool.false_eq_true, if_false, List.find?_cons, hlocation]
      cases hother : object.names.contains other with
      | true =>
        have hne : rest.find? (·.names.contains location) ≠ some object := fun h => by
          have hname := contains_of_find? h
          rw [hlocation] at hname
          cases hname
        rw [Option.map_some, if_neg hne]
      | false => exact ih

theorem object?_setContent (content : Content) :
    (tree.setContent location content).object? other =
      (tree.object? other).map fun object =>
        if tree.object? location = some object then { object with content } else object :=
  find?_changeObject (fun object => { object with content }) (fun _ => rfl) tree.objects

theorem file?_setContent (content : Content) :
    (tree.setContent location content).file? other =
      (tree.file? other).map fun object =>
        if tree.object? location = some object then { object with content } else object := by
  have hdirectory : (tree.setContent location content).isDirectory other = tree.isDirectory other :=
    rfl
  rw [file?, file?, hdirectory]
  split
  · rfl
  · exact object?_setContent content

theorem object?_of_file? {object : Object} (h : tree.file? location = some object) :
    tree.object? location = some object := by
  rw [file?] at h
  split at h
  · simp at h
  · exact h

theorem keeps_setContent {bytes : ByteArray}
    (h : tree.entry? location = some (.object (.data bytes))) (new : ByteArray) :
    Keeps tree (tree.setContent location (.data new)) := by
  obtain ⟨object, hobject, hcontent⟩ := entry?_eq_object_iff.1 h
  have hfound := object?_of_file? hobject
  constructor
  · rfl
  · intro other hother
    have hdirectory : tree.isDirectory other = true := entry?_eq_directory_iff.1 hother
    exact entry?_eq_directory_iff.2 hdirectory
  · intro other bytes' hother
    obtain ⟨found, hfile, hdata⟩ := entry?_eq_object_iff.1 hother
    by_cases he : object = found
    · refine ⟨new, entry?_eq_object_iff.2 ⟨_, by rw [file?_setContent, hfile]; rfl, ?_⟩⟩
      simp [hfound, he]
    · refine ⟨bytes', entry?_eq_object_iff.2 ⟨_, by rw [file?_setContent, hfile]; rfl, ?_⟩⟩
      simp [hfound, he, hdata]
  · intro other target hother
    obtain ⟨found, hfile, hlink⟩ := entry?_eq_object_iff.1 hother
    have hne : object ≠ found := fun he => by simp [← he, hcontent] at hlink
    refine entry?_eq_object_iff.2 ⟨_, by rw [file?_setContent, hfile]; rfl, ?_⟩
    simp [hfound, hne, hlink]

theorem object?_create {content : Content} (hne : other ≠ location) :
    (tree.create location content).object? other = tree.object? other :=
  List.find?_cons_of_neg (by simp [hne])

theorem file?_create {content : Content} (hne : other ≠ location) :
    (tree.create location content).file? other = tree.file? other := by
  rw [file?, file?, object?_create hne]
  rfl

theorem keeps_create (h : tree.entry? location = none) (content : Content) :
    Keeps tree (tree.create location content) := by
  have hother : ∀ {other entry}, tree.entry? other = some entry → other ≠ location := by
    rintro other entry hentry rfl
    simp [h] at hentry
  have hobject : ∀ {other content'}, tree.entry? other = some (.object content') →
      Tree.entry? (tree.create location content) other = some (.object content') := by
    intro other content' hentry
    rw [entry?_eq_object_iff, file?_create (hother hentry)]
    exact entry?_eq_object_iff.1 hentry
  constructor
  · rfl
  · intro other hentry
    have hdirectory : tree.isDirectory other = true := entry?_eq_directory_iff.1 hentry
    exact entry?_eq_directory_iff.2 hdirectory
  · intro other bytes hentry
    exact ⟨bytes, hobject hentry⟩
  · intro other target hentry
    exact hobject hentry

end

theorem entry?_of_leg_absent {tree : Tree} {purpose : Purpose} {slash : Bool}
    {here location : Location} {steps : List Step}
    (h : tree.leg purpose slash here steps = .stopped (.absent location)) :
    tree.entry? location = none := by
  fun_induction leg tree purpose slash here steps with
  | case6 here name rest hslash hname hentry hrest =>
    obtain rfl : here ++ [name] = location := by simpa using h
    exact hentry
  | case2 here rest ih | case3 here rest ih => exact ih h
  | case8 here name rest hslash hname hentry ih => exact ih h
  | case1 | case4 | case5 | case7 | case9 | case10 | case11 | case12 => simp at h

theorem entry?_of_walk_absent {tree : Tree} {purpose : Purpose} {links : Nat} {slash : Bool}
    {here location : Location} {steps : List Step}
    (h : tree.walk purpose links slash here steps = .ok (.absent location)) :
    tree.entry? location = none := by
  induction links generalizing slash here steps with
  | zero =>
    rw [walk] at h
    split at h
    · next place hleg =>
      cases h
      exact entry?_of_leg_absent hleg
    · simp at h
    · simp at h
  | succ links ih =>
    rw [walk] at h
    split at h
    · next place hleg =>
      cases h
      exact entry?_of_leg_absent hleg
    · simp at h
    · exact ih h

section
variable {tree next : Tree} {path source dest : Text} {location : Location} {bytes old : ByteArray}

theorem entry?_of_place_absent {purpose : Purpose}
    (h : tree.place purpose path = .ok (.absent location)) : tree.entry? location = none := by
  rw [Tree.place] at h
  split at h
  · simp at h
  · exact entry?_of_walk_absent h

theorem Keeps.place (hkeeps : Keeps tree next) {purpose : Purpose}
    (h : tree.place purpose path = .ok (.present location)) :
    next.place purpose path = .ok (.present location) := by
  obtain ⟨hfault, hleads⟩ := place_eq_present_iff.1 h
  have hstart : next.startOf (.ofPath path) = tree.startOf (.ofPath path) := by
    rw [startOf, startOf, hkeeps.working]
  refine place_eq_present_iff.2 ⟨hfault, ?_⟩
  rw [RouteLeads, hstart]
  exact hkeeps.leads hleads

theorem readBytes_eq_ok_iff : tree.readBytes path = .ok bytes ↔
    ∃ location, tree.place .find path = .ok (.present location) ∧
      tree.data? location = some bytes := by
  rw [readBytes]
  cases hplace : tree.place .find path with
  | error fault => simp [bind, Except.bind]
  | ok place =>
    cases place with
    | absent location => simp [bind, Except.bind, throw, throwThe, MonadExceptOf.throw]
    | present location =>
      cases hdata : tree.data? location <;>
        simp [bind, Except.bind, hdata, throw, throwThe, MonadExceptOf.throw, pure, Except.pure]

theorem read_of_readBytes {text : Text} (h : tree.readBytes path = .ok text.bytes) :
    tree.read path = .ok text := by
  rw [read, h]
  simp [bind, Except.bind, Text.ofBytes?_bytes, pure, Except.pure]

theorem read_eq_ok {text : Text} (h : tree.read path = .ok text) : ∃ location,
    tree.place .find path = .ok (.present location) ∧
      tree.data? location = some text.bytes ∧ tree.readBytes path = .ok text.bytes := by
  rw [read] at h
  cases hbytes : tree.readBytes path with
  | error fault => simp [hbytes, bind, Except.bind] at h
  | ok bytes =>
    cases htext : Text.ofBytes? bytes with
    | none => simp [hbytes, htext, bind, Except.bind, throw, throwThe, MonadExceptOf.throw] at h
    | some found =>
      obtain rfl : found = text := by
        simpa [hbytes, htext, bind, Except.bind, pure, Except.pure] using h
      obtain rfl := Text.bytes_of_ofBytes? htext
      obtain ⟨location, hplace, hdata⟩ := readBytes_eq_ok_iff.1 hbytes
      exact ⟨location, hplace, hdata, rfl⟩

theorem writeBytes_cases (h : tree.writeBytes path bytes = .ok next) :
    (∃ location, tree.place .write path = .ok (.absent location) ∧
        next = tree.create location (.data bytes)) ∨
      ∃ location, tree.place .write path = .ok (.present location) ∧
        tree.isDirectory location = false ∧ next = tree.setContent location (.data bytes) := by
  rw [writeBytes] at h
  cases hplace : tree.place .write path with
  | error fault => simp [hplace, bind, Except.bind] at h
  | ok place =>
    cases place with
    | absent location =>
      simp only [hplace, bind, Except.bind, pure, Except.pure, Except.ok.injEq] at h
      exact .inl ⟨location, rfl, h.symm⟩
    | present location =>
      cases hdirectory : tree.isDirectory location with
      | true =>
        simp [hplace, hdirectory, bind, Except.bind, throw, throwThe, MonadExceptOf.throw] at h
      | false =>
        simp [hplace, hdirectory, bind, Except.bind, pure, Except.pure] at h
        exact .inr ⟨location, rfl, hdirectory, h.symm⟩

theorem writeBytes_of_present (h : tree.place .write path = .ok (.present location))
    (hdirectory : tree.isDirectory location ≠ true) (bytes : ByteArray) :
    tree.writeBytes path bytes = .ok (tree.setContent location (.data bytes)) := by
  simp [writeBytes, h, hdirectory, bind, Except.bind, pure, Except.pure]

theorem data?_eq_some_iff_file? : tree.data? location = some bytes ↔
    ∃ object, tree.file? location = some object ∧ object.content = .data bytes := by
  rw [data?_eq_some_iff, entry?_eq_object_iff]

theorem not_isDirectory_of_file?_eq {other : Location} (hdata : tree.data? location = some bytes)
    (hfile : tree.file? location = tree.file? other) : tree.isDirectory other ≠ true := by
  intro hdirectory
  obtain ⟨object, hobject, -⟩ := data?_eq_some_iff_file?.1 hdata
  rw [hfile, file?, if_pos hdirectory] at hobject
  simp at hobject

/-- After a write to `dest` the file at `source` has the bytes written if it is the file that `dest`
leads to, under whatever name, and the bytes that it had otherwise. -/
theorem Rooted.readBytes_writeBytes (hroot : tree.Rooted)
    (hsource : tree.place .find source = .ok (.present location))
    (hold : tree.data? location = some old) (hwrite : tree.writeBytes dest bytes = .ok next) :
    ((∃ target, tree.place .write dest = .ok (.present target) ∧
        tree.file? location = tree.file? target) → next.readBytes source = .ok bytes) ∧
      ((¬ ∃ target, tree.place .write dest = .ok (.present target) ∧
        tree.file? location = tree.file? target) → next.readBytes source = .ok old) := by
  obtain ⟨object, hobject, hcontent⟩ := data?_eq_some_iff_file?.1 hold
  rcases writeBytes_cases hwrite with ⟨target, hplace, rfl⟩ | ⟨target, hplace, hdirectory, rfl⟩
  · -- a new file, so every file that was there is as before
    have habsent := entry?_of_place_absent hplace
    have hne : location ≠ target := by
      rintro rfl
      rw [data?_eq_some_iff, habsent] at hold
      simp at hold
    have hread : (tree.create target (.data bytes)).readBytes source = .ok old := by
      refine readBytes_eq_ok_iff.2 ⟨location, (keeps_create habsent _).place hsource, ?_⟩
      rw [data?_eq_some_iff_file?, file?_create hne]
      exact ⟨object, hobject, hcontent⟩
    refine ⟨?_, fun _ => hread⟩
    rintro ⟨other, hother, -⟩
    simp [hplace] at hother
  · obtain ⟨-, hleads⟩ := place_eq_present_iff.1 hplace
    obtain ⟨_, hentry⟩ := (hroot.isDirectory_or_data (by decide) (hroot.isDirectory_startOf _)
      hleads).resolve_left (by simp [hdirectory])
    have hfile : tree.file? target = tree.object? target := by simp [file?, hdirectory]
    have hplace' := (keeps_setContent hentry bytes).place hsource
    have hshared : (∃ other, tree.place .write dest = .ok (.present other) ∧
        tree.file? location = tree.file? other) ↔ tree.object? target = some object := by
      rw [← hfile, ← hobject]
      simp [hplace, eq_comm]
    rw [hshared]
    constructor
    · intro hsame
      refine readBytes_eq_ok_iff.2 ⟨location, hplace', ?_⟩
      rw [data?_eq_some_iff_file?, file?_setContent, hobject]
      exact ⟨_, rfl, by simp [hsame]⟩
    · intro hother
      refine readBytes_eq_ok_iff.2 ⟨location, hplace', ?_⟩
      rw [data?_eq_some_iff_file?, file?_setContent, hobject]
      exact ⟨_, rfl, by simp [hother, hcontent]⟩

end

end SceneDowngrade.Files.Tree
