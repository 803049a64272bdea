import SceneDowngrade.Proofs.Conversion.SourceSafety
import SceneDowngrade.Proofs.Files.Copies

/-!
# What a failed conversion leaves behind

Nothing has happened when a conversion fails before its write or in it. When the staged file cannot
be moved over the source, removing it takes back the write if that made the file. But a write to a
second name of the source's file has changed the source by then, and a move between two devices
fails. The names of one file are on one device, so one of the two paths must be a link for that.
-/
namespace SceneDowngrade.Conversion

open Files (Tree Location Fault)

/-- The entries that the paths name are on two devices. -/
def AcrossDevices (tree : Tree) (source dest : Text) : Prop :=
  ∃ entry other, tree.place .entry source = .ok (.present entry) ∧
    tree.place .entry dest = .ok (.present other) ∧
    tree.device entry.dropLast ≠ tree.device other.dropLast

/-- The path names a symbolic link. -/
def NamesLink (tree : Tree) (path : Text) : Prop :=
  ∃ entry link, tree.place .entry path = .ok (.present entry) ∧
    tree.entry? entry = some (.object (.link link))

/-- A conversion in place writes to a second name of its source, from where it cannot be moved. -/
structure LosesSource (tree : Tree) (source dest : Text) (settings : Settings) : Prop where
  inPlace : settings.inPlace = true
  overwrites : Overwrites tree source dest
  across : AcrossDevices tree source dest

variable {tree staged : Tree} {source dest text : Text} {settings : Settings}
  {scene : Scene.Downgraded} {location target : Location} {bytes : ByteArray}

/-- The file that a conversion writes does not stand where its source stands. -/
theorem Prepared.apart (h : Prepared tree source dest text scene) (hroot : tree.Rooted)
    (hsource : tree.place .find source = .ok (.present location))
    (hdata : tree.data? location = some text.bytes)
    (hwritten : Tree.Written tree staged dest target bytes) : location ≠ target := by
  rintro rfl
  rcases hwritten.led with hled | hled
  · rw [Tree.data?_eq_some_iff, Tree.entry?_of_place_absent hled] at hdata
    simp at hdata
  · have hfile := Tree.not_isDirectory_of_object (Tree.data?_eq_some_iff.1 hdata)
    have hsame := (takenForSame_iff hroot hsource hled hfile).2 rfl
    rw [h.differ] at hsame
    simp at hsame

theorem Prepared.ne (h : Prepared tree source dest text scene) : source ≠ dest := by
  rintro rfl
  have hdiffer := h.differ
  simp [takenForSame, Files.Route.alike] at hdiffer

/-- What was staged under a path without an entry is gone when it is removed. -/
theorem cleared_of_unnamed (hroot : tree.Rooted) (hunnamed : tree.Unnamed dest)
    (hwrite : tree.writeBytes dest bytes = .ok staged) : cleared staged dest = tree := by
  obtain ⟨location, hnone, rfl, hentry⟩ := hroot.created_of_unnamed hunnamed hwrite
  obtain ⟨hdirectory, hobject⟩ := Tree.entry?_eq_none_iff.1 hnone
  have hremove := Tree.remove_eq hentry hdirectory
  rw [cleared, hremove]
  exact Tree.unlink_create hobject

/-- The staged file can be removed, which leaves the source as the write left it, and it can be
moved over the source unless the two are on different devices. -/
theorem Prepared.movable (h : Prepared tree source dest text scene) (hroot : tree.Rooted)
    (hwrite : tree.write dest scene.toText = .ok staged) :
    removalRecords staged dest = [] ∧
      (cleared staged dest).readBytes source = staged.readBytes source ∧
      ∀ fault, staged.rename dest source = .error fault ↔
        fault = .otherDevice ∧ AcrossDevices staged source dest := by
  obtain ⟨location, hsource, hdata, -⟩ := Tree.read_eq_ok h.read
  obtain ⟨target, hwritten⟩ := hroot.written hwrite
  have hroot' : staged.Rooted := hroot.congr hwritten.directories hwritten.kept.working
  have hne := h.apart hroot hsource hdata hwritten
  have hfile := Tree.not_isDirectory_of_object hwritten.entry
  have hsource' := hwritten.kept.place hsource
  obtain ⟨bytes, hdata'⟩ := hwritten.kept.data (Tree.data?_eq_some_iff.1 hdata)
  obtain ⟨directory, name, last, entry, hdest, hentry, hleads, hremove, hmoved⟩ :=
    hroot'.movable hwritten.place hfile hsource' (Tree.not_isDirectory_of_object hdata')
  have hbytes := Tree.data?_eq_some_iff.2 hdata'
  refine ⟨?_, ?_, fun fault => (hmoved fault).trans (and_congr_right' ?_)⟩
  · rw [removalRecords, hremove]
  · rw [cleared, hremove, Tree.readBytes_eq_ok_iff.2 ⟨location, hsource', hbytes⟩]
    exact hroot'.readBytes_unlink hleads hfile hsource' hne hbytes
  · simp [AcrossDevices, hentry, hdest, eq_comm]

section Overwrites

variable (h : Overwrites tree source dest) (hroot : tree.Rooted)
include h hroot

/-- Paths to one file both name an entry. -/
theorem Overwrites.entries : ∃ entry other, tree.place .entry source = .ok (.present entry) ∧
    tree.place .entry dest = .ok (.present other) := by
  obtain ⟨location, target, text, scene, hsource, hdest, -, hshared, hread, -⟩ := h
  obtain ⟨location', hsource', hdata, -⟩ := Tree.read_eq_ok hread
  obtain rfl : location = location' := by simpa using hsource.symm.trans hsource'
  have hfile := Tree.not_isDirectory_of_object (Tree.data?_eq_some_iff.1 hdata)
  have hfile' := Tree.not_isDirectory_of_file?_eq hdata hshared
  have hdest' := hroot.place_find_of_place_write hdest hfile'
  obtain ⟨directory, name, -, hentry, -⟩ := hroot.place_entry hsource hfile
  obtain ⟨directory', name', -, hentry', -⟩ := hroot.place_entry hdest' hfile'
  exact ⟨_, _, hentry, hentry'⟩

/-- A write to one of two paths to one file leaves their entries on the devices where they were. -/
theorem Overwrites.acrossDevices_iff (hwritten : Tree.Written tree staged dest target bytes) :
    AcrossDevices staged source dest ↔ AcrossDevices tree source dest := by
  obtain ⟨entry, other, hentry, hother⟩ := h.entries hroot
  have hentry' := hwritten.kept.place hentry
  have hother' := hwritten.kept.place hother
  simp [AcrossDevices, hentry, hother, hentry', hother', Tree.device_congr hwritten.mounts]

/-- The names of the file are on one device, so a path that names it elsewhere does so by a link. -/
theorem Overwrites.namesLink (hlinked : tree.LinkedWithinDevices)
    (hacross : AcrossDevices tree source dest) : NamesLink tree source ∨ NamesLink tree dest := by
  by_contra hplain
  obtain ⟨hsource', hdest'⟩ := not_or.1 hplain
  obtain ⟨entry, other, hentry, hother, hdevice⟩ := hacross
  obtain ⟨location, target, text, scene, hsource, hdest, -, hshared, hread, -⟩ := h
  obtain ⟨location', hfind, hdata, -⟩ := Tree.read_eq_ok hread
  obtain rfl : location = location' := by simpa using hsource.symm.trans hfind
  have hfile' := Tree.not_isDirectory_of_file?_eq hdata hshared
  have hnamed := Tree.place_find_of_place_entry hentry fun link hlink =>
    hsource' ⟨entry, link, hentry, hlink⟩
  have hnamed' := Tree.place_find_of_place_entry hother fun link hlink =>
    hdest' ⟨other, link, hother, hlink⟩
  obtain rfl : location = entry := by simpa using hsource.symm.trans hnamed
  obtain rfl : target = other := by
    simpa using (hroot.place_find_of_place_write hdest hfile').symm.trans hnamed'
  obtain ⟨object, hobject, -⟩ := Tree.data?_eq_some_iff_file?.1 hdata
  have hobject' := Tree.object?_of_file? (hshared ▸ hobject)
  exact hdevice (hlinked.device_eq (Tree.object?_of_file? hobject) hobject')

end Overwrites

/-- A second name of the source has been written to by the time that the move fails. -/
theorem LosesSource.lost (h : LosesSource tree source dest settings) (hroot : tree.Rooted) :
    resultOf tree source dest settings = .error (.file source .otherDevice) ∧
      (treeAfter tree source dest settings).readBytes source ≠ tree.readBytes source := by
  obtain ⟨text, scene, staged, hprepared, hwrite⟩ := h.overwrites.prepared hroot
  obtain ⟨target, hwritten⟩ := hroot.written hwrite
  have hacross := (h.overwrites.acrossDevices_iff hroot hwritten).2 h.across
  obtain ⟨-, hcleared, hrename⟩ := hprepared.movable hroot hwrite
  have hfault := (hrename .otherDevice).2 ⟨rfl, hacross⟩
  rw [resultOf, treeAfter, run_convertFile_of_prepared hprepared,
    run_deliver_inPlace h.inPlace hwrite, hfault]
  refine ⟨rfl, ?_⟩
  dsimp only
  rw [hcleared]
  exact fun hkept => (hprepared.readBytes_written_iff hroot hwrite).1 hkept h.overwrites

/-- A conversion that fails has done nothing, or all that failed is the move of the staged file,
which is then removed. -/
theorem kept_or_unmoved {error : Error}
    (hresult : resultOf tree source dest settings = .error error) :
    treeAfter tree source dest settings = tree ∨
      ∃ text scene staged fault, Prepared tree source dest text scene ∧
        tree.write dest scene.toText = .ok staged ∧ settings.inPlace = true ∧
        staged.rename dest source = .error fault ∧ error = .file source fault ∧
        treeAfter tree source dest settings = cleared staged dest := by
  have hending := ending tree source dest settings
  rw [hresult] at hending
  generalize treeAfter tree source dest settings = next at hending ⊢
  cases hending with
  | refusedDestination | unread | refusedText | unwritten => exact .inl rfl
  | unmoved h hwrite hplace hrename =>
    exact .inr ⟨_, _, _, _, h, hwrite, hplace, hrename, rfl, rfl⟩

theorem readBytes_of_error (hroot : tree.Rooted)
    (hkept : ¬ LosesSource tree source dest settings) {error : Error}
    (hresult : resultOf tree source dest settings = .error error) :
    (treeAfter tree source dest settings).readBytes source = tree.readBytes source := by
  rcases kept_or_unmoved hresult with
    hsame | ⟨text, scene, staged, fault, h, hwrite, hplace, hrename, -, hafter⟩
  · rw [hsame]
  · obtain ⟨target, hwritten⟩ := hroot.written hwrite
    obtain ⟨-, hcleared, hfault⟩ := h.movable hroot hwrite
    rw [hafter, hcleared, h.readBytes_written_iff hroot hwrite]
    intro hoverwrites
    have hacross := (hoverwrites.acrossDevices_iff hroot hwritten).1 ((hfault _).1 hrename).2
    exact hkept ⟨hplace, hoverwrites, hacross⟩

theorem treeAfter_of_unnamed (hroot : tree.Rooted) (hunnamed : tree.Unnamed dest) {error : Error}
    (hresult : resultOf tree source dest settings = .error error) :
    treeAfter tree source dest settings = tree := by
  rcases kept_or_unmoved hresult with
    hsame | ⟨text, scene, staged, fault, -, hwrite, -, -, -, hafter⟩
  · exact hsame
  · rw [hafter]
    exact cleared_of_unnamed hroot hunnamed hwrite

/-- A conversion that fails leaves the source as it was, unless it is one in place whose destination
is a second name of the source's file, on another device than the name of the source. Names of one
file are on one device, so it takes a link to name it from another. The whole tree is left as it was
unless all that failed was the move of the staged file and the destination was there before. -/
theorem kept_of_failure_iff (hroot : tree.Rooted) (source dest : Text) (settings : Settings) :
    ((∀ error, resultOf tree source dest settings = .error error →
        (treeAfter tree source dest settings).readBytes source = tree.readBytes source) ↔
      ¬ LosesSource tree source dest settings) ∧
      (LosesSource tree source dest settings → tree.LinkedWithinDevices →
        NamesLink tree source ∨ NamesLink tree dest) ∧
      ∀ error, resultOf tree source dest settings = .error error →
        (∃ refusal, error = .refused refusal) ∨ (∃ path, error = .sameDestination path) ∨
        (∃ fault, tree.read source = .error fault ∧ error = .file source fault) ∨
        (∃ fault, error = .file dest fault) ∨ tree.Unnamed dest →
          treeAfter tree source dest settings = tree := by
  refine ⟨⟨fun hkept hloses => ?_, fun hkept error => readBytes_of_error hroot hkept⟩,
    fun hloses hlinked => hloses.overwrites.namesLink hroot hlinked hloses.across, ?_⟩
  · obtain ⟨hresult, hlost⟩ := hloses.lost hroot
    exact hlost (hkept _ hresult)
  · intro error hresult hcause
    rcases kept_or_unmoved hresult with
      hsame | ⟨text, scene, staged, fault, h, -, -, -, rfl, -⟩
    · exact hsame
    · rcases hcause with
        ⟨refusal, hrefusal⟩ | ⟨path, hpath⟩ | ⟨fault', hfault, -⟩ | ⟨fault', hdest⟩ | hunnamed
      · simp at hrefusal
      · simp at hpath
      · simp [h.read] at hfault
      · exact absurd (Error.file.inj hdest).1 h.ne
      · exact treeAfter_of_unnamed hroot hunnamed hresult

/-- A scene on a device of its own, under two names, and a link to the second one. -/
def mountedTree : Tree :=
  { directories := [[['d']]]
    objects := [⟨[[['d'], ['m']], [['d'], ['n']]], .data sampleText.bytes⟩,
      ⟨[[['l']]], .link "d/n".toList⟩]
    mounts := [[['d']]] }

theorem rooted_mountedTree : mountedTree.Rooted := by
  refine ⟨rfl, fun {location} h => ?_⟩
  obtain rfl | rfl : location = [] ∨ location = [['d']] := by
    simpa [mountedTree, Tree.isDirectory] using h
  · rfl
  · rfl

theorem linkedWithinDevices_mountedTree : mountedTree.LinkedWithinDevices := by
  simp [Tree.LinkedWithinDevices, mountedTree, Tree.device]

/-- The scene cannot be replaced from another device, and what was staged there is removed. -/
theorem kept_of_failure_iff_across_devices :
    resultOf mountedTree "d/m".toList ['k'] { inPlace := true } =
        .error (.file "d/m".toList .otherDevice) ∧
      (treeAfter mountedTree "d/m".toList ['k'] { inPlace := true }).readBytes "d/m".toList =
        mountedTree.readBytes "d/m".toList ∧
      treeAfter mountedTree "d/m".toList ['k'] { inPlace := true } = mountedTree := by
  have hread : mountedTree.read "d/m".toList = .ok sampleText := Tree.read_of_readBytes rfl
  have habsent : mountedTree.place .write ['k'] = .ok (.absent [['k']]) := rfl
  have hunnamed : mountedTree.place .entry ['k'] = .ok (.absent [['k']]) := rfl
  have hresult : resultOf mountedTree "d/m".toList ['k'] { inPlace := true } =
      .error (.file "d/m".toList .otherDevice) := by
    obtain ⟨scene, hscene⟩ : ∃ scene, Scene.downgradeText sampleText = .ok scene := ⟨_, rfl⟩
    have hprepared : Prepared mountedTree "d/m".toList ['k'] sampleText scene :=
      ⟨rfl, hread, hscene⟩
    have hwrite : mountedTree.write ['k'] scene.toText =
      .ok (mountedTree.create [['k']] (.data scene.toText.bytes)) := rfl
    rw [resultOf, run_convertFile_of_prepared hprepared, run_deliver_inPlace rfl hwrite]
    rfl
  obtain ⟨hkept, -, htree⟩ :=
    kept_of_failure_iff rooted_mountedTree "d/m".toList ['k'] { inPlace := true }
  refine ⟨hresult, hkept.2 ?_ _ hresult, htree _ hresult (.inr (.inr (.inr (.inr ?_))))⟩
  · rintro ⟨-, ⟨_, _, _, _, -, hdest, -⟩, -⟩
    simp [habsent] at hdest
  · intro location hentry
    simp [hunnamed] at hentry

theorem losesSource_mountedTree :
    LosesSource mountedTree "d/m".toList ['l'] { inPlace := true } := by
  have hread : mountedTree.read "d/m".toList = .ok sampleText := Tree.read_of_readBytes rfl
  obtain ⟨scene, hscene, hchanged⟩ : ∃ scene, Scene.downgradeText sampleText = .ok scene ∧
      scene.toText ≠ sampleText := ⟨_, rfl, by decide⟩
  exact
    { inPlace := rfl
      overwrites := ⟨[['d'], ['m']], [['d'], ['n']], sampleText, scene, rfl, rfl, by decide, rfl,
        hread, hscene, hchanged⟩
      across := ⟨[['d'], ['m']], [['l']], rfl, rfl, by decide⟩ }

/-- Converted in place by way of a link on another device to its second name, a scene loses the
bytes it had, although the conversion fails. -/
theorem source_lost_across_devices :
    mountedTree.Rooted ∧ mountedTree.LinkedWithinDevices ∧
      resultOf mountedTree "d/m".toList ['l'] { inPlace := true } =
        .error (.file "d/m".toList .otherDevice) ∧
      (treeAfter mountedTree "d/m".toList ['l'] { inPlace := true }).readBytes "d/m".toList ≠
        mountedTree.readBytes "d/m".toList := by
  obtain ⟨hresult, hlost⟩ := losesSource_mountedTree.lost rooted_mountedTree
  exact ⟨rooted_mountedTree, linkedWithinDevices_mountedTree, hresult, hlost⟩

end SceneDowngrade.Conversion
