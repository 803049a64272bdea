import Mathlib.Tactic.ByContra
import SceneDowngrade.Proofs.Conversion.Endings
import SceneDowngrade.Proofs.Files.Writing

/-!
# What a conversion does to its source

Not in place, a conversion writes to its destination only, and refuses a destination that it takes
for the source. It knows the source by its location, so a further name of the same file passes.
-/
namespace SceneDowngrade.Conversion

open Files (Tree Location)

variable {tree next : Tree} {source dest text : Text} {settings : Settings} {scene : Scene.Downgraded}

/-- Paths to two files are taken for the same exactly if they lead to one location. -/
theorem takenForSame_iff {location other : Location} (hroot : tree.Rooted)
    (hsource : tree.place .find source = .ok (.present location))
    (hdest : tree.place .write dest = .ok (.present other))
    (hfile : tree.isDirectory other ≠ true) :
    takenForSame tree source dest = true ↔ location = other := by
  have hcanonical := Tree.canonical?_of_place_find hsource
  have hcanonical' := hroot.canonical?_of_place_write hdest hfile
  rw [takenForSame, Bool.or_eq_true, Tree.sameLocation, hcanonical, hcanonical']
  constructor
  · rintro (halike | hsame)
    · exact Tree.eq_of_alike halike hcanonical hcanonical'
    · simpa using hsame
  · rintro rfl
    exact .inr (by simp)

/-- The destination is a second name of the file at the source, and the conversion has something to
change. -/
def Overwrites (tree : Tree) (source dest : Text) : Prop :=
  ∃ location other text scene,
    tree.place .find source = .ok (.present location) ∧
    tree.place .write dest = .ok (.present other) ∧
    location ≠ other ∧ tree.file? location = tree.file? other ∧
    tree.read source = .ok text ∧ Scene.downgradeText text = .ok scene ∧ scene.toText ≠ text

/-- Nothing keeps a conversion from writing to a second name of its source. -/
theorem Overwrites.prepared (h : Overwrites tree source dest) (hroot : tree.Rooted) :
    ∃ text scene next, Prepared tree source dest text scene ∧
      tree.write dest scene.toText = .ok next := by
  obtain ⟨location, other, text, scene, hsource, hdest, hne, hshared, hread, hscene, -⟩ := h
  obtain ⟨location', hsource', hdata, -⟩ := Tree.read_eq_ok hread
  obtain rfl : location = location' := by simpa using hsource.symm.trans hsource'
  have hfile := Tree.not_isDirectory_of_file?_eq hdata hshared
  have hdiffer : takenForSame tree source dest = false := by
    rw [← Bool.not_eq_true, takenForSame_iff hroot hsource hdest hfile]
    exact hne
  exact ⟨text, scene, _, ⟨hdiffer, hread, hscene⟩,
    Tree.writeBytes_of_present hdest hfile scene.toText.bytes⟩

/-- A write to a second name of the source shows in the source. -/
theorem Overwrites.readBytes_written (h : Overwrites tree source dest) (hroot : tree.Rooted)
    (hprepared : Prepared tree source dest text scene)
    (hwrite : tree.write dest scene.toText = .ok next) :
    scene.toText ≠ text ∧ tree.readBytes source = .ok text.bytes ∧
      next.readBytes source = .ok scene.toText.bytes := by
  obtain ⟨location, other, text', scene', hsource, hdest, -, hshared, hread, hscene, htext⟩ := h
  obtain rfl : text = text' := by simpa [hprepared.read] using hread
  obtain rfl : scene = scene' := by simpa [hprepared.scene] using hscene
  obtain ⟨location', hsource', hdata, hbytes⟩ := Tree.read_eq_ok hread
  obtain rfl : location = location' := by simpa using hsource.symm.trans hsource'
  exact ⟨htext, hbytes,
    (hroot.readBytes_writeBytes hsource hdata hwrite).1 ⟨other, hdest, hshared⟩⟩

theorem readBytes_of_overwrites (hroot : tree.Rooted) (hplace : settings.inPlace = false)
    (h : Overwrites tree source dest) : ∃ (text : Text) (scene : Scene.Downgraded),
      scene.toText ≠ text ∧
      tree.readBytes source = .ok text.bytes ∧
      (treeAfter tree source dest settings).readBytes source = .ok scene.toText.bytes := by
  obtain ⟨text, scene, next, hprepared, hwrite⟩ := h.prepared hroot
  refine ⟨text, scene, ?_⟩
  rw [treeAfter, run_convertFile_of_prepared hprepared, run_deliver_copy hplace hwrite]
  exact h.readBytes_written hroot hprepared hwrite

/-- A file that is written under a second name must have been written as it was. -/
theorem Prepared.toText_eq {location other : Location} (h : Prepared tree source dest text scene)
    (hroot : tree.Rooted) (hkept : ¬ Overwrites tree source dest)
    (hsource : tree.place .find source = .ok (.present location))
    (hdata : tree.data? location = some text.bytes)
    (hdest : tree.place .write dest = .ok (.present other))
    (hfile : tree.file? location = tree.file? other) : scene.toText = text := by
  by_contra htext
  have hdirectory := Tree.not_isDirectory_of_file?_eq hdata hfile
  have hne : location ≠ other := by
    have hdiffer := h.differ
    rw [← Bool.not_eq_true, takenForSame_iff hroot hsource hdest hdirectory] at hdiffer
    exact hdiffer
  exact hkept ⟨location, other, text, scene, hsource, hdest, hne, hfile, h.read, h.scene, htext⟩

/-- After its write, a conversion has kept the bytes at the source unless it has overwritten them. -/
theorem Prepared.readBytes_written_iff (h : Prepared tree source dest text scene)
    (hroot : tree.Rooted) (hwrite : tree.write dest scene.toText = .ok next) :
    next.readBytes source = tree.readBytes source ↔ ¬ Overwrites tree source dest := by
  constructor
  · intro hkept hoverwrites
    obtain ⟨hne, hbefore, hafter⟩ := hoverwrites.readBytes_written hroot h hwrite
    rw [hafter, hbefore] at hkept
    exact hne (Text.bytes_injective (Except.ok.inj hkept))
  · intro hkept
    obtain ⟨location, hsource, hdata, hbytes⟩ := Tree.read_eq_ok h.read
    have hnext := hroot.readBytes_writeBytes hsource hdata hwrite
    rw [hbytes]
    by_cases hshared : ∃ other, tree.place .write dest = .ok (.present other) ∧
        tree.file? location = tree.file? other
    · have ⟨other, hdest, hfile⟩ := hshared
      rw [← h.toText_eq hroot hkept hsource hdata hdest hfile]
      exact hnext.1 hshared
    · exact hnext.2 hshared

theorem readBytes_of_not_overwrites (hroot : tree.Rooted) (hplace : settings.inPlace = false)
    (hkept : ¬ Overwrites tree source dest) :
    (treeAfter tree source dest settings).readBytes source = tree.readBytes source := by
  have hending := ending tree source dest settings
  generalize resultOf tree source dest settings = result at hending
  generalize treeAfter tree source dest settings = next at hending ⊢
  cases hending with
  | refusedDestination | unread | refusedText | unwritten => rfl
  | unmoved _ _ hmoved | moved _ _ hmoved => simp [hplace] at hmoved
  | copied h hwrite => exact (h.readBytes_written_iff hroot hwrite).2 hkept

/-- Not in place, a conversion leaves the bytes at the source as they were, whatever it returns,
unless the destination is a second name of the very file and the conversion has something to change
in it. -/
theorem source_kept_iff (hroot : tree.Rooted) (hplace : settings.inPlace = false)
    (source dest : Text) :
    (treeAfter tree source dest settings).readBytes source = tree.readBytes source ↔
      ¬ Overwrites tree source dest := by
  refine ⟨fun hkept h => ?_, readBytes_of_not_overwrites hroot hplace⟩
  obtain ⟨text, scene, hne, hbefore, hafter⟩ := readBytes_of_overwrites hroot hplace h
  rw [hkept, hbefore] at hafter
  exact hne (Text.bytes_injective (Except.ok.inj hafter)).symm

def sampleText : Text := "[gd_scene format=3]\n".toList

def sampleTree (names : List Location) : Tree :=
  { objects := [⟨[['m']] :: names, .data sampleText.bytes⟩] }

theorem rooted_sampleTree (names : List Location) : (sampleTree names).Rooted :=
  Tree.rooted_of_no_directories rfl rfl

theorem source_kept_iff_at_new_name :
    (treeAfter (sampleTree []) ['m'] ['n'] {}).readBytes ['m'] =
      (sampleTree []).readBytes ['m'] := by
  refine (source_kept_iff (rooted_sampleTree []) rfl ['m'] ['n']).2 ?_
  rintro ⟨location, other, text, scene, -, hdest, -⟩
  have habsent : (sampleTree []).place .write ['n'] = .ok (.absent [['n']]) := rfl
  simp [habsent] at hdest

/-- Converted into its own second name, a scene loses the bytes it had. -/
theorem source_lost_at_second_name :
    (sampleTree [[['n']]]).Rooted ∧
      (treeAfter (sampleTree [[['n']]]) ['m'] ['n'] {}).readBytes ['m'] ≠
        (sampleTree [[['n']]]).readBytes ['m'] := by
  have hroot := rooted_sampleTree [[['n']]]
  have hsource : (sampleTree [[['n']]]).place .find ['m'] = .ok (.present [['m']]) := rfl
  have hdest : (sampleTree [[['n']]]).place .write ['n'] = .ok (.present [['n']]) := rfl
  have hread : (sampleTree [[['n']]]).read ['m'] = .ok sampleText := Tree.read_of_readBytes rfl
  obtain ⟨scene, hscene, hchanged⟩ : ∃ scene, Scene.downgradeText sampleText = .ok scene ∧
      scene.toText ≠ sampleText := ⟨_, rfl, by decide⟩
  have hplace : ({} : Settings).inPlace = false := rfl
  obtain ⟨text, scene, hne, hbefore, hafter⟩ := readBytes_of_overwrites hroot hplace
    ⟨[['m']], [['n']], sampleText, scene, hsource, hdest, by decide, rfl, hread, hscene, hchanged⟩
  refine ⟨hroot, ?_⟩
  rw [hbefore, hafter]
  exact fun h => hne (Text.bytes_injective (Except.ok.inj h))

end SceneDowngrade.Conversion
