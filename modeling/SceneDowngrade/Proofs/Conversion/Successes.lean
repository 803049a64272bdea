import SceneDowngrade.Proofs.Conversion.SourceSafety
import SceneDowngrade.Proofs.Files.Copies

/-!
# What a conversion that ends well has done

A conversion that is not in place writes the text that the text of the source is downgraded to. It
writes it once, to the file that the destination leads to, and does nothing else to the tree. In
place, that file is staged under a name that was free and moved over the source. The source holds
its old text as long as the scene is staged, and the new one from then on; nothing else in the tree
is another than before.
-/
namespace SceneDowngrade.Conversion

open Files (Tree Location)

variable {tree staged next : Tree} {source dest text : Text} {settings : Settings}
  {scene : Scene.Downgraded}

/-! ## Into a copy -/

/-- A conversion into a copy that ends well has written the downgraded text to the destination, and
reports the statistics of the downgrade. All else in the tree is what a write leaves. -/
theorem written_of_success (hroot : tree.Rooted) (hplace : settings.inPlace = false)
    {converted : Converted} (hresult : resultOf tree source dest settings = .ok converted) :
    ∃ text scene target, tree.read source = .ok text ∧
      Scene.downgradeLines text.lines = .ok scene ∧ Scene.downgrade text = .ok scene.toText ∧
      converted = ⟨dest, scene.stats⟩ ∧
      (treeAfter tree source dest settings).read dest = .ok scene.toText ∧
      Tree.Written tree (treeAfter tree source dest settings) dest target scene.toText.bytes := by
  have hending := ending tree source dest settings
  rw [hresult] at hending
  generalize treeAfter tree source dest settings = next at hending
  cases hending with
  | moved _ _ hmoved => simp [hplace] at hmoved
  | copied h hwrite =>
    obtain ⟨target, hwritten⟩ := hroot.written hwrite
    exact ⟨_, _, target, h.read, h.scene, h.downgrade, rfl,
      Tree.read_of_readBytes hwritten.readBytes, hwritten⟩

/-- A scene and a symbolic link that leads nowhere. -/
def danglingTree : Tree :=
  { objects := [⟨[[['m']]], .data sampleText.bytes⟩, ⟨[[['n']]], .link ['x']⟩] }

theorem written_of_success_at_link : ∃ converted,
    resultOf danglingTree ['m'] ['n'] {} = .ok converted ∧
      ∃ text scene target, danglingTree.read ['m'] = .ok text ∧
        Scene.downgradeLines text.lines = .ok scene ∧ Scene.downgrade text = .ok scene.toText ∧
        converted = ⟨['n'], scene.stats⟩ ∧
        (treeAfter danglingTree ['m'] ['n'] {}).read ['n'] = .ok scene.toText ∧
        Tree.Written danglingTree (treeAfter danglingTree ['m'] ['n'] {}) ['n'] target
          scene.toText.bytes := by
  have hroot : danglingTree.Rooted := Tree.rooted_of_no_directories rfl rfl
  obtain ⟨scene, hscene⟩ : ∃ scene, Scene.downgradeText sampleText = .ok scene := ⟨_, rfl⟩
  have hprepared : Prepared danglingTree ['m'] ['n'] sampleText scene :=
    ⟨rfl, Tree.read_of_readBytes rfl, hscene⟩
  have hwrite : danglingTree.write ['n'] scene.toText =
    .ok (danglingTree.create [['x']] (.data scene.toText.bytes)) := rfl
  have hresult : resultOf danglingTree ['m'] ['n'] {} = .ok ⟨['n'], scene.stats⟩ := by
    rw [resultOf, run_convertFile_of_prepared hprepared, run_deliver_copy rfl hwrite]
  exact ⟨_, hresult, written_of_success hroot rfl hresult⟩

/-! ## In place -/

/-- The text at the source has been replaced by way of the destination. `entry` is what the source
path names, which may be a link to the file that held the text. -/
structure Replacement (tree staged next : Tree) (source dest text : Text)
    (scene : Scene.Downgraded) (entry : Location) : Prop where
  read : tree.read source = .ok text
  downgraded : Scene.downgrade text = .ok scene.toText
  write : tree.write dest scene.toText = .ok staged
  kept : staged.read source = .ok text
  rename : staged.rename dest source = .ok next
  result : next.read source = .ok scene.toText
  cleared : next.Unnamed dest
  named : tree.place .entry source = .ok (.present entry)
  replaced : Tree.Replaced tree next entry scene.toText.bytes
  linked : ∀ link, tree.entry? entry = some (.object (.link link)) →
    ∃ location, tree.place .find source = .ok (.present location) ∧
      next.data? location = some text.bytes

/-- The parts of a move over the source that is known to have succeeded. -/
theorem Prepared.replacement (h : Prepared tree source dest text scene) (hroot : tree.Rooted)
    (hunnamed : tree.Unnamed dest) (hwrite : tree.write dest scene.toText = .ok staged)
    (hrename : staged.rename dest source = .ok next) :
    ∃ entry, Replacement tree staged next source dest text scene entry := by
  obtain ⟨location, hsource, hdata, -⟩ := Tree.read_eq_ok h.read
  have hentry := Tree.data?_eq_some_iff.1 hdata
  have hfile := Tree.not_isDirectory_of_object hentry
  obtain ⟨directory, name, last, hnamed, hleads⟩ := hroot.place_entry hsource hfile
  obtain ⟨content, hcontent⟩ := hleads.object hfile
  obtain ⟨stage, hnone, rfl, hdest⟩ := hroot.created_of_unnamed hunnamed hwrite
  have hkeeps := Tree.keeps_create hnone (.data scene.toText.bytes)
  have hstage : ∀ place, tree.entry? place ≠ none → place ≠ stage := by
    rintro place hplace rfl
    exact hplace hnone
  have hreplaced : Tree.Replaced tree next (directory ++ [name]) scene.toText.bytes := by
    have hkind := Tree.not_isDirectory_of_object hcontent
    have hfree := hstage (directory ++ [name]) (by simp [hcontent])
    exact Tree.replaced_of_rename hnone hdest (hkeeps.place hnamed) hkind hfree hrename
  have hkept : (tree.create stage (.data scene.toText.bytes)).readBytes source = .ok text.bytes := by
    refine Tree.readBytes_eq_ok_iff.2 ⟨location, hkeeps.place hsource, ?_⟩
    rw [Tree.data?_eq_some_iff, Tree.entry?_create (hstage location (by simp [hentry]))]
    exact hentry
  refine ⟨directory ++ [name], h.read, h.downgrade, hwrite,
    Tree.read_of_readBytes hkept, hrename,
    Tree.read_of_readBytes (hreplaced.readBytes hroot hnamed hleads hfile),
    hreplaced.unnamed hroot hleads hfile hunnamed, hnamed, hreplaced, ?_⟩
  intro link hlink
  refine ⟨location, hsource, ?_⟩
  have hne : location ≠ directory ++ [name] := by
    rintro rfl
    simp [hlink] at hentry
  rw [Tree.data?_eq_some_iff, hreplaced.others location hne]
  exact hentry

/-- A conversion in place by way of a path without an entry ends with the new text at the source and
nothing else changed, if it ends well; the source has its old text until the move. -/
theorem replacement_of_success (hroot : tree.Rooted) (hplace : settings.inPlace = true)
    (hunnamed : tree.Unnamed dest) {converted : Converted}
    (hresult : resultOf tree source dest settings = .ok converted) :
    ∃ text scene staged entry, converted = ⟨source, scene.stats⟩ ∧
      Replacement tree staged (treeAfter tree source dest settings) source dest text scene entry := by
  have hending := ending tree source dest settings
  rw [hresult] at hending
  generalize treeAfter tree source dest settings = next at hending
  cases hending with
  | copied _ _ hcopied => simp [hplace] at hcopied
  | moved h hwrite _ hrename =>
    obtain ⟨entry, hreplacement⟩ := h.replacement hroot hunnamed hwrite hrename
    exact ⟨_, _, _, entry, rfl, hreplacement⟩

/-- A scene with a symbolic link to it. -/
def linkedTree : Tree :=
  { objects := [⟨[[['m']]], .data sampleText.bytes⟩, ⟨[[['s']]], .link ['m']⟩] }

theorem replacement_of_success_at_link : ∃ converted,
    resultOf linkedTree ['s'] ['n'] { inPlace := true } = .ok converted ∧
      ∃ text scene staged entry, converted = ⟨['s'], scene.stats⟩ ∧
        Replacement linkedTree staged (treeAfter linkedTree ['s'] ['n'] { inPlace := true })
          ['s'] ['n'] text scene entry := by
  have hroot : linkedTree.Rooted := Tree.rooted_of_no_directories rfl rfl
  have hunnamed : linkedTree.Unnamed ['n'] := by
    intro location h
    have hentry : linkedTree.place .entry ['n'] = .ok (.absent [['n']]) := rfl
    simp [hentry] at h
  obtain ⟨scene, hscene⟩ : ∃ scene, Scene.downgradeText sampleText = .ok scene := ⟨_, rfl⟩
  have hprepared : Prepared linkedTree ['s'] ['n'] sampleText scene :=
    ⟨rfl, Tree.read_of_readBytes rfl, hscene⟩
  have hwrite : linkedTree.write ['n'] scene.toText =
    .ok (linkedTree.create [['n']] (.data scene.toText.bytes)) := rfl
  have hresult : resultOf linkedTree ['s'] ['n'] { inPlace := true } =
      .ok ⟨['s'], scene.stats⟩ := by
    rw [resultOf, run_convertFile_of_prepared hprepared, run_deliver_inPlace rfl hwrite]
    rfl
  exact ⟨_, hresult, replacement_of_success hroot rfl hunnamed hresult⟩

end SceneDowngrade.Conversion
