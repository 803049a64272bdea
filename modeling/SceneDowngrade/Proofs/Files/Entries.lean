import SceneDowngrade.Proofs.Files.Writing

/-!
# The entry that a path names

A path to a file names one entry, which is the file or a symbolic link that leads on to it. Walks
meet such an entry at their end only: on the way it would have to lead to a directory. So a change
of this one entry is seen by the walks that end with it and by no others.
-/
namespace SceneDowngrade.Files.Tree

section
variable {tree : Tree} {purpose : Purpose} {slash : Bool} {here location other : Location}
  {steps : List Step} {links more : Nat}

theorem Leads.mono (h : Leads tree purpose links slash here steps location) (hle : links ≤ more) :
    Leads tree purpose more slash here steps location := by
  induction h generalizing more with
  | here => exact .here
  | stay _ ih => exact .stay (ih hle)
  | up _ ih => exact .up (ih hle)
  | directory hslash hname hentry _ ih => exact .directory hslash hname hentry (ih hle)
  | data hname hentry => exact .data hname hentry
  | entry hpurpose hname hentry => exact .entry hpurpose hname hentry
  | link hslash hpurpose hname hentry _ ih =>
    obtain ⟨count, rfl⟩ := Nat.exists_eq_add_of_le' hle
    exact .link hslash hpurpose hname hentry (ih (Nat.le_add_left _ count))

/-- Where steps lead does not depend on how many links may still be followed. -/
theorem Leads.unique (h : Leads tree purpose links slash here steps location)
    (h' : Leads tree purpose more slash here steps other) : location = other := by
  have hwalk := walk_of_leads (h.mono (Nat.le_max_left links more))
  have hwalk' := walk_of_leads (h'.mono (Nat.le_max_right links more))
  simpa [hwalk] using hwalk'

theorem plan_eq_find (hpurpose : purpose ≠ .write) (route : Route) :
    route.plan purpose = route.plan .find := by
  cases purpose <;> first | rfl | exact absurd rfl hpurpose

/-- The first steps of a longer walk lead to a directory. -/
theorem Rooted.leads_front (hroot : tree.Rooted) (hpurpose : purpose ≠ .write)
    (hhere : tree.isDirectory here = true) {front rest : List Step} (hrest : rest ≠ [])
    (hsteps : steps = front ++ rest) (h : Leads tree purpose links slash here steps location) :
    ∃ middle, tree.isDirectory middle = true ∧
      Leads tree .find links false here front middle := by
  induction h generalizing front with
  | here => exact absurd (List.append_eq_nil_iff.1 hsteps.symm).2 hrest
  | stay _ ih =>
    cases front with
    | nil => exact ⟨_, hhere, .here⟩
    | cons step front =>
      obtain ⟨rfl, hfront⟩ := List.cons_eq_cons.1 hsteps
      obtain ⟨middle, hmiddle, hleads⟩ := ih hhere hfront
      exact ⟨middle, hmiddle, .stay hleads⟩
  | up _ ih =>
    cases front with
    | nil => exact ⟨_, hhere, .here⟩
    | cons step front =>
      obtain ⟨rfl, hfront⟩ := List.cons_eq_cons.1 hsteps
      obtain ⟨middle, hmiddle, hleads⟩ := ih (hroot.parent hhere) hfront
      exact ⟨middle, hmiddle, .up hleads⟩
  | directory hslash hname hentry _ ih =>
    cases front with
    | nil => exact ⟨_, hhere, .here⟩
    | cons step front =>
      obtain ⟨rfl, hfront⟩ := List.cons_eq_cons.1 hsteps
      obtain ⟨middle, hmiddle, hleads⟩ := ih (entry?_eq_directory_iff.1 hentry) hfront
      exact ⟨middle, hmiddle, .directory (by simp) hname hentry hleads⟩
  | data | entry =>
    cases front with
    | nil => exact ⟨_, hhere, .here⟩
    | cons step front => simp_all
  | link hslash hlast hname hentry _ ih =>
    cases front with
    | nil => exact ⟨_, hhere, .here⟩
    | cons step front =>
      obtain ⟨rfl, rfl⟩ := List.cons_eq_cons.1 hsteps
      obtain ⟨middle, hmiddle, hleads⟩ :=
        ih (isDirectory_linkStart hhere _) (List.append_assoc _ _ _).symm
      refine ⟨middle, hmiddle, .link (by simp) (by simp) hname hentry ?_⟩
      rw [plan_eq_find hpurpose] at hleads
      simpa [Route.plan] using hleads

/-- A walk to a file ends with an entry, which leads to the file in its turn. -/
theorem Rooted.leads_entry (hroot : tree.Rooted) (hhere : tree.isDirectory here = true)
    (hfile : tree.isDirectory location ≠ true)
    (h : Leads tree .find links slash here steps location) :
    ∃ directory name last, Leads tree .entry links slash here steps (directory ++ [name]) ∧
      Leads tree .find last false directory [.enter name] location := by
  induction h with
  | here => exact absurd hhere hfile
  | stay _ ih =>
    obtain ⟨directory, name, last, hentry, hlast⟩ := ih hhere hfile
    exact ⟨directory, name, last, .stay hentry, hlast⟩
  | up _ ih =>
    obtain ⟨directory, name, last, hentry, hlast⟩ := ih (hroot.parent hhere) hfile
    exact ⟨directory, name, last, .up hentry, hlast⟩
  | directory hslash hname hdirectory _ ih =>
    obtain ⟨directory, name, last, hentry, hlast⟩ :=
      ih (entry?_eq_directory_iff.1 hdirectory) hfile
    exact ⟨directory, name, last, .directory hslash hname hdirectory hentry, hlast⟩
  | data hname hdata => exact ⟨_, _, 0, .data hname hdata, .data hname hdata⟩
  | entry hpurpose => simp at hpurpose
  | @link links slash here name target rest location hslash hlast hname hlink hrest ih =>
    cases rest with
    | nil =>
      obtain rfl : slash = false := by simpa using hslash
      exact ⟨here, name, links + 1, .entry rfl hname hlink, .link hslash hlast hname hlink hrest⟩
    | cons step rest =>
      obtain ⟨directory, name', last, hentry, hend⟩ := ih (isDirectory_linkStart hhere _) hfile
      exact ⟨directory, name', last, .link hslash (by simp) hname hlink hentry, hend⟩

/-- An entry that is no link is what the path to it leads to. -/
theorem Leads.found (h : Leads tree .entry links slash here steps location)
    (hlink : ∀ target, tree.entry? location ≠ some (.object (.link target))) :
    Leads tree .find links slash here steps location := by
  induction h with
  | here => exact .here
  | stay _ ih => exact .stay (ih hlink)
  | up _ ih => exact .up (ih hlink)
  | directory hslash hname hentry _ ih => exact .directory hslash hname hentry (ih hlink)
  | data hname hentry => exact .data hname hentry
  | entry _ _ hentry => exact absurd hentry (hlink _)
  | link hslash _ hname hentry _ ih => exact .link hslash (by simp) hname hentry (ih hlink)

/-- The trees differ at most in the entry of this name in this directory, which in the first of them
leads to no directory. -/
structure DifferAt (tree next : Tree) (directory : Location) (name : Text) : Prop where
  others : ∀ place, place ≠ directory ++ [name] → next.entry? place = tree.entry? place
  filed : ∀ links place, Leads tree .find links false directory [.enter name] place →
    tree.isDirectory place ≠ true

/-- A walk never meets the entry in which the trees differ, or ends with it and then leads where the
entry leads. -/
theorem DifferAt.leads {next : Tree} {directory : Location} {name : Text}
    (hdiffer : DifferAt tree next directory name) (hroot : tree.Rooted) (hpurpose : purpose ≠ .write)
    (hhere : tree.isDirectory here = true)
    (h : Leads tree purpose links slash here steps location) :
    Leads next purpose links slash here steps location ∨
      ∃ last, Leads tree purpose last false directory [.enter name] location ∧
        ∀ place, Leads next purpose last false directory [.enter name] place →
          Leads next purpose links slash here steps place := by
  induction h with
  | here => exact .inl .here
  | stay _ ih =>
    rcases ih hhere with hnext | ⟨last, hend, hnext⟩
    · exact .inl (.stay hnext)
    · exact .inr ⟨last, hend, fun place hplace => .stay (hnext place hplace)⟩
  | up _ ih =>
    rcases ih (hroot.parent hhere) with hnext | ⟨last, hend, hnext⟩
    · exact .inl (.up hnext)
    · exact .inr ⟨last, hend, fun place hplace => .up (hnext place hplace)⟩
  | @directory links slash here found rest location hslash hname hentry _ ih =>
    have hne : here ++ [found] ≠ directory ++ [name] := by
      intro he
      obtain ⟨rfl, rfl⟩ := List.append_singleton_inj.1 he
      have hleads : Leads tree .find 0 false here [.enter found] (here ++ [found]) :=
        .directory (by simp) hname hentry .here
      exact hdiffer.filed 0 _ hleads (entry?_eq_directory_iff.1 hentry)
    have hentry' := (hdiffer.others _ hne).trans hentry
    rcases ih (entry?_eq_directory_iff.1 hentry) with hnext | ⟨last, hend, hnext⟩
    · exact .inl (.directory hslash hname hentry' hnext)
    · exact .inr ⟨last, hend, fun place hplace =>
        .directory hslash hname hentry' (hnext place hplace)⟩
  | @data links here found bytes hname hentry =>
    by_cases he : here ++ [found] = directory ++ [name]
    · obtain ⟨rfl, rfl⟩ := List.append_singleton_inj.1 he
      exact .inr ⟨links, .data hname hentry, fun place hplace => hplace⟩
    · exact .inl (.data hname ((hdiffer.others _ he).trans hentry))
  | @entry links here found target hpurpose' hname hentry =>
    by_cases he : here ++ [found] = directory ++ [name]
    · obtain ⟨rfl, rfl⟩ := List.append_singleton_inj.1 he
      exact .inr ⟨links, .entry hpurpose' hname hentry, fun place hplace => hplace⟩
    · exact .inl (.entry hpurpose' hname ((hdiffer.others _ he).trans hentry))
  | @link links slash here found target rest location hslash hlast hname hentry hrest ih =>
    by_cases he : here ++ [found] = directory ++ [name]
    · obtain ⟨rfl, rfl⟩ := List.append_singleton_inj.1 he
      cases rest with
      | nil =>
        obtain rfl : slash = false := by simpa using hslash
        exact .inr ⟨links + 1, .link hslash hlast hname hentry hrest, fun place hplace => hplace⟩
      | cons step rest =>
        -- with steps after it, the entry would lead to a directory
        obtain ⟨middle, hmiddle, hleads⟩ := hroot.leads_front hpurpose
          (isDirectory_linkStart hhere target) (List.cons_ne_nil step rest) rfl hrest
        rw [plan_eq_find hpurpose] at hleads
        have hend : Leads tree .find (links + 1) false here [.enter found] middle :=
          .link (by simp) (by simp) hname hentry (by simpa [Route.plan] using hleads)
        exact absurd hmiddle (hdiffer.filed _ _ hend)
    · have hentry' := (hdiffer.others _ he).trans hentry
      rcases ih (isDirectory_linkStart hhere target) with hnext | ⟨last, hend, hnext⟩
      · exact .inl (.link hslash hlast hname hentry' hnext)
      · exact .inr ⟨last, hend, fun place hplace =>
          .link hslash hlast hname hentry' (hnext place hplace)⟩

end

section
variable {tree : Tree} {path : Text} {directory location : Location} {name : Text}

/-- An entry that leads to a file never leads to a directory. -/
theorem Leads.filed {last : Nat} (h : Leads tree .find last false directory [.enter name] location)
    (hfile : tree.isDirectory location ≠ true) (links : Nat) (place : Location)
    (hplace : Leads tree .find links false directory [.enter name] place) :
    tree.isDirectory place ≠ true := by
  rwa [← h.unique hplace]

theorem not_isDirectory_of_object {content : Content}
    (h : tree.entry? location = some (.object content)) : tree.isDirectory location ≠ true := by
  intro hdirectory
  simp [entry?_eq_directory_iff.2 hdirectory] at h

/-- An entry that leads to a file is a file or a link. -/
theorem Leads.object {last : Nat}
    (h : Leads tree .find last false directory [.enter name] location)
    (hfile : tree.isDirectory location ≠ true) :
    ∃ content, tree.entry? (directory ++ [name]) = some (.object content) := by
  cases h with
  | directory _ _ hentry hrest =>
    cases hrest
    exact absurd (entry?_eq_directory_iff.1 hentry) hfile
  | data _ hentry => exact ⟨_, hentry⟩
  | entry hpurpose => simp at hpurpose
  | link _ _ _ hentry => exact ⟨_, hentry⟩

theorem Leads.not_isDirectory {last : Nat}
    (h : Leads tree .find last false directory [.enter name] location)
    (hfile : tree.isDirectory location ≠ true) :
    tree.isDirectory (directory ++ [name]) ≠ true := by
  obtain ⟨_, hentry⟩ := h.object hfile
  exact not_isDirectory_of_object hentry

theorem Leads.eq_of_data {purpose : Purpose} {links : Nat} {slash : Bool} {place : Location}
    {bytes : ByteArray} (h : Leads tree purpose links slash directory [.enter name] place)
    (hdata : tree.entry? (directory ++ [name]) = some (.object (.data bytes))) :
    place = directory ++ [name] := by
  cases h with
  | data | entry => rfl
  | directory _ _ hentry => simp [hdata] at hentry
  | link _ _ _ hentry => simp [hdata] at hentry

theorem Leads.names {last : Nat} (h : Leads tree .find last false directory [.enter name] location)
    (hfile : tree.isDirectory location ≠ true) (links : Nat) :
    Leads tree .entry links false directory [.enter name] (directory ++ [name]) := by
  cases h with
  | directory _ _ hentry hrest =>
    cases hrest
    exact absurd (entry?_eq_directory_iff.1 hentry) hfile
  | data hname hentry => exact .data hname hentry
  | entry hpurpose => simp at hpurpose
  | link _ _ hname hentry => exact .entry rfl hname hentry

/-- A path to a file names an entry that leads to the file. -/
theorem Rooted.place_entry (hroot : tree.Rooted)
    (h : tree.place .find path = .ok (.present location))
    (hfile : tree.isDirectory location ≠ true) :
    ∃ directory name last, tree.place .entry path = .ok (.present (directory ++ [name])) ∧
      Leads tree .find last false directory [.enter name] location := by
  obtain ⟨hfault, hleads⟩ := place_eq_present_iff.1 h
  obtain ⟨directory, name, last, hentry, hlast⟩ :=
    hroot.leads_entry (hroot.isDirectory_startOf (.ofPath path)) hfile hleads
  exact ⟨directory, name, last, place_eq_present_iff.2 ⟨hfault, hentry⟩, hlast⟩

theorem place_find_of_place_entry (h : tree.place .entry path = .ok (.present location))
    (hlink : ∀ target, tree.entry? location ≠ some (.object (.link target))) :
    tree.place .find path = .ok (.present location) := by
  obtain ⟨hfault, hleads⟩ := place_eq_present_iff.1 h
  exact place_eq_present_iff.2 ⟨hfault, hleads.found hlink⟩

end

end SceneDowngrade.Files.Tree
