import SceneDowngrade.Files.Walk

/-!
# Where walks lead

A walk goes from link to link, and between two links from step to step. Here both loops are one
relation, with one rule for each thing that a step can meet. What is true of all walks that arrive
is then shown by one induction.
-/
namespace SceneDowngrade.Files.Tree

/-- The directory that the target of a link starts from. -/
def linkStart (directory : Location) (target : Text) : Location :=
  if (Route.ofPath target).absolute then [] else directory

/-- The steps lead from a directory to an entry, over at most `links` links. -/
inductive Leads (tree : Tree) (purpose : Purpose) :
    (links : Nat) → (slash : Bool) → Location → List Step → Location → Prop
  | here {links slash here} : Leads tree purpose links slash here [] here
  | stay {links slash here rest location} :
    Leads tree purpose links slash here rest location →
      Leads tree purpose links slash here (.stay :: rest) location
  | up {links slash here rest location} :
    Leads tree purpose links slash here.dropLast rest location →
      Leads tree purpose links slash here (.up :: rest) location
  | directory {links slash here name rest location} :
    ¬ (rest.isEmpty && slash) = true → ¬ maxNameLength < Text.byteLength name →
      tree.entry? (here ++ [name]) = some .directory →
      Leads tree purpose links slash (here ++ [name]) rest location →
      Leads tree purpose links slash here (.enter name :: rest) location
  | data {links here name bytes} :
    ¬ maxNameLength < Text.byteLength name →
      tree.entry? (here ++ [name]) = some (.object (.data bytes)) →
      Leads tree purpose links false here [.enter name] (here ++ [name])
  | entry {links here name target} :
    purpose = .entry → ¬ maxNameLength < Text.byteLength name →
      tree.entry? (here ++ [name]) = some (.object (.link target)) →
      Leads tree purpose links false here [.enter name] (here ++ [name])
  | link {links slash here name target rest location} :
    ¬ (rest.isEmpty && slash) = true → ¬ (rest.isEmpty && purpose = .entry) = true →
      ¬ maxNameLength < Text.byteLength name →
      tree.entry? (here ++ [name]) = some (.object (.link target)) →
      Leads tree purpose links
        (if rest.isEmpty then ((Route.ofPath target).plan purpose).2 else slash)
        (linkStart here target) (((Route.ofPath target).plan purpose).1 ++ rest) location →
      Leads tree purpose (links + 1) slash here (.enter name :: rest) location

section
variable {tree : Tree} {purpose : Purpose} {slash : Bool}

theorem leads_of_leg_present {here location : Location} {steps : List Step}
    (h : tree.leg purpose slash here steps = .stopped (.present location)) (links : Nat) :
    Leads tree purpose links slash here steps location := by
  fun_induction leg tree purpose slash here steps with
  | case1 here =>
    obtain rfl : here = location := by simpa using h
    exact .here
  | case2 here rest ih => exact .stay (ih h)
  | case3 here rest ih => exact .up (ih h)
  | case8 here name rest hslash hname hentry ih => exact .directory hslash hname hentry (ih h)
  | case9 here name rest hslash hname bytes hentry hrest =>
    obtain rfl := List.isEmpty_iff.1 hrest
    obtain rfl : slash = false := by simpa using hslash
    obtain rfl : here ++ [name] = location := by simpa using h
    exact .data hname hentry
  | case11 here name rest hslash hname target hentry hrest =>
    rw [Bool.and_eq_true, List.isEmpty_iff, decide_eq_true_eq] at hrest
    obtain ⟨rfl, hpurpose⟩ := hrest
    obtain rfl : slash = false := by simpa using hslash
    obtain rfl : here ++ [name] = location := by simpa using h
    exact .entry hpurpose hname hentry
  | case4 | case5 | case6 | case7 | case10 | case12 => simp at h

theorem leads_of_leg_crossing {here directory location : Location} {steps rest : List Step}
    {target : Text} {links : Nat}
    (h : tree.leg purpose slash here steps = .crossing directory target rest)
    (hrest : Leads tree purpose links
      (if rest.isEmpty then ((Route.ofPath target).plan purpose).2 else slash)
      (linkStart directory target) (((Route.ofPath target).plan purpose).1 ++ rest) location) :
    Leads tree purpose (links + 1) slash here steps location := by
  fun_induction leg tree purpose slash here steps with
  | case2 here rest ih => exact .stay (ih h)
  | case3 here rest ih => exact .up (ih h)
  | case8 here name rest hslash hname hentry ih => exact .directory hslash hname hentry (ih h)
  | case12 here name rest hslash hname target hentry hpurpose =>
    cases h
    exact .link hslash hpurpose hname hentry hrest
  | case1 | case4 | case5 | case6 | case7 | case9 | case10 | case11 => simp at h

theorem leads_of_walk {links : Nat} {here location : Location} {steps : List Step}
    (h : tree.walk purpose links slash here steps = .ok (.present location)) :
    Leads tree purpose links slash here steps location := by
  induction links generalizing slash here steps with
  | zero =>
    rw [walk] at h
    split at h
    · next place hleg =>
      cases h
      exact leads_of_leg_present hleg 0
    · simp at h
    · simp at h
  | succ links ih =>
    rw [walk] at h
    split at h
    · next place hleg =>
      cases h
      exact leads_of_leg_present hleg _
    · simp at h
    · next directory target rest hleg => exact leads_of_leg_crossing hleg (ih h)

theorem walk_congr {links : Nat} {here there : Location} {steps more : List Step}
    (h : tree.leg purpose slash here steps = tree.leg purpose slash there more) :
    tree.walk purpose links slash here steps = tree.walk purpose links slash there more := by
  cases links <;> rw [walk, walk, h]

theorem walk_of_leads {links : Nat} {here location : Location} {steps : List Step}
    (h : Leads tree purpose links slash here steps location) :
    tree.walk purpose links slash here steps = .ok (.present location) := by
  induction h with
  | here => cases ‹Nat› <;> simp [walk, leg]
  | stay _ ih =>
    refine (walk_congr ?_).trans ih
    rw [leg]
  | up _ ih =>
    refine (walk_congr ?_).trans ih
    rw [leg]
  | directory hslash hname hentry _ ih =>
    refine (walk_congr ?_).trans ih
    rw [leg, if_neg hslash, if_neg hname, hentry]
  | data hname hentry =>
    cases ‹Nat› <;> simp [walk, leg, hname, hentry]
  | entry hpurpose hname hentry =>
    cases ‹Nat› <;> simp [walk, leg, hname, hentry, hpurpose]
  | link hslash hpurpose hname hentry _ ih =>
    rw [walk, leg, if_neg hslash, if_neg hname, hentry]
    simp only [hpurpose]
    exact ih

theorem walk_eq_present_iff {links : Nat} {here location : Location} {steps : List Step} :
    tree.walk purpose links slash here steps = .ok (.present location) ↔
      Leads tree purpose links slash here steps location :=
  ⟨leads_of_walk, walk_of_leads⟩

end

/-- Every entry of the first tree has a counterpart in the second; only data may differ. -/
structure Keeps (tree next : Tree) : Prop where
  working : next.working = tree.working
  directory {location} :
    tree.entry? location = some .directory → next.entry? location = some .directory
  data {location bytes} : tree.entry? location = some (.object (.data bytes)) →
    ∃ bytes', next.entry? location = some (.object (.data bytes'))
  link {location target} : tree.entry? location = some (.object (.link target)) →
    next.entry? location = some (.object (.link target))

theorem Keeps.leads {tree next : Tree} (hkeeps : Keeps tree next) {purpose : Purpose}
    {links : Nat} {slash : Bool} {here location : Location} {steps : List Step}
    (h : Leads tree purpose links slash here steps location) :
    Leads next purpose links slash here steps location := by
  induction h with
  | here => exact .here
  | stay _ ih => exact .stay ih
  | up _ ih => exact .up ih
  | directory hslash hname hentry _ ih => exact .directory hslash hname (hkeeps.directory hentry) ih
  | data hname hentry =>
    obtain ⟨_, hentry'⟩ := hkeeps.data hentry
    exact .data hname hentry'
  | entry hpurpose hname hentry => exact .entry hpurpose hname (hkeeps.link hentry)
  | link hslash hpurpose hname hentry _ ih =>
    exact .link hslash hpurpose hname (hkeeps.link hentry) ih

/-- The working directory is there, and directories stand in directories. -/
structure Rooted (tree : Tree) : Prop where
  working : tree.isDirectory tree.working = true
  parent {location} : tree.isDirectory location = true → tree.isDirectory location.dropLast = true

section
variable {tree : Tree} {links : Nat} {slash : Bool} {here location : Location} {steps : List Step}

theorem entry?_eq_directory_iff : tree.entry? location = some .directory ↔
    tree.isDirectory location = true := by
  unfold entry?
  by_cases h : tree.isDirectory location = true
  · simp [h]
  · simp only [h, if_false, iff_false, Bool.false_eq_true]
    cases tree.object? location <;> simp

theorem rooted_of_no_directories (hdirectories : tree.directories = [])
    (hworking : tree.working = []) : tree.Rooted := by
  refine ⟨by rw [hworking]; rfl, fun {location} h => ?_⟩
  obtain rfl : location = [] := by simpa [isDirectory, hdirectories] using h
  rfl

theorem isDirectory_linkStart (h : tree.isDirectory here = true) (target : Text) :
    tree.isDirectory (linkStart here target) = true := by
  rw [linkStart]
  split
  · rfl
  · exact h

/-- A walk that follows its last link arrives at a directory or at a file. -/
theorem Rooted.isDirectory_or_data (hroot : tree.Rooted) {purpose : Purpose}
    (hpurpose : purpose ≠ .entry) (hhere : tree.isDirectory here = true)
    (h : Leads tree purpose links slash here steps location) :
    tree.isDirectory location = true ∨
      ∃ bytes, tree.entry? location = some (.object (.data bytes)) := by
  induction h with
  | here => exact .inl hhere
  | stay _ ih => exact ih hhere
  | up _ ih => exact ih (hroot.parent hhere)
  | directory _ _ hentry _ ih => exact ih (entry?_eq_directory_iff.1 hentry)
  | data _ hentry => exact .inr ⟨_, hentry⟩
  | entry hentry => exact absurd hentry hpurpose
  | link _ _ _ _ _ ih => exact ih (isDirectory_linkStart hhere _)

/-- A path for writing whose last name is marked by a slash leads to a directory at most. -/
theorem Rooted.isDirectory_of_slash (hroot : tree.Rooted) {purpose : Purpose}
    (hhere : tree.isDirectory here = true) (hslash : slash = true)
    (h : Leads tree purpose links slash here steps location) :
    tree.isDirectory location = true := by
  induction h with
  | here => exact hhere
  | stay _ ih => exact ih hhere hslash
  | up _ ih => exact ih (hroot.parent hhere) hslash
  | directory _ _ hentry _ ih => exact ih (entry?_eq_directory_iff.1 hentry) hslash
  | data | entry => simp at hslash
  | link hlast _ _ _ _ ih =>
    refine ih (isDirectory_linkStart hhere _) ?_
    simp only [hslash, Bool.and_true] at hlast
    simpa [hlast] using hslash

end

/-- The second list has further dots, none of them at the end. -/
inductive Padded : List Step → List Step → Prop
  | nil : Padded [] []
  | cons {step rest more} : Padded rest more → Padded (step :: rest) (step :: more)
  | stay {step rest more} : Padded (step :: rest) more → Padded (step :: rest) (.stay :: more)

namespace Padded

theorem rfl (steps : List Step) : Padded steps steps := by
  induction steps with
  | nil => exact .nil
  | cons step steps ih => exact .cons ih

theorem append {steps more : List Step} (h : Padded steps more) (front : List Step) :
    Padded (front ++ steps) (front ++ more) := by
  induction front with
  | nil => exact h
  | cons step front ih => exact .cons ih

theorem eq_nil {more : List Step} (h : Padded [] more) : more = [] := by
  cases h
  exact Eq.refl _

theorem exists_of_cons {step : Step} {rest more : List Step} (h : Padded (step :: rest) more) :
    ∃ count tail, more = List.replicate count .stay ++ step :: tail ∧ Padded rest tail := by
  generalize hsteps : step :: rest = steps at h
  induction h with
  | nil => simp at hsteps
  | cons h =>
    obtain ⟨he, hr⟩ := List.cons_eq_cons.1 hsteps
    subst he hr
    exact ⟨0, _, Eq.refl _, h⟩
  | stay _ ih =>
    obtain ⟨count, tail, rfl, htail⟩ := ih hsteps
    exact ⟨count + 1, tail, by simp [List.replicate_succ], htail⟩

end Padded

/-- The second list is the first without some of its dots. -/
inductive Thinned : List Step → List Step → Prop
  | nil : Thinned [] []
  | cons {step rest less} : Thinned rest less → Thinned (step :: rest) (step :: less)
  | drop {rest less} : Thinned rest less → Thinned (.stay :: rest) less

namespace Thinned

theorem append {steps less : List Step} (h : Thinned steps less) (front : List Step) :
    Thinned (front ++ steps) (front ++ less) := by
  induction front with
  | nil => exact h
  | cons step front ih => exact .cons ih

theorem filter (steps : List Step) : Thinned steps (steps.filter (· ≠ .stay)) := by
  induction steps with
  | nil => exact .nil
  | cons step steps ih =>
    cases step with
    | stay => simpa using ih.drop
    | up => simpa using ih.cons
    | enter name => simpa using ih.cons

end Thinned

section
variable {tree : Tree} {links : Nat} {here location : Location} {steps : List Step}

theorem Leads.stays {purpose : Purpose} {slash : Bool}
    (h : Leads tree purpose links slash here steps location) (count : Nat) :
    Leads tree purpose links slash here (List.replicate count .stay ++ steps) location := by
  induction count with
  | zero => exact h
  | succ count ih => exact .stay ih

/-- Dots on the way do not matter when the path is only looked up. -/
theorem Leads.thinned {slash : Bool} {less : List Step} (hslash : slash = false)
    (hless : Thinned steps less) (h : Leads tree .find links slash here steps location) :
    Leads tree .find links slash here less location := by
  induction h generalizing less with
  | here =>
    cases hless
    exact .here
  | stay _ ih =>
    cases hless with
    | cons hless => exact .stay (ih hslash hless)
    | drop hless => exact ih hslash hless
  | up _ ih =>
    cases hless with
    | cons hless => exact .up (ih hslash hless)
  | directory _ hname hentry _ ih =>
    cases hless with
    | cons hless => exact .directory (by simp [hslash]) hname hentry (ih hslash hless)
  | data hname hentry =>
    cases hless with
    | cons hless =>
      cases hless
      exact .data hname hentry
  | entry hpurpose => simp at hpurpose
  | link _ _ hname hentry _ ih =>
    cases hless with
    | cons hless =>
      refine .link (by simp [hslash]) (by simp) hname hentry ?_
      have hplan : ∀ route : Route, (route.plan .find).2 = false := fun route => rfl
      simp only [hplan, hslash, ite_self] at ih ⊢
      exact ih trivial (hless.append _)

/-- A path that is followed to write to a file is looked up with the same result. -/
theorem Rooted.leads_find (hroot : tree.Rooted) {slash : Bool} {more : List Step}
    (hhere : tree.isDirectory here = true) (hfile : tree.isDirectory location ≠ true)
    (hmore : Padded steps more) (h : Leads tree .write links slash here steps location) :
    Leads tree .find links false here more location := by
  induction h generalizing more with
  | here => exact absurd hhere hfile
  | stay _ ih =>
    obtain ⟨count, tail, rfl, htail⟩ := hmore.exists_of_cons
    exact .stays (.stay (ih hhere hfile htail)) count
  | up _ ih =>
    obtain ⟨count, tail, rfl, htail⟩ := hmore.exists_of_cons
    exact .stays (.up (ih (hroot.parent hhere) hfile htail)) count
  | directory _ hname hentry _ ih =>
    obtain ⟨count, tail, rfl, htail⟩ := hmore.exists_of_cons
    have hnext := ih (entry?_eq_directory_iff.1 hentry) hfile htail
    exact .stays (.directory (by simp) hname hentry hnext) count
  | data hname hentry =>
    obtain ⟨count, tail, rfl, htail⟩ := hmore.exists_of_cons
    obtain rfl := htail.eq_nil
    exact .stays (.data hname hentry) count
  | entry hpurpose => simp at hpurpose
  | @link links slash here name target rest location _ _ hname hentry hrest ih =>
    obtain ⟨count, tail, rfl, htail⟩ := hmore.exists_of_cons
    refine .stays (.link (by simp) (by simp) hname hentry ?_) count
    have hstart := isDirectory_linkStart hhere target
    have hplan : ((Route.ofPath target).plan .find).2 = false := rfl
    rw [hplan, ite_self]
    cases rest with
    | nil =>
      obtain rfl := htail.eq_nil
      cases hslash : (Route.ofPath target).slash with
      | false =>
        refine ih hstart hfile ?_
        simpa [Route.plan, hslash] using Padded.rfl _
      | true =>
        -- with a slash at its end the target could only be a directory
        have hdirectory :=
          hroot.isDirectory_of_slash hstart (by simpa [Route.plan] using hslash) hrest
        exact absurd hdirectory hfile
    | cons step rest =>
      refine ih hstart hfile ?_
      cases hslash : (Route.ofPath target).slash with
      | false => simpa [Route.plan, hslash] using htail.append _
      | true => simpa [Route.plan, hslash] using htail.stay.append _

end

def RouteLeads (tree : Tree) (purpose : Purpose) (route : Route) (location : Location) : Prop :=
  Leads tree purpose maxLinks (route.plan purpose).2 (tree.startOf route) (route.plan purpose).1
    location

section
variable {tree : Tree} {path other : Text} {location place : Location}

theorem resolve_eq_present_iff {purpose : Purpose} :
    tree.resolve purpose path = .ok (.present location) ↔
      RouteLeads tree purpose (.ofPath path) location := walk_eq_present_iff

theorem place_eq_present_iff {purpose : Purpose} :
    tree.place purpose path = .ok (.present location) ↔
      pathFault? path = none ∧ RouteLeads tree purpose (.ofPath path) location := by
  rw [Tree.place]
  cases hfault : pathFault? path with
  | none => simp [resolve_eq_present_iff]
  | some fault => simp

theorem canonical?_eq_some_iff : tree.canonical? path = some location ↔
    (path.isEmpty || path.contains '\x00') = false ∧
      RouteLeads tree .find (.ofPath path) location := by
  rw [canonical?, ← resolve_eq_present_iff]
  cases hpath : path.isEmpty || path.contains '\x00' with
  | true => simp
  | false =>
    simp only [Bool.false_eq_true, if_false, true_and]
    split
    · next hplace => simp [hplace]
    · next hplace => simpa using hplace location

theorem canonical_of_pathFault? (h : pathFault? path = none) :
    (path.isEmpty || path.contains '\x00') = false := by
  rw [pathFault?] at h
  cases hnul : path.contains '\x00' <;> cases hempty : path.isEmpty <;> simp_all

theorem canonical?_of_place_find (h : tree.place .find path = .ok (.present location)) :
    tree.canonical? path = some location := by
  obtain ⟨hfault, hleads⟩ := place_eq_present_iff.1 h
  exact canonical?_eq_some_iff.2 ⟨canonical_of_pathFault? hfault, hleads⟩

theorem Rooted.isDirectory_startOf (hroot : tree.Rooted) (route : Route) :
    tree.isDirectory (tree.startOf route) = true := by
  rw [startOf]
  split
  · rfl
  · exact hroot.working

/-- A path that can be written to a file there leads to that file when it is read. -/
theorem Rooted.place_find_of_place_write (hroot : tree.Rooted)
    (h : tree.place .write path = .ok (.present location))
    (hfile : tree.isDirectory location ≠ true) :
    tree.place .find path = .ok (.present location) := by
  obtain ⟨hfault, hleads⟩ := place_eq_present_iff.1 h
  have hstart := hroot.isDirectory_startOf (.ofPath path)
  refine place_eq_present_iff.2 ⟨hfault, ?_⟩
  cases hslash : (Route.ofPath path).slash with
  | false =>
    refine hroot.leads_find hstart hfile ?_ hleads
    simpa [Route.plan, hslash] using Padded.rfl _
  | true => exact absurd (hroot.isDirectory_of_slash hstart hslash hleads) hfile

/-- The file that a path is written to is the one it is known by. -/
theorem Rooted.canonical?_of_place_write (hroot : tree.Rooted)
    (h : tree.place .write path = .ok (.present location))
    (hfile : tree.isDirectory location ≠ true) : tree.canonical? path = some location :=
  canonical?_of_place_find (hroot.place_find_of_place_write h hfile)

/-- Paths that are alike lead to the same place, if both lead anywhere. -/
theorem eq_of_alike (halike : (Route.ofPath path).alike (.ofPath other) = true)
    (hpath : tree.canonical? path = some location) (hother : tree.canonical? other = some place) :
    location = place := by
  obtain ⟨-, hleads⟩ := canonical?_eq_some_iff.1 hpath
  obtain ⟨-, hleads'⟩ := canonical?_eq_some_iff.1 hother
  simp only [Route.alike, Bool.and_eq_true, decide_eq_true_eq] at halike
  obtain ⟨⟨habsolute, -⟩, hsteps⟩ := halike
  have hstart : tree.startOf (.ofPath path) = tree.startOf (.ofPath other) := by
    rw [startOf, startOf, habsolute]
  have hplan : ∀ route : Route, (route.plan .find).1.filter (· ≠ .stay) =
      route.steps.filter (· ≠ .stay) := by
    intro route
    cases hslash : route.slash <;> simp [Route.plan, hslash]
  have hthin := walk_of_leads (hleads.thinned rfl (.filter _))
  have hthin' := walk_of_leads (hleads'.thinned rfl (.filter _))
  rw [hplan, hstart, hsteps] at hthin
  rw [hplan] at hthin'
  have he := hthin.symm.trans hthin'
  simpa using he

end

end SceneDowngrade.Files.Tree
