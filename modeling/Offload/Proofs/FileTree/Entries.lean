import Offload.Proofs.FileTree.Walk

/-!
# The entries that paths name

The last name of a path is that of an entry of the directory to which the other names lead. Reading and
writing follow that entry if it is a link; creating, renaming and removing do not.
-/

namespace Offload

/-- Where one name leads from a directory in which it is not followed. -/
def Location.step (place : Location) (name : String) : Location :=
  if name = "." then place else if name = ".." then place.dropLast else place ++ [name]

namespace FileTree

variable {tree after : FileTree} {place here : Location} {path : String} {target : Target}

/-! ## Names -/

/-- The names in a path. -/
def partNames (path : String) : List String := (Path.parts path.toList).map String.ofList

/-- A name without a slash is one more name of a path that it is joined to. -/
theorem partNames_joinText {dir name : String} (hne : name ≠ "") (hbare : '/' ∉ name.toList) :
    partNames (Path.joinText dir name) = partNames dir ++ [name] := by
  have hparts : Path.parts name.toList = [name.toList] :=
    Path.parts_of_bare (by simpa using hne) hbare
  rw [partNames, Path.joinText, String.toList_ofList, Path.parts_join (Path.isAbsolute_of_bare hbare),
    hparts, List.map_append, List.map_singleton, String.ofList_toList, partNames]

theorem origin_joinText {dir name : String} (hbare : '/' ∉ name.toList) :
    tree.origin (Path.joinText dir name) = tree.origin dir := by
  rw [origin, startOf, Path.joinText, String.toList_ofList,
    Path.isAbsolute_join (Path.isAbsolute_of_bare hbare), origin, startOf]

theorem names_of_not_endsInSlash (h : endsInSlash path = false) : names path = partNames path := by
  rw [names, h]
  exact List.append_nil _

theorem names_of_endsInSlash (h : endsInSlash path = true) : names path = partNames path ++ ["."] := by
  rw [names, h]
  rfl

/-- Where a path starts depends on the working directory alone. -/
theorem origin_eq (h : after.workingDirectory = tree.workingDirectory) (path : String) :
    after.origin path = tree.origin path := by
  rw [origin, origin, h]

theorem node?_startOf (hplace : tree.node? place = some .directory) (path : String) :
    tree.node? (startOf place path) = some .directory := by
  rw [startOf]
  split
  · exact node?_root tree
  · exact hplace

theorem Closed.origin (h : tree.Closed) (path : String) :
    tree.node? (tree.origin path) = some .directory :=
  node?_startOf h.1 path

/-! ## Where names lead -/

theorem walk_eq_ok_iff {names : List String} :
    tree.walk place names = .ok target ↔
      ∃ links seen, links ≤ maxLinks ∧ Walks tree links seen place names target :=
  walkThrough_eq_ok_iff

/-- The directory in which a walk has ended. -/
def Target.container : Target → Location
  | directory place => place
  | file spot _ => spot.dropLast
  | missing spot => spot.dropLast

/-- From a directory of a closed tree, a walk ends in one that is there. -/
theorem Closed.container_of_walks (hclosed : tree.Closed) {links : Nat} {seen : List Location}
    {names : List String} (hplace : tree.node? place = some .directory)
    (h : Walks tree links seen place names target) :
    tree.node? target.container = some .directory := by
  induction h with
  | here place => exact hplace
  | dot _ ih => exact ih hplace
  | up _ ih => exact ih (hclosed.parent (by rw [hplace]; exact nofun))
  | enter _ hnode _ ih => exact ih hnode
  | link _ _ _ ih => exact ih (node?_startOf hplace _)
  | file _ _ | missing _ _ => rwa [Target.container, List.dropLast_concat]

/-- What leads to a directory in one tree does so in the other. -/
structure KeepsWays (tree after : FileTree) : Prop where
  workingDirectory : after.workingDirectory = tree.workingDirectory
  walks : ∀ {links seen place names here}, Walks tree links seen place names (.directory here) →
    Walks after links seen place names (.directory here)

theorem KeepsWays.walk (h : KeepsWays tree after) {names : List String}
    (hwalk : tree.walk place names = .ok (.directory here)) :
    after.walk place names = .ok (.directory here) := by
  obtain ⟨links, seen, hlinks, hwalk⟩ := walk_eq_ok_iff.mp hwalk
  exact walk_eq_ok_iff.mpr ⟨links, seen, hlinks, h.walks hwalk⟩

/-- The ways are kept where directories and links stay. -/
theorem keepsWays_of_passes (hworking : after.workingDirectory = tree.workingDirectory)
    (h : ∀ here, Walks.Passes tree here → after.node? here = tree.node? here) :
    KeepsWays tree after :=
  ⟨hworking, fun hwalk => hwalk.congr fun spot hspot => h spot (hwalk.passes spot hspot)⟩

/-- What is in one tree is in the other, which may hold more. -/
structure Within (tree after : FileTree) : Prop where
  workingDirectory : after.workingDirectory = tree.workingDirectory
  node : ∀ here, tree.node? here ≠ none → after.node? here = tree.node? here

theorem Within.trans {mid : FileTree} (h : Within tree mid) (h' : Within mid after) :
    Within tree after :=
  ⟨h'.workingDirectory.trans h.workingDirectory, fun here hhere => by
    rw [h'.node here (by rwa [h.node here hhere]), h.node here hhere]⟩

theorem Within.keepsWays (h : Within tree after) : KeepsWays tree after := by
  refine keepsWays_of_passes h.workingDirectory fun here hpass => h.node here ?_
  rcases hpass with hnode | ⟨text, hnode⟩ <;> rw [hnode] <;> exact nofun

/-- A dot at the end says that the names lead to a directory. -/
theorem walk_dot {names : List String} :
    tree.walk place (names ++ ["."]) = .ok target ↔
      ∃ here, tree.walk place names = .ok (.directory here) ∧ target = .directory here := by
  constructor
  · intro h
    obtain ⟨links, seen, hlinks, hwalk⟩ := walk_eq_ok_iff.mp h
    obtain ⟨here, links₁, seen₁, links₂, seen₂, h₁, h₂, rfl, -⟩ :=
      hwalk.split (List.cons_ne_nil "." [])
    have hlast := h₂.of_dot
    cases hlast
    exact ⟨here, walk_eq_ok_iff.mpr ⟨links₁, seen₁, by omega, h₁⟩, rfl⟩
  · rintro ⟨here, hwalk, rfl⟩
    obtain ⟨links, seen, hlinks, hwalk⟩ := walk_eq_ok_iff.mp hwalk
    exact walk_eq_ok_iff.mpr ⟨links + 0, seen ++ [], hlinks, hwalk.append (.dot (.here here))⟩

/-! ## Where paths lead -/

/-- The names of a path lead to a directory. -/
def LeadsTo (tree : FileTree) (path : String) (place : Location) : Prop :=
  tree.walk (tree.origin path) (partNames path) = .ok (.directory place)

theorem LeadsTo.eq (h : tree.LeadsTo path place) (h' : tree.LeadsTo path here) : here = place := by
  rw [LeadsTo, h] at h'
  cases h'
  rfl

theorem KeepsWays.leadsTo (h : KeepsWays tree after) (hleads : tree.LeadsTo path place) :
    after.LeadsTo path place := by
  rw [LeadsTo, origin_eq h.workingDirectory]
  exact h.walk hleads

theorem resolve_eq_ok_iff :
    tree.resolve path = .ok target ↔
      checkPath path = .ok () ∧ tree.walk (tree.origin path) (names path) = .ok target := by
  rw [resolve]
  cases checkPath path with
  | error e => simp [bind, Except.bind]
  | ok _ => simp [bind, Except.bind]

/-- A slash at the end of a path that leads to a directory makes no difference. -/
theorem resolve_eq_directory_iff :
    tree.resolve path = .ok (.directory place) ↔ checkPath path = .ok () ∧ tree.LeadsTo path place := by
  rw [resolve_eq_ok_iff, LeadsTo]
  cases hslash : endsInSlash path with
  | false => rw [names_of_not_endsInSlash hslash]
  | true =>
    rw [names_of_endsInSlash hslash, walk_dot]
    simp

/-- A path without names is empty or that of the root. -/
theorem isAbsolute_of_parts_eq_nil {chars : List Char} (hne : chars ≠ [])
    (h : Path.parts chars = []) : Path.isAbsolute chars = true := by
  cases chars with
  | nil => exact absurd rfl hne
  | cons c rest =>
    by_cases hc : c = '/'
    · rw [hc]
      rfl
    · -- the first piece has this character in it
      exfalso
      rw [Path.parts, Text.splitAt, if_neg hc] at h
      cases hpieces : Text.splitAt '/' rest with
      | nil => simp [hpieces] at h
      | cons piece pieces => simp [hpieces] at h

theorem ne_empty_of_checkPath (h : checkPath path = .ok ()) : path ≠ "" := by
  rintro rfl
  simp [checkPath] at h

/-- The entry that a path names is its last name, seen from the directory to which the others lead. -/
theorem entryPlace_eq_ok_iff :
    tree.entryPlace path = .ok place ↔ checkPath path = .ok () ∧
      (partNames path = [] ∧ place = [] ∨
        ∃ front last here, partNames path = front ++ [last] ∧
          tree.walk (tree.origin path) front = .ok (.directory here) ∧
          ¬ maxNameBytes < last.utf8ByteSize ∧ place = here.step last) := by
  rw [entryPlace]
  cases checkPath path with
  | error e => simp [bind, Except.bind]
  | ok _ =>
    simp only [bind, Except.bind, true_and]
    rcases List.eq_nil_or_concat (partNames path) with hnil | ⟨front, last, hparts⟩
    · have hnil' := hnil
      rw [partNames] at hnil'
      simp only [hnil', hnil, List.getLast?_nil, pure, Except.pure, Except.ok.injEq]
      simp
    rw [List.concat_eq_append] at hparts
    have hparts' := hparts
    rw [partNames] at hparts'
    simp only [hparts', List.getLast?_concat, List.dropLast_concat]
    have hright : (partNames path = [] ∧ place = [] ∨
        ∃ front' last' here, partNames path = front' ++ [last'] ∧
          tree.walk (tree.origin path) front' = .ok (.directory here) ∧
          ¬ maxNameBytes < last'.utf8ByteSize ∧ place = here.step last') ↔
        ∃ here, tree.walk (tree.origin path) front = .ok (.directory here) ∧
          ¬ maxNameBytes < last.utf8ByteSize ∧ place = here.step last := by
      rw [hparts]
      constructor
      · rintro (⟨hnil, -⟩ | ⟨front', last', here, heq, hrest⟩)
        · simp at hnil
        · obtain ⟨rfl, hlast⟩ := List.append_inj' heq rfl
          obtain rfl := List.singleton_inj.mp hlast
          exact ⟨here, hrest⟩
      · rintro ⟨here, hrest⟩
        exact .inr ⟨front, last, here, rfl, hrest⟩
    rw [hright]
    have hdots : ∀ name, name = "." ∨ name = ".." → ¬ maxNameBytes < name.utf8ByteSize := by
      rintro name (rfl | rfl) <;> decide
    cases hwalk : tree.walk (tree.origin path) (front ++ ["."]) with
    | error e =>
      have hfront : ∀ here, tree.walk (tree.origin path) front ≠ .ok (.directory here) := by
        intro here hfront
        rw [walk_dot.mpr ⟨here, hfront, rfl⟩] at hwalk
        cases hwalk
      simp [hfront]
    | ok target =>
      obtain ⟨here, hfront, rfl⟩ := walk_dot.mp hwalk
      simp only [hfront, Except.ok.injEq, Target.directory.injEq, exists_eq_left', Location.step]
      by_cases hdot : last = "."
      · simp [hdot, pure, Except.pure, eq_comm, hdots "." (.inl rfl)]
      by_cases hup : last = ".."
      · simp [hup, pure, Except.pure, eq_comm, hdots ".." (.inr rfl)]
      by_cases hsize : maxNameBytes < last.utf8ByteSize
      · simp [hdot, hup, hsize]
      · simp [hdot, hup, hsize, pure, Except.pure, eq_comm]

theorem KeepsWays.entryPlace (h : KeepsWays tree after) (hentry : tree.entryPlace path = .ok place) :
    after.entryPlace path = .ok place := by
  rw [entryPlace_eq_ok_iff] at hentry ⊢
  refine hentry.imp_right (Or.imp_right ?_)
  rintro ⟨front, last, here, hparts, hfront, hrest⟩
  rw [origin_eq h.workingDirectory]
  exact ⟨front, last, here, hparts, h.walk hfront, hrest⟩

/-- A path names an entry of a directory: its other names lead to that directory. -/
structure NamesEntry (tree : FileTree) (path : String) (dir : Location) (last : String) : Prop where
  check : checkPath path = .ok ()
  name : IsName last
  split : ∃ front, partNames path = front ++ [last] ∧
    tree.walk (tree.origin path) front = .ok (.directory dir)

/-- An entry that is not named by a dot or two is an entry of the directory before it. -/
theorem namesEntry_of_entryPlace {name : String} (h : tree.entryPlace path = .ok place)
    (hname : lastName? path = some name) (hdot : name ≠ ".") (hup : name ≠ "..") :
    ∃ dir last, tree.NamesEntry path dir last ∧ place = dir ++ [last] := by
  have hlast : lastName? path = (partNames path).getLast? := rfl
  obtain ⟨hcheck, ⟨hnil, -⟩ | ⟨front, last, dir, hparts, hfront, hsize, hplace⟩⟩ :=
    entryPlace_eq_ok_iff.mp h
  · rw [hlast, hnil] at hname
    cases hname
  · rw [hlast, hparts, List.getLast?_concat] at hname
    cases hname
    refine ⟨dir, name, ⟨hcheck, ⟨hdot, hup, hsize⟩, front, hparts, hfront⟩, ?_⟩
    rw [hplace, Location.step, if_neg hdot, if_neg hup]

namespace NamesEntry

variable {dir : Location} {last : String}

theorem entryPlace_eq (h : tree.NamesEntry path dir last) :
    tree.entryPlace path = .ok (dir ++ [last]) := by
  obtain ⟨front, hparts, hfront⟩ := h.split
  refine entryPlace_eq_ok_iff.mpr ⟨h.check, .inr ⟨front, last, dir, hparts, hfront, h.name.2.2, ?_⟩⟩
  rw [Location.step, if_neg h.name.1, if_neg h.name.2.1]

/-- What a path names is an entry of a directory that is there. -/
theorem directory (h : tree.NamesEntry path dir last) (hclosed : tree.Closed) :
    tree.node? dir = some .directory := by
  obtain ⟨front, -, hfront⟩ := h.split
  obtain ⟨links, seen, -, hwalk⟩ := walk_eq_ok_iff.mp hfront
  exact hclosed.container_of_walks (hclosed.origin path) hwalk

end NamesEntry

end FileTree

end Offload
