import Offload.Proofs.FileTree.Entries

/-!
# Reading, writing and renaming

Writing puts a file where a path leads, through all links. What was written can be read (`read_write`), and
reading another path gives what it gave before, or what was written (`read_after_write`). Renaming moves
a file or a link to another entry.
-/

namespace Offload.FileTree

variable {tree after : FileTree} {place here spot : Location} {path other : String}
  {contents found : Bytes} {target : Target}

/-! ## Reading -/

/-- A path that leads to no directory does so through directories and links, and ends at a spot. -/
theorem walks_of_resolve (h : tree.resolve path = .ok target)
    (hdirectory : ∀ here, target ≠ .directory here) :
    checkPath path = .ok () ∧ endsInSlash path = false ∧ ∃ links way spot, links ≤ maxLinks ∧
      Walks tree links (way ++ [spot]) (tree.origin path) (partNames path) target ∧
      Walks.AtSpot tree spot target ∧ ∀ here ∈ way, Walks.Passes tree here := by
  obtain ⟨hcheck, hwalk⟩ := resolve_eq_ok_iff.mp h
  cases hslash : endsInSlash path with
  | true =>
    rw [names_of_endsInSlash hslash] at hwalk
    obtain ⟨here, -, rfl⟩ := walk_dot.mp hwalk
    exact absurd rfl (hdirectory here)
  | false =>
    rw [names_of_not_endsInSlash hslash] at hwalk
    obtain ⟨links, seen, hlinks, hwalk⟩ := walk_eq_ok_iff.mp hwalk
    refine ⟨hcheck, rfl, links, ?_⟩
    rcases hwalk.ends with ⟨goal, rfl, -⟩ | ⟨way, spot, rfl, hspot, hpass⟩
    · exact absurd rfl (hdirectory goal)
    · exact ⟨way, spot, hlinks, hwalk, hspot, hpass⟩

theorem read_eq_ok_iff :
    tree.read path = .ok contents ↔
      ∃ spot data, tree.resolve path = .ok (.file spot data) ∧ data.contents = contents := by
  rw [read]
  cases tree.resolve path with
  | error e => simp [bind, Except.bind]
  | ok target => cases target <;> simp [bind, Except.bind, pure, Except.pure]

/-- A file to which the names of a path lead can be read. -/
theorem read_of_walks {links : Nat} {seen : List Location} {data : FileData}
    (hcheck : checkPath path = .ok ()) (hslash : endsInSlash path = false) (hlinks : links ≤ maxLinks)
    (h : Walks tree links seen (tree.origin path) (partNames path) (.file spot data)) :
    tree.read path = .ok data.contents := by
  refine read_eq_ok_iff.mpr ⟨spot, data, resolve_eq_ok_iff.mpr ⟨hcheck, ?_⟩, rfl⟩
  rw [names_of_not_endsInSlash hslash]
  exact walk_eq_ok_iff.mpr ⟨links, seen, hlinks, h⟩

/-! ## Writing -/

/-- At one location there is another node; everywhere else the tree is as it was. -/
structure PutAt (spot : Location) (node : Node) (tree after : FileTree) : Prop where
  workingDirectory : after.workingDirectory = tree.workingDirectory
  there : after.node? spot = some node
  elsewhere : ∀ here, here ≠ spot → after.node? here = tree.node? here

theorem putAt_put (h : spot ≠ []) (node : Node) : PutAt spot node tree (tree.put spot node) :=
  ⟨rfl, node?_put h node, fun _ hne => node?_put_of_ne hne node⟩

/-- A walk to where a file is put leads to the new file. -/
theorem PutAt.walks {data : FileData} (hput : PutAt spot (.file data) tree after)
    {links : Nat} {seen : List Location} {names : List String}
    (h : Walks tree links seen place names target) (hspot : Walks.AtSpot tree spot target) :
    Walks after links seen place names (.file spot data) := by
  induction h with
  | here place => cases hspot
  | dot _ ih => exact .dot (ih hspot)
  | up _ ih => exact .up (ih hspot)
  | enter hname hnode _ ih =>
    refine .enter hname ((hput.elsewhere _ ?_).trans hnode) (ih hspot)
    rintro rfl
    exact hspot.not_passes (.inl hnode)
  | link hname hnode _ ih =>
    refine .link hname ((hput.elsewhere _ ?_).trans hnode) (ih hspot)
    rintro rfl
    exact hspot.not_passes (.inr ⟨_, hnode⟩)
  | file hname _ | missing hname _ =>
    cases hspot
    exact .file hname hput.there

/-- The way to a directory does not go by where a file is put. -/
theorem PutAt.keepsWays {node : Node} (hput : PutAt spot node tree after)
    (hnot : ¬ Walks.Passes tree spot) : KeepsWays tree after :=
  keepsWays_of_passes hput.workingDirectory fun here hpass =>
    hput.elsewhere here (by rintro rfl; exact hnot hpass)

/-- A write has put a file with these contents where the path leads. -/
structure Written (tree after : FileTree) (path : String) (contents : Bytes) (spot : Location)
    (data : FileData) : Prop where
  resolve : ∃ target, tree.resolve path = .ok target ∧ Walks.AtSpot tree spot target
  contents : data.contents = contents
  put : PutAt spot (.file data) tree after

theorem written_of_write (h : tree.write path contents = .ok after) :
    ∃ spot data, Written tree after path contents spot data := by
  have hwritten : ∀ {spot data target}, tree.resolve path = .ok target →
      Walks.AtSpot tree spot target → data.contents = contents →
      Written tree (tree.put spot (.file data)).tick path contents spot data := by
    intro spot data target hresolve hspot hcontents
    have hne : spot ≠ [] := by
      rintro rfl
      exact hspot.not_passes (.inl (node?_root tree))
    have hput : PutAt spot (.file data) tree (tree.put spot (.file data)) := putAt_put hne _
    exact ⟨⟨target, hresolve, hspot⟩, hcontents, hput.workingDirectory, hput.there, hput.elsewhere⟩
  rw [write] at h
  split at h
  · -- a path that says that it leads to a directory is never written
    cases hcheck : checkPath path with
    | error e => simp [hcheck, bind, Except.bind] at h
    | ok _ =>
      cases hwalk : tree.walk (tree.origin path) ((Path.parts path.toList).map String.ofList) with
      | error e => simp [hcheck, hwalk, bind, Except.bind] at h
      | ok target => cases target <;> simp [hcheck, hwalk, bind, Except.bind] at h
  · cases hresolve : tree.resolve path with
    | error e => simp [hresolve, bind, Except.bind] at h
    | ok target =>
      cases target with
      | directory place => simp [hresolve, bind, Except.bind] at h
      | file place old =>
        obtain ⟨-, -, -, -, spot, -, -, hspot, -⟩ := walks_of_resolve hresolve nofun
        simp only [hresolve] at h
        cases h
        cases hspot with
        | file hnode => exact ⟨_, _, hwritten hresolve (.file hnode) rfl⟩
      | missing place =>
        obtain ⟨-, -, -, -, spot, -, -, hspot, -⟩ := walks_of_resolve hresolve nofun
        simp only [hresolve] at h
        cases h
        cases hspot with
        | missing hnode => exact ⟨_, _, hwritten hresolve (.missing hnode) rfl⟩

namespace Written

variable {data : FileData}

theorem not_passes (h : Written tree after path contents spot data) :
    ¬ Walks.Passes tree spot := by
  obtain ⟨target, -, hspot⟩ := h.resolve
  exact hspot.not_passes

/-- The path leads to the new file by the way on which it led to its place. -/
theorem walks (h : Written tree after path contents spot data) :
    checkPath path = .ok () ∧ endsInSlash path = false ∧ ∃ links way target, links ≤ maxLinks ∧
      Walks.AtSpot tree spot target ∧
      Walks tree links (way ++ [spot]) (tree.origin path) (partNames path) target ∧
      Walks after links (way ++ [spot]) (tree.origin path) (partNames path) (.file spot data) ∧
      ∀ here ∈ way, Walks.Passes tree here := by
  obtain ⟨target, hresolve, hspot⟩ := h.resolve
  have hdirectory : ∀ here, target ≠ .directory here := by
    rintro here rfl
    cases hspot
  obtain ⟨hcheck, hslash, links, way, spot', hlinks, hwalk, hspot', hpass⟩ :=
    walks_of_resolve hresolve hdirectory
  obtain rfl : spot' = spot := by cases hspot <;> cases hspot' <;> rfl
  exact ⟨hcheck, hslash, links, way, target, hlinks, hspot, hwalk, h.put.walks hwalk hspot, hpass⟩

theorem read (h : Written tree after path contents spot data) :
    after.read path = .ok contents := by
  obtain ⟨hcheck, hslash, links, way, -, hlinks, -, -, hwalk, -⟩ := h.walks
  rw [← origin_eq h.put.workingDirectory] at hwalk
  rw [← h.contents]
  exact read_of_walks hcheck hslash hlinks hwalk

end Written

/-- What was written can be read. -/
theorem read_write (h : tree.write path contents = .ok after) : after.read path = .ok contents := by
  obtain ⟨spot, data, hwritten⟩ := written_of_write h
  exact hwritten.read

/-- Where a file was put, any path that can be read gives what it gave before, or the new file. -/
theorem PutAt.read {data : FileData} (hput : PutAt spot (.file data) tree after)
    (h : after.read path = .ok found) : found = data.contents ∨ tree.read path = .ok found := by
  obtain ⟨place, data', hresolve, rfl⟩ := read_eq_ok_iff.mp h
  obtain ⟨hcheck, hslash, links, way, spot', hlinks, hwalk, hspot', hpass⟩ :=
    walks_of_resolve hresolve nofun
  rw [origin_eq hput.workingDirectory] at hwalk
  cases hspot' with
  | file hnode =>
    by_cases hend : place = spot
    · left
      rw [hend, hput.there] at hnode
      cases hnode
      rfl
    · -- the new file is not seen on the way, which only goes through directories and links
      refine .inr (read_of_walks hcheck hslash hlinks (hwalk.congr fun here hhere => ?_))
      refine (hput.elsewhere here ?_).symm
      rintro rfl
      rcases List.mem_append.mp hhere with hway | hlast
      · exact (Walks.AtSpot.file hput.there).not_passes (hpass _ hway)
      · exact hend (List.mem_singleton.mp hlast).symm

theorem read_after_write (h : tree.write path contents = .ok after)
    (hread : after.read other = .ok found) : found = contents ∨ tree.read other = .ok found := by
  obtain ⟨spot, data, hwritten⟩ := written_of_write h
  rw [← hwritten.contents]
  exact hwritten.put.read hread

/-! ## Renaming -/

/-- What was at one location is at another, which was none or a file; below both nothing is left. -/
structure Moved (old new : Location) (node : Node) (tree after : FileTree) : Prop where
  workingDirectory : after.workingDirectory = tree.workingDirectory
  was : tree.node? old = some node
  not_directory : node ≠ .directory
  replaced : tree.node? new ≠ some .directory
  there : after.node? new = some node
  gone : ∀ here, here ≠ new → old <+: here → after.node? here = none
  elsewhere : ∀ here, here ≠ new → ¬ old <+: here → after.node? here = tree.node? here

theorem moved_erase_put {old new : Location} {node : Node} (hwas : tree.node? old = some node)
    (hnot : node ≠ .directory) (hreplaced : tree.node? new ≠ some .directory) :
    Moved old new node tree ((tree.erase old).put new node) := by
  have hput : PutAt new node (tree.erase old) ((tree.erase old).put new node) :=
    putAt_put (ne_nil_of_node? hreplaced) node
  refine ⟨rfl, hwas, hnot, hreplaced, hput.there, ?_, ?_⟩
  · rintro here hhere hunder
    have hroot : here ≠ [] := by
      rintro rfl
      rw [List.prefix_nil.mp hunder, node?_root] at hwas
      exact hnot (Option.some.inj hwas).symm
    rw [hput.elsewhere here hhere, node?_erase _ _ hroot, if_pos hunder]
  · intro here hhere hunder
    rw [hput.elsewhere here hhere]
    by_cases hroot : here = []
    · rw [hroot, node?_root, node?_root]
    · rw [node?_erase _ _ hroot, if_neg hunder]

/-- A file or an alias that is renamed stands under the new name. -/
theorem rename_ok {newPath : String} (h : tree.rename path newPath = .ok after) :
    ∃ old dir last node, tree.entryPlace path = .ok old ∧ tree.NamesEntry newPath dir last ∧
      endsInSlash newPath = false ∧ Moved old (dir ++ [last]) node tree after := by
  rw [rename] at h
  cases hold : tree.entryPlace path with
  | error e => simp [hold, bind, Except.bind] at h
  | ok old =>
    cases hnew : tree.entryPlace newPath with
    | error e => simp [hold, hnew, bind, Except.bind] at h
    | ok new =>
      simp only [hold, hnew, bind, Except.bind] at h
      split at h
      · cases h
      · cases h
      · cases h
      rename_i name hdot hup hname
      obtain ⟨dir, last, hnames, rfl⟩ := namesEntry_of_entryPlace hnew hname hdot hup
      split at h
      · cases h
      · cases h
      rename_i node hnode hfound
      split at h
      · cases h
      rename_i hslash
      split at h
      · cases h
      rename_i hplace
      cases h
      have hnot : node ≠ .directory := fun hdirectory => hnode (hdirectory ▸ rfl)
      exact ⟨old, dir, last, node, rfl, hnames, by simpa using hslash,
        moved_erase_put hfound hnot hplace⟩

end Offload.FileTree
