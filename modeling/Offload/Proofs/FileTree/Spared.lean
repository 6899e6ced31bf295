import Offload.Proofs.FileTree.Changes

/-!
# What a change leaves alone

A path depends on the locations at which its walk looks (`trail`). Writing and renaming files creates and
removes no directory and touches few locations; a path that looks at none of them leads where it led
before (`Spares.resolve_eq`), so that neither the contents of its file nor the size and time have changed.
-/

namespace Offload.FileTree

variable {tree mid after : FileTree} {here spot old new : Location} {path newPath : String}
  {contents : Bytes} {touched more : Location → Prop}

/-! ## The files of a path -/

/-- The locations at which is looked when a path is resolved, one after the other. -/
def trail (tree : FileTree) (path : String) : List Location :=
  tree.trailThrough maxLinks (tree.origin path) (names path)

/-- The locations that a path depends on, apart from the directories on its way: those of the links and
of the file to which it leads, or of what is missing. -/
def filesOf (tree : FileTree) (path : String) : List Location :=
  (tree.trail path).filter fun here => tree.node? here ≠ some .directory

/-- Where a path leads to a file or to where one can be created. -/
def spotOf? (tree : FileTree) (path : String) : Option Location :=
  match tree.resolve path with
  | .ok (.file spot _) => some spot
  | .ok (.missing spot) => some spot
  | _ => none

/-! ## Changes that keep the directories -/

/-- The directories are the same, and so is everything else but for the touched locations. -/
structure Spares (touched : Location → Prop) (tree after : FileTree) : Prop where
  workingDirectory : after.workingDirectory = tree.workingDirectory
  directory_iff : ∀ here, after.node? here = some .directory ↔ tree.node? here = some .directory
  elsewhere : ∀ here, ¬ touched here → after.node? here = tree.node? here

namespace Spares

theorem refl (touched : Location → Prop) (tree : FileTree) : Spares touched tree tree :=
  ⟨rfl, fun _ => Iff.rfl, fun _ _ => rfl⟩

theorem trans (h : Spares touched tree mid) (h' : Spares touched mid after) :
    Spares touched tree after :=
  ⟨h'.workingDirectory.trans h.workingDirectory,
    fun here => (h'.directory_iff here).trans (h.directory_iff here),
    fun here hhere => (h'.elsewhere here hhere).trans (h.elsewhere here hhere)⟩

theorem mono (h : Spares touched tree after) (hmore : ∀ here, touched here → more here) :
    Spares more tree after :=
  ⟨h.workingDirectory, h.directory_iff,
    fun here hhere => h.elsewhere here fun htouched => hhere (hmore here htouched)⟩

/-- A path whose files are not touched leads where it led, or fails as it did. -/
theorem resolve_eq (h : Spares touched tree after)
    (hapart : ∀ file ∈ tree.filesOf path, ¬ touched file) : after.resolve path = tree.resolve path := by
  rw [resolve, resolve, origin_eq h.workingDirectory, walk, walk]
  rw [(walkThrough_congr fun here hhere => ?_).1]
  by_cases hdirectory : tree.node? here = some .directory
  · rw [hdirectory]
    exact (h.directory_iff here).mpr hdirectory
  · exact h.elsewhere here (hapart here (List.mem_filter.mpr ⟨hhere, by simpa using hdirectory⟩))

/-- A file that is not touched has the contents that it had. -/
theorem read_eq (h : Spares touched tree after)
    (hapart : ∀ file ∈ tree.filesOf path, ¬ touched file) : after.read path = tree.read path := by
  rw [read, read, h.resolve_eq hapart]

/-- A file that is not touched has the size and the time that it had. -/
theorem metadata_eq (h : Spares touched tree after)
    (hapart : ∀ file ∈ tree.filesOf path, ¬ touched file) :
    after.metadata path = tree.metadata path := by
  rw [metadata, metadata, h.resolve_eq hapart]

/-- What lies in directories goes on to do so if what is new does. -/
theorem closed (h : Spares touched tree after) (hclosed : tree.Closed)
    (hnew : ∀ here, touched here → after.node? here ≠ none →
      tree.node? here.dropLast = some .directory) : after.Closed := by
  refine closed_iff.mpr ⟨?_, fun here hhere => (h.directory_iff _).mpr ?_⟩
  · rw [h.workingDirectory]
    exact (h.directory_iff _).mpr hclosed.1
  · by_cases htouched : touched here
    · exact hnew here htouched hhere
    · rw [h.elsewhere here htouched] at hhere
      exact hclosed.parent hhere

end Spares

/-! ## Writing and renaming -/

theorem PutAt.spares {data : FileData} (h : PutAt spot (.file data) tree after)
    (hspot : tree.node? spot ≠ some .directory) : Spares (· = spot) tree after := by
  refine ⟨h.workingDirectory, fun here => ?_, h.elsewhere⟩
  by_cases hhere : here = spot
  · rw [hhere, h.there]
    exact iff_of_false nofun hspot
  · rw [h.elsewhere here hhere]

theorem Written.spares {data : FileData} (h : Written tree after path contents spot data) :
    Spares (· = spot) tree after :=
  h.put.spares fun hnode => h.not_passes (.inl hnode)

theorem Written.spotOf?_eq {data : FileData} (h : Written tree after path contents spot data) :
    tree.spotOf? path = some spot := by
  obtain ⟨target, hresolve, hspot⟩ := h.resolve
  rw [spotOf?, hresolve]
  cases hspot <;> rfl

theorem spares_of_write (h : tree.write path contents = .ok after) :
    Spares (fun here => tree.spotOf? path = some here) tree after := by
  obtain ⟨spot, data, hwritten⟩ := written_of_write h
  exact hwritten.spares.mono fun here hhere => hhere ▸ hwritten.spotOf?_eq

/-- A write changes no way to a directory. -/
theorem Written.keepsWays {data : FileData} (h : Written tree after path contents spot data) :
    KeepsWays tree after ∧ KeepsWays after tree := by
  have hfile : ¬ Walks.Passes after spot := (Walks.AtSpot.file h.put.there).not_passes
  refine ⟨h.put.keepsWays h.not_passes, keepsWays_of_passes h.put.workingDirectory.symm ?_⟩
  intro here hpass
  refine (h.put.elsewhere here ?_).symm
  rintro rfl
  exact hfile hpass

theorem closed_of_write (hclosed : tree.Closed) (h : tree.write path contents = .ok after) :
    after.Closed := by
  obtain ⟨spot, data, hwritten⟩ := written_of_write h
  refine hwritten.spares.closed hclosed fun here hhere _ => ?_
  obtain ⟨-, -, links, way, target, -, hspot, hwalk, -⟩ := hwritten.walks
  have hcontainer := hclosed.container_of_walks (hclosed.origin path) hwalk
  rw [hhere]
  cases hspot <;> exact hcontainer

theorem Moved.spares {node : Node} (h : Moved old new node tree after) (hclosed : tree.Closed) :
    Spares (fun here => here = old ∨ here = new) tree after := by
  have hold : tree.node? old ≠ some .directory := by
    rw [h.was]
    exact fun hnode => h.not_directory (Option.some.inj hnode)
  have helsewhere : ∀ here, here ≠ old → here ≠ new → after.node? here = tree.node? here := by
    intro here hne hnew
    by_cases hunder : old <+: here
    · rw [h.gone here hnew hunder, hclosed.node?_below hold hunder hne]
    · exact h.elsewhere here hnew hunder
  refine ⟨h.workingDirectory, fun here => ?_, fun here hhere => ?_⟩
  · by_cases hnew : here = new
    · rw [hnew, h.there]
      exact iff_of_false (fun hnode => h.not_directory (Option.some.inj hnode)) h.replaced
    by_cases hhere : here = old
    · rw [h.gone here hnew (hhere ▸ List.prefix_refl old), hhere]
      exact iff_of_false nofun hold
    · rw [helsewhere here hhere hnew]
  · rw [not_or] at hhere
    exact helsewhere here hhere.1 hhere.2

/-- The locations that renaming touches. -/
theorem spares_of_rename (hclosed : tree.Closed) (h : tree.rename path newPath = .ok after) :
    Spares (fun here => tree.entryPlace path = .ok here ∨ tree.entryPlace newPath = .ok here)
      tree after := by
  obtain ⟨old, dir, last, node, hold, hnames, -, hmoved⟩ := rename_ok h
  refine (hmoved.spares hclosed).mono ?_
  rintro here (rfl | rfl)
  · exact .inl hold
  · exact .inr hnames.entryPlace_eq

theorem closed_of_rename (hclosed : tree.Closed) (h : tree.rename path newPath = .ok after) :
    after.Closed := by
  obtain ⟨old, dir, last, node, hold, hnames, -, hmoved⟩ := rename_ok h
  refine (hmoved.spares hclosed).closed hclosed ?_
  rintro here (rfl | rfl) hhere
  · exact hclosed.parent (by rw [hmoved.was]; exact nofun)
  · rw [List.dropLast_concat]
    exact hnames.directory hclosed

end Offload.FileTree
