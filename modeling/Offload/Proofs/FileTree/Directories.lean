import Offload.Proofs.FileTree.Changes
import Mathlib.Logic.Relation

/-!
# Creating and removing directories

Creating directories adds directories and nothing else, and each of them is where a path above the created
one leads (`grows_createDirs`). Removing a directory leaves nothing below its place and everything else as
it was (`removeTree_cases`).
-/

namespace Offload.FileTree

variable {tree mid after : FileTree} {place here goal : Location} {path : String}
  {target : Target} {links : Nat} {seen : List Location} {names others : List String}

/-! ## Dots on the way -/

theorem Walks.dots_append {front : List String} (hfront : ∀ name ∈ front, name = ".")
    (h : Walks tree links seen place names target) :
    Walks tree links seen place (front ++ names) target := by
  induction front with
  | nil => exact h
  | cons name front ih =>
    rw [List.forall_mem_cons] at hfront
    obtain rfl := hfront.1
    exact .dot (ih hfront.2)

/-- Dots on the way to a directory make no difference. -/
theorem Walks.dots (h : Walks tree links seen place names (.directory here))
    (hsame : others.filter (· ≠ ".") = names.filter (· ≠ ".")) :
    Walks tree links seen place others (.directory here) := by
  have hcons : ∀ {name : String} {rest others : List String}, name ≠ "." →
      others.filter (· ≠ ".") = (name :: rest).filter (· ≠ ".") →
      ∃ front rest', others = front ++ name :: rest' ∧ (∀ name ∈ front, name = ".") ∧
        rest'.filter (· ≠ ".") = rest.filter (· ≠ ".") := by
    intro name rest others hname hsame
    rw [List.filter_cons_of_pos (by simpa using hname)] at hsame
    obtain ⟨front, rest', rfl, hfront, -, hrest⟩ := List.filter_eq_cons_iff.mp hsame
    exact ⟨front, rest', rfl, fun name hname => by simpa using hfront name hname, hrest⟩
  generalize hend : Target.directory here = last at h
  induction h generalizing others with
  | here place =>
    have hdots : ∀ name ∈ others, name = "." := by simpa using hsame
    rw [← List.append_nil others]
    exact .dots_append hdots (.here place)
  | dot _ ih =>
    rw [List.filter_cons_of_neg (by simp)] at hsame
    exact ih hsame hend
  | up _ ih =>
    obtain ⟨front, rest, rfl, hfront, hrest⟩ := hcons (by decide) hsame
    exact .dots_append hfront (.up (ih hrest hend))
  | enter hname hnode _ ih =>
    obtain ⟨front, rest, rfl, hfront, hrest⟩ := hcons hname.1 hsame
    exact .dots_append hfront (.enter hname hnode (ih hrest hend))
  | link hname hnode _ ih =>
    obtain ⟨front, rest, rfl, hfront, hrest⟩ := hcons hname.1 hsame
    refine .dots_append hfront (.link hname hnode (ih ?_ hend))
    rw [List.filter_append, List.filter_append, hrest]
  | file _ _ | missing _ _ => cases hend

/-- Where there are no links below a place, names lead down from there unless they lead up. -/
theorem Walks.isPrefix (h : Walks tree links seen here names (.directory goal))
    (hbelow : place <+: here) (hup : ".." ∉ names)
    (hlinks : ∀ spot text, place <+: spot → spot ≠ place → tree.node? spot ≠ some (.link text)) :
    here <+: goal := by
  generalize hend : Target.directory goal = last at h
  induction h with
  | here _ =>
    cases hend
    exact List.prefix_refl _
  | dot _ ih => exact ih hbelow (fun hmem => hup (List.mem_cons_of_mem _ hmem)) hend
  | up _ _ => exact absurd List.mem_cons_self hup
  | enter _ _ _ ih =>
    exact (List.prefix_append _ _).trans (ih (hbelow.trans (List.prefix_append _ _))
      (fun hmem => hup (List.mem_cons_of_mem _ hmem)) hend)
  | link _ hnode _ _ =>
    refine absurd hnode (hlinks _ _ (hbelow.trans (List.prefix_append _ _)) ?_)
    rintro rfl
    have hlength := hbelow.length_le
    rw [List.length_append, List.length_singleton] at hlength
    omega
  | file _ _ | missing _ _ => cases hend

/-! ## Creating directories -/

/-- A path is above another: the other one without some of its last components. -/
def Above (path above : String) : Prop :=
  Relation.TransGen (fun p q => parent? p = some q) path above

/-- The parent has the components of the path but for the last, and starts at the same directory. -/
theorem partNames_parent {parent : String} (h : parent? path = some parent) :
    partNames parent = (Path.components path.toList).dropLast.map String.ofList ∧
      tree.origin parent = tree.origin path := by
  have hbare : ∀ name ∈ (Path.components path.toList).dropLast, name ≠ [] ∧ '/' ∉ name :=
    fun name hname => Path.bare_of_mem_components (List.dropLast_subset _ hname)
  rw [parent?] at h
  split at h
  · cases h
  cases h
  by_cases habsolute : Path.isAbsolute path.toList = true
  · have hslash : ∀ text, ("/" ++ String.ofList text).toList = [] ++ '/' :: text := by simp
    rw [if_pos habsolute, partNames, origin, origin, startOf, startOf, if_pos habsolute, hslash,
      Path.parts_append, Path.parts_intercalate hbare]
    exact ⟨rfl, rfl⟩
  · rw [if_neg habsolute, partNames, origin, origin, startOf, startOf, if_neg habsolute,
      String.toList_ofList, Path.parts_intercalate hbare, Path.isAbsolute_intercalate hbare]
    exact ⟨rfl, rfl⟩

/-- But for dots, the components of a path are its names. -/
theorem filter_components (path : String) :
    ((Path.components path.toList).map String.ofList).filter (· ≠ ".") =
      (partNames path).filter (· ≠ ".") := by
  obtain ⟨front, hfront, hcomponents⟩ := Path.components_eq path.toList
  have hdot : ∀ name : List Char, name = ['.'] ↔ String.ofList name = "." := by
    intro name
    rw [← String.toList_inj, String.toList_ofList]
    rfl
  have hfilter : (front.map String.ofList).filter (· ≠ ".") = [] := by
    rcases hfront with rfl | rfl <;> rfl
  rw [hcomponents, List.map_append, List.filter_append, hfilter, List.nil_append, partNames,
    List.filter_map, List.filter_map, List.filter_filter]
  refine congrArg _ (List.filter_congr fun name _ => ?_)
  simp [hdot]

/-- The names of a path above another are the first names of that, dots apart. -/
theorem Above.names_isPrefix {above : String} (h : Above path above) :
    (partNames above).filter (· ≠ ".") <+: (partNames path).filter (· ≠ ".") ∧
      tree.origin above = tree.origin path := by
  have hparent : ∀ {path parent : String}, parent? path = some parent →
      (partNames parent).filter (· ≠ ".") <+: (partNames path).filter (· ≠ ".") ∧
        tree.origin parent = tree.origin path := by
    intro path parent hparent
    obtain ⟨hnames, horigin⟩ : _ ∧ tree.origin parent = tree.origin path := partNames_parent hparent
    refine ⟨?_, horigin⟩
    rw [hnames, ← filter_components path]
    exact ((List.dropLast_prefix _).map String.ofList).filter _
  induction h using Relation.TransGen.head_induction_on with
  | single h => exact hparent h
  | head h _ ih => exact ⟨ih.1.trans (hparent h).1, ih.2.trans (hparent h).2⟩

/-- A tree has grown: there are directories that were not there before, and each of them is where one
of these paths leads. -/
structure Grows (paths : String → Prop) (tree after : FileTree) : Prop where
  workingDirectory : after.workingDirectory = tree.workingDirectory
  node : ∀ here, after.node? here = tree.node? here ∨
    tree.node? here = none ∧ after.node? here = some .directory ∧
      ∃ path, paths path ∧ after.LeadsTo path here

namespace Grows

variable {paths : String → Prop}

theorem refl (paths : String → Prop) (tree : FileTree) : Grows paths tree tree :=
  ⟨rfl, fun _ => .inl rfl⟩

theorem mono {more : String → Prop} (h : Grows paths tree after)
    (hmore : ∀ path, paths path → more path) : Grows more tree after := by
  refine ⟨h.workingDirectory, fun here => (h.node here).imp_right ?_⟩
  rintro ⟨hnone, hdirectory, path, hpath, hleads⟩
  exact ⟨hnone, hdirectory, path, hmore path hpath, hleads⟩

theorem within (h : Grows paths tree after) : Within tree after :=
  ⟨h.workingDirectory, fun here hhere => (h.node here).resolve_right fun hnew => hhere hnew.1⟩

theorem trans (h : Grows paths tree mid) (h' : Grows paths mid after) :
    Grows paths tree after := by
  refine ⟨h'.workingDirectory.trans h.workingDirectory, fun here => ?_⟩
  rcases h.node here with hsame | ⟨hnone, hdirectory, path, hpath, hleads⟩
  · rw [← hsame]
    exact h'.node here
  · refine .inr ⟨hnone, ?_, path, hpath, h'.within.keepsWays.leadsTo hleads⟩
    rw [h'.within.node here (by rw [hdirectory]; exact nofun), hdirectory]

end Grows

/-- The path of a new directory leads to it. -/
theorem leadsTo_put (hentry : tree.entryPlace path = .ok place) (hnone : tree.node? place = none) :
    (tree.put place .directory).LeadsTo path place := by
  have hne : place ≠ [] := by
    rintro rfl
    rw [node?_root] at hnone
    cases hnone
  have hput : PutAt place .directory tree (tree.put place .directory) := putAt_put hne _
  have hways : KeepsWays tree (tree.put place .directory) := hput.keepsWays (by
    rintro (hpass | ⟨text, hpass⟩) <;> rw [hnone] at hpass <;> cases hpass)
  obtain ⟨-, ⟨-, hroot⟩ | ⟨front, last, dir, hparts, hfront, hsize, hplace⟩⟩ :=
    entryPlace_eq_ok_iff.mp hentry
  · exact absurd hroot hne
  · obtain ⟨links, seen, hlinks, hwalk⟩ := walk_eq_ok_iff.mp (hways.walk hfront)
    -- now the last name leads to the new directory
    have hlast : ∃ seen', Walks (tree.put place .directory) 0 seen' dir [last] (.directory place) := by
      rw [hplace, Location.step]
      rcases name_cases last with rfl | rfl | hlong | hname
      · exact ⟨[], .dot (.here dir)⟩
      · exact ⟨[], .up (.here _)⟩
      · exact absurd hlong hsize
      · rw [if_neg hname.1, if_neg hname.2.1]
        refine ⟨_, .enter hname ?_ (.here _)⟩
        rw [← hput.there, hplace, Location.step, if_neg hname.1, if_neg hname.2.1]
    obtain ⟨seen', hlast⟩ := hlast
    rw [LeadsTo, origin_eq hput.workingDirectory, hparts]
    exact walk_eq_ok_iff.mpr ⟨links + 0, seen ++ seen', hlinks, hwalk.append hlast⟩

theorem grows_createDir (h : tree.createDir path = .ok after) : Grows (· = path) tree after := by
  rw [createDir] at h
  cases hentry : tree.entryPlace path with
  | error e => simp [hentry, bind, Except.bind] at h
  | ok place =>
    simp only [hentry, bind, Except.bind] at h
    split at h
    · cases h
    rename_i hnone
    cases h
    have hne : place ≠ [] := ne_nil_of_node? (by rw [hnone]; exact nofun)
    have hput : PutAt place .directory tree (tree.put place .directory) := putAt_put hne _
    refine ⟨rfl, fun here => ?_⟩
    by_cases hhere : here = place
    · rw [hhere]
      exact .inr ⟨hnone, hput.there, path, rfl, leadsTo_put hentry hnone⟩
    · exact .inl (hput.elsewhere here hhere)

/-- Creating a directory, and those above it, adds directories and nothing else. -/
theorem grows_createDirsFrom (fuel : Nat) (tree : FileTree) (path : String) :
    Grows (fun p => p = path ∨ Above path p) tree (createDirsFrom fuel tree path).1 := by
  -- the paths that may be created are those of the path created last and those of its parent
  induction fuel generalizing tree path with
  | zero => exact .refl _ tree
  | succ fuel ih =>
    have hown : ∀ {tree after : FileTree}, tree.createDir path = .ok after →
        Grows (fun p => p = path ∨ Above path p) tree after := fun h =>
      (grows_createDir h).mono fun _ => .inl
    rw [createDirsFrom]
    split
    · exact .refl _ tree
    split
    case h_1 after hcreate => exact hown hcreate
    case h_2 hcreate =>
      split
      case h_1 => exact .refl _ tree
      case h_2 parent hparent =>
        have habove : Grows (fun p => p = path ∨ Above path p) tree
            (createDirsFrom fuel tree parent).1 := by
          refine (ih tree parent).mono fun p hp => .inr ?_
          rcases hp with rfl | hp
          · exact .single hparent
          · exact .head hparent hp
        split
        case h_1 mid e hmid =>
          rw [hmid] at habove
          exact habove
        case h_2 mid hmid =>
          rw [hmid] at habove
          split
          case h_1 after hlast => exact habove.trans (hown hlast)
          case h_2 e hlast => split <;> exact habove
    case h_3 e hcreate => split <;> exact .refl _ tree

theorem grows_createDirs (tree : FileTree) (path : String) :
    Grows (fun p => p = path ∨ Above path p) tree (tree.createDirs path).1 :=
  grows_createDirsFrom _ tree path

/-- A place that holds no link, and that a path names, is where the path leads if it leads anywhere. -/
theorem LeadsTo.eq_of_entryPlace (hleads : tree.LeadsTo path here)
    (hentry : tree.entryPlace path = .ok place)
    (hlink : ∀ text, tree.node? place ≠ some (.link text)) : here = place := by
  obtain ⟨hcheck, ⟨hnil, rfl⟩ | ⟨front, last, dir, hparts, hfront, hsize, hplace⟩⟩ :=
    entryPlace_eq_ok_iff.mp hentry
  · have habsolute : Path.isAbsolute path.toList = true := by
      refine isAbsolute_of_parts_eq_nil ?_ (by simpa [partNames] using hnil)
      simpa using ne_empty_of_checkPath hcheck
    rw [LeadsTo, hnil, origin, startOf, habsolute, walk, walkThrough_nil] at hleads
    cases hleads
    rfl
  · rw [LeadsTo, hparts] at hleads
    obtain ⟨links, seen, -, hwalk⟩ := walk_eq_ok_iff.mp hleads
    obtain ⟨links', seen', -, hfront⟩ := walk_eq_ok_iff.mp hfront
    obtain ⟨links₂, seen₂, hlast⟩ := hwalk.rest (List.cons_ne_nil last []) hfront
    rw [Location.step] at hplace
    rcases name_cases last with rfl | rfl | hlong | hname
    · cases hlast.of_dot
      rw [hplace, if_pos rfl]
    · cases hlast.of_up
      rw [hplace, if_neg (by decide), if_pos rfl]
    · exact absurd hlong hsize
    rw [if_neg hname.1, if_neg hname.2.1] at hplace
    cases hlast with
    | dot _ => exact absurd rfl hname.1
    | up _ => exact absurd rfl hname.2.1
    | enter _ _ h =>
      cases h
      exact hplace.symm
    | link _ hnode _ => exact absurd hnode (hplace ▸ hlink _)

/-! ## Removing directories -/

/-- Nothing is left below a location, and the tree outside of it is as it was; at the location itself
there is at most the directory that was there. -/
structure Emptied (place : Location) (tree after : FileTree) : Prop where
  workingDirectory : after.workingDirectory = tree.workingDirectory
  below : ∀ here, place <+: here → here ≠ place → after.node? here = none
  own : after.node? place = none ∨
    after.node? place = some .directory ∧ tree.node? place = some .directory
  outside : ∀ here, ¬ place <+: here → after.node? here = tree.node? here

theorem Emptied.within (h : Emptied place tree after) : Within after tree := by
  refine ⟨h.workingDirectory.symm, fun here hhere => ?_⟩
  by_cases hbelow : place <+: here
  · by_cases hne : here = place
    · subst hne
      obtain ⟨hafter, htree⟩ := h.own.resolve_left hhere
      rw [hafter, htree]
    · exact absurd (h.below here hbelow hne) hhere
  · exact (h.outside here hbelow).symm

theorem emptied_of_missing (h : tree.Closed) (hplace : tree.node? place = none) :
    Emptied place tree tree :=
  ⟨rfl, fun _ hbelow hne => h.node?_below (by rw [hplace]; exact nofun) hbelow hne, .inl hplace,
    fun _ _ => rfl⟩

theorem emptied_clear (hplace : tree.node? place = some .directory) :
    Emptied place tree (tree.clear place) := by
  refine ⟨rfl, fun here hbelow hne => ?_, .inr ⟨?_, hplace⟩, fun here hout => ?_⟩
  · rw [node?_clear, if_pos ⟨hbelow, hne⟩]
  · rw [node?_clear, if_neg fun h => h.2 rfl, hplace]
  · rw [node?_clear, if_neg fun h => hout h.1]

theorem emptied_erase (hworking : after.workingDirectory = tree.workingDirectory)
    (houtside : ∀ here, ¬ place <+: here → after.node? here = tree.node? here) (hplace : place ≠ []) :
    Emptied place tree (after.erase place) := by
  have hne : ∀ {here : Location}, place <+: here → here ≠ [] := by
    rintro here hbelow rfl
    exact hplace (List.prefix_nil.mp hbelow)
  refine ⟨hworking, fun here hbelow _ => ?_, .inl ?_, fun here hout => ?_⟩
  · rw [node?_erase _ _ (hne hbelow), if_pos hbelow]
  · rw [node?_erase _ _ hplace, if_pos (List.prefix_refl place)]
  · by_cases hroot : here = []
    · rw [hroot, node?_root, node?_root]
    · rw [node?_erase _ _ hroot, if_neg hout]
      exact houtside here hout

/-- What is left without a place and everything in it is in the emptied tree. -/
theorem Emptied.within_of_erase (h : Emptied place tree after) : Within (tree.erase place) after := by
  refine ⟨h.workingDirectory, fun here hhere => ?_⟩
  by_cases hroot : here = []
  · rw [hroot, node?_root, node?_root]
  · rw [node?_erase _ _ hroot] at hhere ⊢
    split at hhere
    · exact absurd rfl hhere
    · rename_i hout
      rw [if_neg hout]
      exact h.outside here hout

/-- Removing one directory erases the location of its path. -/
theorem removeDir_ok (h : tree.removeDir path = .ok after) :
    ∃ place, tree.entryPlace path = .ok place ∧ place ≠ [] ∧ tree.node? place = some .directory ∧
      after = tree.erase place := by
  rw [removeDir] at h
  cases hentry : tree.entryPlace path with
  | error e => simp [hentry, bind, Except.bind] at h
  | ok place =>
    simp only [hentry, bind, Except.bind] at h
    split at h
    · cases h
    · cases h
    · cases h
    rename_i name hdot hup hname
    obtain ⟨dir, last, -, hplace⟩ := namesEntry_of_entryPlace hentry hname hdot hup
    split at h
    · cases h
    · rename_i hnode
      split at h
      · cases h
        exact ⟨place, rfl, by rw [hplace]; simp, hnode, rfl⟩
      · cases h
    · cases h

/-- What is looked at under a path is the entry that it names, or what it leads to. -/
theorem ownPlace_cases (h : tree.ownPlace path = .ok place) :
    tree.entryPlace path = .ok place ∨ tree.LeadsTo path place := by
  rw [ownPlace] at h
  split at h
  · right
    cases hresolve : tree.resolve path with
    | error e => simp [hresolve, bind, Except.bind] at h
    | ok target =>
      cases target with
      | directory goal =>
        simp only [hresolve, bind, Except.bind] at h
        cases h
        exact (resolve_eq_directory_iff.mp hresolve).2
      | file spot data => simp [hresolve, bind, Except.bind] at h
      | missing spot => simp [hresolve, bind, Except.bind] at h
  · exact .inl h

/-- A directory that is cleared and then removed leaves nothing. -/
theorem emptied_of_removeDir (hplace : tree.ownPlace path = .ok place)
    (hdirectory : tree.node? place = some .directory)
    (h : (tree.clear place).removeDir path = .ok after) : Emptied place tree after := by
  obtain ⟨place', hentry, hne, hnode, rfl⟩ := removeDir_ok h
  have hwithin : Within (tree.clear place) tree := (emptied_clear hdirectory).within
  -- the path names the same place as before
  obtain rfl : place' = place := by
    have hbefore := hwithin.keepsWays.entryPlace hentry
    rcases ownPlace_cases hplace with hown | hleads
    · rw [hown] at hbefore
      cases hbefore
      rfl
    · refine (hleads.eq_of_entryPlace hbefore fun text hlink => ?_).symm
      rw [hwithin.node place' (by rw [hnode]; exact nofun), hnode] at hlink
      cases hlink
  exact emptied_erase rfl (emptied_clear hdirectory).outside hne

/-- A removal that succeeds, or finds nothing at the end, leaves nothing at the place of the path;
unless that place was not found, when it does nothing. -/
theorem removeTree_cases (hclosed : tree.Closed) {outcome : Except SystemError Unit}
    (h : tree.removeTree path = (after, outcome))
    (houtcome : outcome = .ok () ∨ outcome = .error .notFound) :
    (∃ place, tree.ownPlace path = .ok place ∧ Emptied place tree after) ∨
      tree.ownPlace path = .error .notFound ∧ after = tree := by
  rw [removeTree] at h
  cases hplace : tree.ownPlace path with
  | error e =>
    rw [hplace] at h
    cases h
    rcases houtcome with houtcome | houtcome
    · cases houtcome
    · cases houtcome
      exact .inr ⟨rfl, rfl⟩
  | ok place =>
    rw [hplace] at h
    refine .inl ⟨place, rfl, ?_⟩
    dsimp only at h
    cases hnode : tree.node? place with
    | none =>
      rw [hnode] at h
      cases h
      exact emptied_of_missing hclosed hnode
    | some node =>
      rw [hnode] at h
      cases node with
      | file data =>
        cases h
        rcases houtcome with houtcome | houtcome <;> cases houtcome
      | link text =>
        cases h
        exact emptied_erase rfl (fun _ _ => rfl) (ne_nil_of_node? (by rw [hnode]; exact nofun))
      | directory =>
        dsimp only at h
        cases hremove : (tree.clear place).removeDir path with
        | error e =>
          rw [hremove] at h
          cases h
          exact emptied_clear hnode
        | ok removed =>
          rw [hremove] at h
          cases h
          exact emptied_of_removeDir hplace hnode hremove

end Offload.FileTree
