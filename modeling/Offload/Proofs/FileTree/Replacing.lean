import Offload.Proofs.FileTree.Spared

/-!
# Replacing a file

A file that is written under one name and then renamed to another of the same directory replaces what was
there. What can then be read under the new name is what was written (`eq_of_read_replaced`), and it can be
read unless the first name led by way of the new one (`read_replaced_iff`): a link that takes the place of
what it goes through leads back to itself.
-/

namespace Offload.FileTree

variable {tree mid after : FileTree} {origin dir spot : Location} {path newPath : String}
  {contents found : Bytes} {front more : List String} {last newLast : String} {data : FileData}
  {target other : Target}

/-! ## Names side by side -/

/-- Two paths name different entries of one directory, in the same words but for the last. -/
structure Beside (path newPath : String) : Prop where
  split : ∃ front last newLast, partNames path = front ++ [last] ∧
    partNames newPath = front ++ [newLast] ∧ last ≠ newLast
  origin : ∀ tree : FileTree, tree.origin newPath = tree.origin path

/-- A suffix makes another name of the last name of a path. -/
theorem beside_append {suffix : String} (hne : path ≠ "") (hslash : endsInSlash path = false)
    (hsuffix : suffix ≠ "") (hbare : '/' ∉ suffix.toList) : Beside (path ++ suffix) path := by
  have hchars : path.toList ≠ [] := by simpa using hne
  obtain ⟨front, last, -, hparts⟩ := Path.exists_last_part hchars (by simpa [endsInSlash] using hslash)
  refine ⟨⟨front.map String.ofList, String.ofList (last ++ suffix.toList), String.ofList last, ?_, ?_,
    ?_⟩, fun tree => ?_⟩
  · rw [partNames, String.toList_append, hparts _ hbare, List.map_append, List.map_singleton]
  · have hown := hparts [] List.not_mem_nil
    rw [List.append_nil, List.append_nil] at hown
    rw [partNames, hown, List.map_append, List.map_singleton]
  · intro heq
    simp at heq
    exact hsuffix heq
  · obtain ⟨first, rest, hfirst⟩ := List.exists_cons_of_ne_nil hchars
    rw [FileTree.origin, FileTree.origin, startOf, startOf, String.toList_append, hfirst]
    rfl

/-! ## Coming by a location -/

/-- A walk that sees a location comes there also in a tree that is the same up to it. -/
theorem Walks.comes_by {links links' : Nat} {seen seen' : List Location} {place : Location}
    {names : List String} (h : Walks mid links seen place names target)
    (hseen : dir ++ [newLast] ∈ seen) (hnot : mid.node? (dir ++ [newLast]) ≠ some .directory)
    (hsame : ∀ here ∈ seen, here ≠ dir ++ [newLast] → after.node? here = mid.node? here)
    (hafter : Walks after links' seen' place (names ++ more) other) :
    ∃ links'' way seen'' rest, seen' = way ++ seen'' ∧
      Walks after links'' seen'' dir (newLast :: (rest ++ more)) other := by
  have hhere : ∀ {place : Location} {name : String}, place ++ [name] = dir ++ [newLast] →
      place = dir ∧ name = newLast := fun heq =>
    have h := List.append_inj' heq rfl
    ⟨h.1, List.singleton_inj.mp h.2⟩
  induction h generalizing links' seen' with
  | here _ => cases hseen
  | dot _ ih => exact ih hseen hsame hafter.of_dot
  | up _ ih => exact ih hseen hsame hafter.of_up
  | enter hname hnode h ih =>
    rw [List.forall_mem_cons] at hsame
    rcases List.mem_cons.mp hseen with hfirst | hseen
    · rw [hfirst] at hnot
      exact absurd hnode hnot
    · have hne : _ ≠ dir ++ [newLast] := fun hfirst => hnot (hfirst ▸ hnode)
      obtain ⟨seen₁, rfl, hrest⟩ := hafter.of_directory hname ((hsame.1 hne).trans hnode)
      obtain ⟨links₂, way, seen₂, rest, rfl, hwalk⟩ := ih hseen hsame.2 hrest
      exact ⟨links₂, _ :: way, seen₂, rest, rfl, hwalk⟩
  | @link _ _ place name text rest _ hname hnode h ih =>
    rw [List.forall_mem_cons] at hsame
    by_cases hfirst : place ++ [name] = dir ++ [newLast]
    · obtain ⟨rfl, rfl⟩ := hhere hfirst
      exact ⟨links', [], seen', rest, rfl, hafter⟩
    · have hseen := (List.mem_cons.mp hseen).resolve_left (Ne.symm hfirst)
      obtain ⟨links₁, seen₁, rfl, rfl, hrest⟩ := hafter.of_link hname ((hsame.1 hfirst).trans hnode)
      obtain ⟨links₂, way, seen₂, rest', rfl, hwalk⟩ := ih hseen hsame.2 (by
        rw [List.append_assoc]
        exact hrest)
      exact ⟨links₂, _ :: way, seen₂, rest', rfl, hwalk⟩
  | file _ _ | missing _ _ =>
    obtain ⟨rfl, rfl⟩ := hhere (List.mem_singleton.mp hseen).symm
    exact ⟨links', [], seen', [], rfl, hafter⟩

/-! ## The replacement -/

/-- A name that led to a new file by way of these locations was changed to another. -/
structure Replacement (mid after : FileTree) (origin : Location) (front : List String)
    (dir : Location) (last newLast : String) (spot : Location) (data : FileData)
    (links₀ links₁ : Nat) (seen₀ seen₁ : List Location) : Prop where
  way : Walks mid links₀ seen₀ origin front (.directory dir)
  leads : Walks mid links₁ seen₁ dir [last] (.file spot data)
  newName : IsName newLast
  ne : last ≠ newLast
  replaced : mid.node? (dir ++ [newLast]) ≠ some .directory
  there : after.node? (dir ++ [newLast]) = mid.node? (dir ++ [last])
  elsewhere : ∀ here, here ≠ dir ++ [last] → here ≠ dir ++ [newLast] →
    after.node? here = mid.node? here

namespace Replacement

variable {links₀ links₁ : Nat} {seen₀ seen₁ : List Location}

/-- Under the first name there was the file, or a link to it. -/
theorem node_cases
    (h : Replacement mid after origin front dir last newLast spot data links₀ links₁ seen₀ seen₁) :
    (mid.node? (dir ++ [last]) = some (.file data) ∧ links₁ = 0 ∧ seen₁ = [dir ++ [last]]) ∨
      ∃ text links seen, mid.node? (dir ++ [last]) = some (.link text) ∧ links₁ = links + 1 ∧
        seen₁ = (dir ++ [last]) :: seen ∧
        Walks mid links seen (startOf dir text) (names text) (.file spot data) := by
  have hleads := h.leads
  cases hleads with
  | dot hleads | up hleads | enter _ _ hleads => cases hleads
  | link _ hnode hleads =>
    rw [List.append_nil] at hleads
    exact .inr ⟨_, _, _, hnode, rfl, rfl, hleads⟩
  | file _ hnode => exact .inl ⟨hnode, rfl, rfl⟩

theorem old_ne_new
    (h : Replacement mid after origin front dir last newLast spot data links₀ links₁ seen₀ seen₁) :
    dir ++ [last] ≠ dir ++ [newLast] := fun heq =>
  h.ne (List.singleton_inj.mp (List.append_inj' heq rfl).2)

/-- The first name is not seen on the way to its directory. -/
theorem old_notMem_way
    (h : Replacement mid after origin front dir last newLast spot data links₀ links₁ seen₀ seen₁) :
    dir ++ [last] ∉ seen₀ := by
  rcases h.node_cases with ⟨hnode, -⟩ | ⟨text, links, seen, hnode, -, -, hlink⟩
  · exact fun hmem => (Walks.AtSpot.file hnode).not_passes (h.way.passes _ hmem)
  · have hlink' : Walks mid links seen (startOf (dir ++ [last]).dropLast text) (names text)
        (.file spot data) := by rwa [List.dropLast_concat]
    exact h.way.notMem_of_link_of_directory hlink' hnode

/-- On the way to the directory nothing has changed, unless it goes by the new name. -/
theorem way_after
    (h : Replacement mid after origin front dir last newLast spot data links₀ links₁ seen₀ seen₁)
    (hnew : dir ++ [newLast] ∉ seen₀) : Walks after links₀ seen₀ origin front (.directory dir) := by
  refine h.way.congr fun here hhere => h.elsewhere here ?_ ?_
  · rintro rfl
    exact h.old_notMem_way hhere
  · rintro rfl
    exact hnew hhere

section Link

variable {text : String} {links : Nat} {seen : List Location}

theorem old_notMem_link (hnode : mid.node? (dir ++ [last]) = some (.link text))
    (hlink : Walks mid links seen (startOf dir text) (names text) (.file spot data)) :
    dir ++ [last] ∉ seen := by
  have hlink' : Walks mid links seen (startOf (dir ++ [last]).dropLast text) (names text)
      (.file spot data) := by rwa [List.dropLast_concat]
  exact hlink'.notMem_of_link hnode

/-- A link that leads by way of the new name leads nowhere from there, and one that does not leads to a
file, behind which there are no more names. -/
theorem leads_back
    (h : Replacement mid after origin front dir last newLast spot data links₀ links₁ seen₀ seen₁)
    (hnode : mid.node? (dir ++ [last]) = some (.link text))
    (hlink : Walks mid links seen (startOf dir text) (names text) (.file spot data))
    {links' : Nat} {seen' : List Location} (hmore : dir ++ [newLast] ∈ seen ∨ more ≠ []) :
    ¬ Walks after links' seen' (startOf dir text) (names text ++ more) other := by
  have hsame : ∀ here ∈ seen, here ≠ dir ++ [newLast] → after.node? here = mid.node? here :=
    fun here hhere => h.elsewhere here (by rintro rfl; exact old_notMem_link hnode hlink hhere)
  -- each time that the walk comes by the new name, it has less to see
  induction hlength : seen'.length using Nat.strongRecOn generalizing links' seen' more with
  | ind length ih =>
    intro hwalk
    by_cases hnew : dir ++ [newLast] ∈ seen
    · obtain ⟨links₂, way, seen₂, rest, rfl, hcome⟩ := hlink.comes_by hnew h.replaced hsame hwalk
      obtain ⟨links₃, seen₃, -, rfl, hagain⟩ := hcome.of_link h.newName (h.there.trans hnode)
      refine ih seen₃.length ?_ (.inl hnew) rfl hagain
      rw [← hlength, List.length_append, List.length_cons]
      omega
    · have hafter := hlink.congr fun here hhere => hsame here hhere (by rintro rfl; exact hnew hhere)
      exact (hmore.resolve_left hnew) (hafter.last_of_file hwalk)

end Link

/-- If the first name led by way of the new one, the new one leads to no file. -/
theorem leads_nowhere
    (h : Replacement mid after origin front dir last newLast spot data links₀ links₁ seen₀ seen₁)
    (hnew : dir ++ [newLast] ∈ seen₀ ++ seen₁) {links' : Nat} {seen' : List Location}
    {place : Location} {data' : FileData} :
    ¬ Walks after links' seen' origin (front ++ [newLast]) (.file place data') := by
  intro hwalk
  have hlast : [newLast] ≠ [] := List.cons_ne_nil _ _
  by_cases hway : dir ++ [newLast] ∈ seen₀
  · -- what has taken the place is no directory, and more names follow
    have hsame : ∀ here ∈ seen₀, here ≠ dir ++ [newLast] → after.node? here = mid.node? here :=
      fun here hhere => h.elsewhere here (by rintro rfl; exact h.old_notMem_way hhere)
    obtain ⟨links₂, way, seen₂, rest, -, hcome⟩ := h.way.comes_by hway h.replaced hsame hwalk
    have hmore : rest ++ [newLast] ≠ [] := by simp
    rcases h.node_cases with ⟨hnode, -⟩ | ⟨text, links, seen, hnode, -, -, hlink⟩
    · exact hmore (hcome.of_file h.newName (h.there.trans hnode)).1
    · obtain ⟨links₃, seen₃, -, -, hagain⟩ := hcome.of_link h.newName (h.there.trans hnode)
      exact h.leads_back hnode hlink (.inr hmore) hagain
  · have hseen := (List.mem_append.mp hnew).resolve_left hway
    obtain ⟨links₂, seen₂, hrest⟩ := hwalk.rest hlast (h.way_after hway)
    rcases h.node_cases with ⟨-, -, rfl⟩ | ⟨text, links, seen, hnode, -, rfl, hlink⟩
    · exact h.old_ne_new (List.mem_singleton.mp hseen).symm
    · have hlinkSeen := (List.mem_cons.mp hseen).resolve_left h.old_ne_new.symm
      obtain ⟨links₃, seen₃, -, -, hagain⟩ := hrest.of_link h.newName (h.there.trans hnode)
      exact h.leads_back hnode hlink (.inl hlinkSeen) hagain

/-- Otherwise the new name leads to the new file. -/
theorem leads_to_file
    (h : Replacement mid after origin front dir last newLast spot data links₀ links₁ seen₀ seen₁)
    (hnew : dir ++ [newLast] ∉ seen₀ ++ seen₁) :
    ∃ seen place, Walks after (links₀ + links₁) seen origin (front ++ [newLast])
      (.file place data) := by
  rw [List.mem_append, not_or] at hnew
  have hway := h.way_after hnew.1
  rcases h.node_cases with ⟨hnode, rfl, -⟩ | ⟨text, links, seen, hnode, rfl, rfl, hlink⟩
  · exact ⟨_, _, hway.append (.file h.newName (h.there.trans hnode))⟩
  · have hafter : Walks after links seen (startOf dir text) (names text) (.file spot data) := by
      refine hlink.congr fun here hhere => h.elsewhere here ?_ ?_
      · rintro rfl
        exact old_notMem_link hnode hlink hhere
      · rintro rfl
        exact hnew.2 (List.mem_cons_of_mem _ hhere)
    have hrest : Walks after links seen (startOf dir text) (names text ++ []) (.file spot data) := by
      rwa [List.append_nil]
    exact ⟨_, _, hway.append (.link h.newName (h.there.trans hnode) hrest)⟩

end Replacement

/-! ## Writing under one name and renaming -/

/-- The locations that a path which leads to a written file looks at are those that it goes by. -/
theorem Written.trail_eq (h : Written tree mid path contents spot data) :
    ∃ links way, links ≤ maxLinks ∧ tree.trail path = way ++ [spot] ∧
      Walks mid links (way ++ [spot]) (tree.origin path) (partNames path) (.file spot data) := by
  obtain ⟨-, hslash, links, way, target, hlinks, -, hwalk, hnew, -⟩ := h.walks
  refine ⟨links, way, hlinks, ?_, hnew⟩
  rw [trail, names_of_not_endsInSlash hslash, hwalk.trailThrough_eq hlinks]

/-- Writing a file and renaming it is a replacement. -/
theorem replacement_of_rename (hclosed : tree.Closed) (hbeside : Beside path newPath)
    (hwrite : tree.write path contents = .ok mid) (hrename : mid.rename path newPath = .ok after) :
    ∃ front dir last newLast spot data links₀ links₁ seen₀ seen₁,
      Replacement mid after (tree.origin path) front dir last newLast spot data links₀ links₁
        seen₀ seen₁ ∧
      data.contents = contents ∧ links₀ + links₁ ≤ maxLinks ∧ tree.trail path = seen₀ ++ seen₁ ∧
      tree.entryPlace newPath = .ok (dir ++ [newLast]) ∧
      checkPath newPath = .ok () ∧ endsInSlash newPath = false ∧
      after.origin newPath = tree.origin path ∧ partNames newPath = front ++ [newLast] := by
  obtain ⟨spot, data, hwritten⟩ := written_of_write hwrite
  obtain ⟨links, way, hlinks, htrail, hwalk⟩ := hwritten.trail_eq
  obtain ⟨front, last, newLast, hparts, hnewParts, hne⟩ := hbeside.split
  obtain ⟨old, dir', newLast', node, hold, hnames, hslash, hmoved⟩ := rename_ok hrename
  have hmid : mid.origin path = tree.origin path := origin_eq hwritten.put.workingDirectory path
  rw [hparts] at hwalk
  obtain ⟨dir, links₀, seen₀, links₁, seen₁, hway, hleads, rfl, hseen⟩ :=
    hwalk.split (List.cons_ne_nil last [])
  -- both names are those of entries of the directory to which the front leads
  obtain ⟨front', hnewParts', hfront'⟩ := hnames.split
  rw [hnewParts] at hnewParts'
  obtain ⟨rfl, hlast⟩ := List.append_inj' hnewParts' rfl
  obtain rfl := List.singleton_inj.mp hlast
  have hfront : mid.walk (tree.origin path) front = .ok (.directory dir) :=
    walk_eq_ok_iff.mpr ⟨links₀, seen₀, by omega, hway⟩
  obtain rfl : dir' = dir := by
    rw [hbeside.origin, hmid, hfront] at hfront'
    cases hfront'
    rfl
  have hname := hleads.isName_of_last nofun
  obtain rfl : old = dir' ++ [last] := by
    have hentry : mid.NamesEntry path dir' last :=
      ⟨hwritten.walks.1, hname, front, hparts, hmid.symm ▸ hfront⟩
    rw [hentry.entryPlace_eq] at hold
    cases hold
    rfl
  have hspares := hmoved.spares (closed_of_write hclosed hwrite)
  refine ⟨front, dir', last, newLast, spot, data, links₀, links₁, seen₀, seen₁,
    ⟨hway, hleads, hnames.name, hne, hmoved.replaced, hmoved.there.trans hmoved.was.symm, ?_⟩,
    hwritten.contents, hlinks, htrail.trans hseen, ?_, hnames.check, hslash, ?_, hnewParts⟩
  · exact fun here hold hnew => hspares.elsewhere here (not_or.mpr ⟨hold, hnew⟩)
  · exact hwritten.keepsWays.2.entryPlace hnames.entryPlace_eq
  · rw [origin_eq hmoved.workingDirectory, hbeside.origin, hmid]

/-- A file that is written and then renamed can be read under the new name, and nothing else can, unless
its first name led by way of the new one: then nothing can be read under it. -/
theorem read_replaced (hclosed : tree.Closed) (hbeside : Beside path newPath)
    (hwrite : tree.write path contents = .ok mid) (hrename : mid.rename path newPath = .ok after) :
    ∃ place, tree.entryPlace newPath = .ok place ∧
      (place ∉ tree.trail path → after.read newPath = .ok contents) ∧
      (place ∈ tree.trail path → ∀ found, after.read newPath ≠ .ok found) := by
  obtain ⟨front, dir, last, newLast, spot, data, links₀, links₁, seen₀, seen₁, hreplacement, hdata,
    hlinks, htrail, hentry, hcheck, hslash, horigin, hparts⟩ :=
    replacement_of_rename hclosed hbeside hwrite hrename
  refine ⟨dir ++ [newLast], hentry, ?_, ?_⟩ <;> rw [htrail]
  · intro hmem
    obtain ⟨seen, place, hwalk⟩ := hreplacement.leads_to_file hmem
    rw [← horigin, ← hparts] at hwalk
    rw [← hdata]
    exact read_of_walks hcheck hslash hlinks hwalk
  · intro hmem found hread
    obtain ⟨place, data', hresolve, -⟩ := read_eq_ok_iff.mp hread
    obtain ⟨-, -, links, way, spot', -, hwalk, -⟩ := walks_of_resolve hresolve nofun
    rw [horigin, hparts] at hwalk
    exact hreplacement.leads_nowhere hmem hwalk

theorem eq_of_read_replaced (hclosed : tree.Closed) (hbeside : Beside path newPath)
    (hwrite : tree.write path contents = .ok mid) (hrename : mid.rename path newPath = .ok after)
    (hread : after.read newPath = .ok found) : found = contents := by
  obtain ⟨place, -, hreads, hfails⟩ := read_replaced hclosed hbeside hwrite hrename
  by_cases hmem : place ∈ tree.trail path
  · exact absurd hread (hfails hmem found)
  · rw [hreads hmem] at hread
    cases hread
    rfl

end Offload.FileTree
