import Offload.FileTree.Operations
import Offload.Proofs.Path
import Mathlib.Data.List.Induction

/-!
# Where paths lead

A walk that leads somewhere looks at one location after the other (`Walks`): at directories and links
on its way and, unless it ends in a directory, at the file or the gap where it ends. It depends on
nothing else in the tree (`Walks.congr`, `walkThrough_congr`), so it goes on to lead where it led as long
as what it has looked at stays. A walk over a list of names is one over its front and then one over the
rest (`Walks.append`, `Walks.split`).
-/

namespace Offload.FileTree

variable {tree after : FileTree} {place here spot : Location} {path : String} {target : Target}

/-! ## Nodes -/

/-- Filtering by location keeps what is found at the locations that are kept. -/
theorem find?_kept (entries : List (Location × Node)) (keep : Location → Bool) (here : Location) :
    ((entries.filter fun e => keep e.1).find? fun e => e.1 == here) =
      if keep here then entries.find? (fun e => e.1 == here) else none := by
  induction entries with
  | nil => simp
  | cons e rest ih =>
    rw [List.filter_cons, List.find?_cons]
    by_cases hhere : e.1 = here
    · subst hhere
      cases hkeep : keep e.1 <;> simp [hkeep, ih]
    · have hne : (e.1 == here) = false := beq_false_of_ne hhere
      cases keep e.1 <;> simp [hne, ih]

@[simp] theorem node?_root (tree : FileTree) : tree.node? [] = some .directory := if_pos rfl

theorem ne_nil_of_node? (h : tree.node? here ≠ some .directory) : here ≠ [] := by
  rintro rfl
  exact h (node?_root tree)

theorem node?_put (h : place ≠ []) (node : Node) :
    (tree.put place node).node? place = some node := by
  rw [node?, if_neg h]
  simp [put]

theorem node?_put_of_ne (h : here ≠ place) (node : Node) :
    (tree.put place node).node? here = tree.node? here := by
  have hne : (place == here) = false := beq_false_of_ne (Ne.symm h)
  have hkept : (here != place) = true := bne_iff_ne.mpr h
  rw [node?, node?, put, List.find?_cons, hne, find?_kept _ (· != place), hkept]
  rfl

theorem node?_clear (tree : FileTree) (place here : Location) :
    (tree.clear place).node? here =
      if place <+: here ∧ here ≠ place then none else tree.node? here := by
  by_cases hroot : here = []
  · subst hroot
    rw [node?_root, node?_root, if_neg]
    rintro ⟨hunder, hne⟩
    exact hne (List.prefix_nil.mp hunder).symm
  · rw [node?, node?, if_neg hroot, if_neg hroot, clear,
      find?_kept _ fun place' => !(place.isPrefixOf place' && place' != place)]
    by_cases hbelow : place <+: here ∧ here ≠ place
    · have hkept : (!(place.isPrefixOf here && here != place)) = false := by simpa using hbelow
      rw [hkept, if_pos hbelow]
      rfl
    · have hkept : (!(place.isPrefixOf here && here != place)) = true := by
        simpa [← Bool.not_eq_true, Decidable.imp_iff_not_or] using hbelow
      rw [hkept, if_neg hbelow]
      rfl

theorem node?_erase (tree : FileTree) (place : Location) (h : here ≠ []) :
    (tree.erase place).node? here = if place <+: here then none else tree.node? here := by
  rw [node?, node?, if_neg h, if_neg h, erase,
    find?_kept _ fun place' => !place.isPrefixOf place']
  by_cases hbelow : place <+: here
  · have hkept : (!place.isPrefixOf here) = false := by simpa using hbelow
    rw [hkept, if_pos hbelow]
    rfl
  · have hkept : (!place.isPrefixOf here) = true := by simpa [← Bool.not_eq_true] using hbelow
    rw [hkept, if_neg hbelow]
    rfl

/-- The working directory is there, and what is there lies in a directory, as in any tree that was
built by creating one thing after another. -/
def Closed (tree : FileTree) : Prop :=
  tree.node? tree.workingDirectory = some .directory ∧
    ∀ e ∈ tree.entries, tree.node? e.1.dropLast = some .directory

instance (tree : FileTree) : Decidable tree.Closed :=
  inferInstanceAs (Decidable (_ ∧ ∀ e ∈ tree.entries, _))

theorem closed_iff :
    tree.Closed ↔ tree.node? tree.workingDirectory = some .directory ∧
      ∀ here, tree.node? here ≠ none → tree.node? here.dropLast = some .directory := by
  refine and_congr_right fun _ => ⟨fun h here hhere => ?_, fun h e he => h e.1 ?_⟩
  · by_cases hroot : here = []
    · rw [hroot]
      exact node?_root tree
    · rw [node?, if_neg hroot, ne_eq, Option.map_eq_none_iff] at hhere
      obtain ⟨e, he⟩ := Option.ne_none_iff_exists'.mp hhere
      have hkey : e.1 = here := by simpa using List.find?_some he
      rw [← hkey]
      exact h e (List.mem_of_find?_eq_some he)
  · rw [node?]
    split
    · exact nofun
    · rw [ne_eq, Option.map_eq_none_iff, List.find?_eq_none, not_forall]
      exact ⟨e, by simp [he]⟩

theorem Closed.parent (h : tree.Closed) (hhere : tree.node? here ≠ none) :
    tree.node? here.dropLast = some .directory :=
  (closed_iff.mp h).2 here hhere

/-- Nothing lies below what is no directory. -/
theorem Closed.node?_below (h : tree.Closed) (hplace : tree.node? place ≠ some .directory)
    (hbelow : place <+: here) (hne : here ≠ place) : tree.node? here = none := by
  obtain ⟨names, rfl⟩ := hbelow
  induction names using List.reverseRecOn with
  | nil => simp at hne
  | append_singleton names name ih =>
    by_contra hhere
    have hparent := h.parent hhere
    rw [← List.append_assoc, List.dropLast_concat] at hparent
    by_cases hnames : names = []
    · rw [hnames, List.append_nil] at hparent
      exact hplace hparent
    · rw [ih (by simpa using hnames)] at hparent
      cases hparent

/-! ## Walks -/

/-- A name that is looked up in a directory. -/
def IsName (name : String) : Prop :=
  name ≠ "." ∧ name ≠ ".." ∧ ¬ maxNameBytes < name.utf8ByteSize

/-- Names lead from a directory to a target, through so many links, by way of these locations. -/
inductive Walks (tree : FileTree) :
    Nat → List Location → Location → List String → Target → Prop where
  | here (place : Location) : Walks tree 0 [] place [] (.directory place)
  | dot {links : Nat} {seen : List Location} {place : Location} {rest : List String}
    {target : Target} (h : Walks tree links seen place rest target) :
    Walks tree links seen place ("." :: rest) target
  | up {links : Nat} {seen : List Location} {place : Location} {rest : List String}
    {target : Target} (h : Walks tree links seen place.dropLast rest target) :
    Walks tree links seen place (".." :: rest) target
  | enter {links : Nat} {seen : List Location} {place : Location} {name : String}
    {rest : List String} {target : Target} (hname : IsName name)
    (hnode : tree.node? (place ++ [name]) = some .directory)
    (h : Walks tree links seen (place ++ [name]) rest target) :
    Walks tree links ((place ++ [name]) :: seen) place (name :: rest) target
  | link {links : Nat} {seen : List Location} {place : Location} {name text : String}
    {rest : List String} {target : Target} (hname : IsName name)
    (hnode : tree.node? (place ++ [name]) = some (.link text))
    (h : Walks tree links seen (startOf place text) (names text ++ rest) target) :
    Walks tree (links + 1) ((place ++ [name]) :: seen) place (name :: rest) target
  | file {place : Location} {name : String} {data : FileData} (hname : IsName name)
    (hnode : tree.node? (place ++ [name]) = some (.file data)) :
    Walks tree 0 [place ++ [name]] place [name] (.file (place ++ [name]) data)
  | missing {place : Location} {name : String} (hname : IsName name)
    (hnode : tree.node? (place ++ [name]) = none) :
    Walks tree 0 [place ++ [name]] place [name] (.missing (place ++ [name]))

/-- What holds of walks holds if it does so as soon as it does so of all walks over fewer names through
as many links, and of all walks through fewer links. -/
theorem walk_induction {motive : Nat → List String → Prop}
    (step : ∀ links names, (∀ rest : List String, rest.length < names.length → motive links rest) →
      (∀ fewer < links, ∀ more, motive fewer more) → motive links names)
    (links : Nat) (names : List String) : motive links names := by
  induction links using Nat.strongRecOn generalizing names with
  | ind links ihlinks =>
    induction hlength : names.length using Nat.strongRecOn generalizing names with
    | ind length ihlength =>
      refine step links names (fun rest hrest => ?_) ihlinks
      exact ihlength rest.length (hlength ▸ hrest) rest rfl

section Equations

variable {links : Nat} {name : String} {rest : List String}

@[simp] theorem walkThrough_nil (tree : FileTree) (links : Nat) (place : Location) :
    tree.walkThrough links place [] = .ok (.directory place) := by
  cases links <;> rfl

@[simp] theorem walkThrough_dot (tree : FileTree) (links : Nat) (place : Location)
    (rest : List String) :
    tree.walkThrough links place ("." :: rest) = tree.walkThrough links place rest := by
  have hsize : ¬ maxNameBytes < ".".utf8ByteSize := by decide
  cases links <;> rw [walkThrough, walkWith, if_neg hsize, if_pos rfl]

@[simp] theorem walkThrough_up (tree : FileTree) (links : Nat) (place : Location)
    (rest : List String) :
    tree.walkThrough links place (".." :: rest) = tree.walkThrough links place.dropLast rest := by
  have hsize : ¬ maxNameBytes < "..".utf8ByteSize := by decide
  have hdot : ".." ≠ "." := by decide
  cases links <;> rw [walkThrough, walkWith, if_neg hsize, if_neg hdot, if_pos rfl]

theorem walkThrough_directory (hname : IsName name)
    (hnode : tree.node? (place ++ [name]) = some .directory) :
    tree.walkThrough links place (name :: rest) = tree.walkThrough links (place ++ [name]) rest := by
  cases links <;> rw [walkThrough, walkWith, if_neg hname.2.2, if_neg hname.1, if_neg hname.2.1] <;>
    dsimp only <;> rw [hnode]

theorem walkThrough_file {data : FileData} (hname : IsName name)
    (hnode : tree.node? (place ++ [name]) = some (.file data)) :
    tree.walkThrough links place (name :: rest) =
      if rest = [] then .ok (.file (place ++ [name]) data) else .error .notADirectory := by
  cases links <;> rw [walkThrough, walkWith, if_neg hname.2.2, if_neg hname.1, if_neg hname.2.1] <;>
    dsimp only <;> rw [hnode]

theorem walkThrough_missing (hname : IsName name) (hnode : tree.node? (place ++ [name]) = none) :
    tree.walkThrough links place (name :: rest) =
      if rest = [] then .ok (.missing (place ++ [name])) else .error .notFound := by
  cases links <;> rw [walkThrough, walkWith, if_neg hname.2.2, if_neg hname.1, if_neg hname.2.1] <;>
    dsimp only <;> rw [hnode]

theorem walkThrough_link {text : String} (hname : IsName name)
    (hnode : tree.node? (place ++ [name]) = some (.link text)) :
    tree.walkThrough (links + 1) place (name :: rest) =
      tree.walkThrough links (startOf place text) (names text ++ rest) := by
  rw [walkThrough, walkWith, if_neg hname.2.2, if_neg hname.1, if_neg hname.2.1]
  dsimp only
  rw [hnode]

theorem walkThrough_zero_link {text : String} (hname : IsName name)
    (hnode : tree.node? (place ++ [name]) = some (.link text)) :
    tree.walkThrough 0 place (name :: rest) = .error .tooManyLinks := by
  rw [walkThrough, walkWith, if_neg hname.2.2, if_neg hname.1, if_neg hname.2.1]
  dsimp only
  rw [hnode]

theorem walkThrough_tooLong (tree : FileTree) (links : Nat) (place : Location)
    (hsize : maxNameBytes < name.utf8ByteSize) (rest : List String) :
    tree.walkThrough links place (name :: rest) = .error .nameTooLong := by
  cases links <;> rw [walkThrough, walkWith, if_pos hsize]

/-- A name is a dot or two, or is too long, or is looked up. -/
theorem name_cases (name : String) :
    name = "." ∨ name = ".." ∨ maxNameBytes < name.utf8ByteSize ∨ IsName name := by
  unfold IsName
  tauto

end Equations

/-- A walk through at most so many links leads somewhere iff there is one. -/
theorem walkThrough_eq_ok_iff {bound : Nat} {names : List String} :
    tree.walkThrough bound place names = .ok target ↔
      ∃ links seen, links ≤ bound ∧ Walks tree links seen place names target := by
  constructor
  · induction bound, names using walk_induction generalizing place with
    | step bound names ihnames ihlinks =>
      intro h
      cases names with
      | nil =>
        rw [walkThrough_nil] at h
        cases h
        exact ⟨0, [], Nat.zero_le _, .here place⟩
      | cons name rest =>
        have hrest := @ihnames rest (Nat.lt_succ_self _)
        rcases name_cases name with rfl | rfl | hsize | hname
        · rw [walkThrough_dot] at h
          obtain ⟨links, seen, hlinks, hwalk⟩ := hrest h
          exact ⟨links, seen, hlinks, .dot hwalk⟩
        · rw [walkThrough_up] at h
          obtain ⟨links, seen, hlinks, hwalk⟩ := hrest h
          exact ⟨links, seen, hlinks, .up hwalk⟩
        · rw [walkThrough_tooLong _ _ _ hsize] at h
          cases h
        cases hnode : tree.node? (place ++ [name]) with
        | none =>
          rw [walkThrough_missing hname hnode] at h
          split at h
          · rename_i hlast
            subst hlast
            cases h
            exact ⟨0, _, Nat.zero_le _, .missing hname hnode⟩
          · cases h
        | some node =>
          cases node with
          | directory =>
            rw [walkThrough_directory hname hnode] at h
            obtain ⟨links, seen, hlinks, hwalk⟩ := hrest h
            exact ⟨links, _, hlinks, .enter hname hnode hwalk⟩
          | file data =>
            rw [walkThrough_file hname hnode] at h
            split at h
            · rename_i hlast
              subst hlast
              cases h
              exact ⟨0, _, Nat.zero_le _, .file hname hnode⟩
            · cases h
          | link text =>
            cases bound with
            | zero =>
              rw [walkThrough_zero_link hname hnode] at h
              cases h
            | succ bound =>
              rw [walkThrough_link hname hnode] at h
              obtain ⟨links, seen, hlinks, hwalk⟩ := ihlinks bound (Nat.lt_succ_self _) _ h
              exact ⟨links + 1, _, Nat.succ_le_succ hlinks, .link hname hnode hwalk⟩
  · rintro ⟨links, seen, hlinks, hwalk⟩
    induction hwalk generalizing bound with
    | here place => rw [walkThrough_nil]
    | dot _ ih => rw [walkThrough_dot, ih hlinks]
    | up _ ih => rw [walkThrough_up, ih hlinks]
    | enter hname hnode _ ih => rw [walkThrough_directory hname hnode, ih hlinks]
    | link hname hnode _ ih =>
      obtain ⟨bound, rfl⟩ := Nat.exists_eq_add_one_of_ne_zero (Nat.ne_zero_of_lt hlinks)
      rw [walkThrough_link hname hnode, ih (Nat.le_of_succ_le_succ hlinks)]
    | file hname hnode => rw [walkThrough_file hname hnode, if_pos rfl]
    | missing hname hnode => rw [walkThrough_missing hname hnode, if_pos rfl]

/-- Two walks over the same names lead to the same target. -/
theorem Walks.target_eq {links links' : Nat} {seen seen' : List Location} {names : List String}
    {other : Target} (h : Walks tree links seen place names target)
    (h' : Walks tree links' seen' place names other) : other = target := by
  have hwalk := walkThrough_eq_ok_iff.mpr ⟨links, seen, Nat.le_max_left links links', h⟩
  have hwalk' := walkThrough_eq_ok_iff.mpr ⟨links', seen', Nat.le_max_right links links', h'⟩
  rw [hwalk] at hwalk'
  exact (Except.ok.inj hwalk').symm

/-! ## What a walk looks at -/

/-- The locations at which `walkWith` looks, those of `follow` from the first link on. -/
def trailWith (tree : FileTree) (follow : Location → List String → List Location)
    (place : Location) : List String → List Location
  | [] => []
  | name :: rest =>
    if maxNameBytes < name.utf8ByteSize then []
    else if name = "." then tree.trailWith follow place rest
    else if name = ".." then tree.trailWith follow place.dropLast rest
    else
      (place ++ [name]) ::
        match tree.node? (place ++ [name]) with
        | some .directory => tree.trailWith follow (place ++ [name]) rest
        | some (.link target) => follow (startOf place target) (names target ++ rest)
        | _ => []

/-- The locations at which a walk looks, whether or not it leads somewhere. -/
def trailThrough (tree : FileTree) : Nat → Location → List String → List Location
  | 0 => tree.trailWith fun _ _ => []
  | links + 1 => tree.trailWith (tree.trailThrough links)

/-- A walk looks at the locations that it goes by. -/
theorem Walks.trailThrough_eq {links bound : Nat} {seen : List Location} {names : List String}
    (h : Walks tree links seen place names target) (hlinks : links ≤ bound) :
    tree.trailThrough bound place names = seen := by
  induction h generalizing bound with
  | here place => cases bound <;> rfl
  | dot _ ih =>
    rw [← ih hlinks]
    have hsize : ¬ maxNameBytes < ".".utf8ByteSize := by decide
    cases bound <;> rw [trailThrough, trailWith, if_neg hsize, if_pos rfl]
  | up _ ih =>
    rw [← ih hlinks]
    have hsize : ¬ maxNameBytes < "..".utf8ByteSize := by decide
    have hdot : ".." ≠ "." := by decide
    cases bound <;> rw [trailThrough, trailWith, if_neg hsize, if_neg hdot, if_pos rfl]
  | enter hname hnode _ ih =>
    rw [← ih hlinks]
    cases bound <;>
      rw [trailThrough, trailWith, if_neg hname.2.2, if_neg hname.1, if_neg hname.2.1, hnode]
  | link hname hnode _ ih =>
    obtain ⟨bound, rfl⟩ := Nat.exists_eq_add_one_of_ne_zero (Nat.ne_zero_of_lt hlinks)
    rw [← ih (Nat.le_of_succ_le_succ hlinks), trailThrough, trailWith, if_neg hname.2.2,
      if_neg hname.1, if_neg hname.2.1, hnode]
  | file hname hnode =>
    cases bound <;>
      rw [trailThrough, trailWith, if_neg hname.2.2, if_neg hname.1, if_neg hname.2.1, hnode]
  | missing hname hnode =>
    cases bound <;>
      rw [trailThrough, trailWith, if_neg hname.2.2, if_neg hname.1, if_neg hname.2.1, hnode]

theorem walkWith_congr {follow follow' : Location → List String → Except SystemError Target}
    {trail trail' : Location → List String → List Location}
    (hfollow : ∀ place names,
      (∀ here ∈ trail place names, after.node? here = tree.node? here) →
        follow' place names = follow place names ∧ trail' place names = trail place names)
    {names : List String}
    (hsame : ∀ here ∈ tree.trailWith trail place names, after.node? here = tree.node? here) :
    after.walkWith follow' place names = tree.walkWith follow place names ∧
      after.trailWith trail' place names = tree.trailWith trail place names := by
  induction names generalizing place with
  | nil => exact ⟨rfl, rfl⟩
  | cons name rest ih =>
    rw [trailWith] at hsame
    rw [walkWith, walkWith, trailWith, trailWith]
    by_cases hsize : maxNameBytes < name.utf8ByteSize
    · simp only [if_pos hsize, and_self]
    by_cases hdot : name = "."
    · simp only [if_neg hsize, if_pos hdot] at hsame ⊢
      exact ih hsame
    by_cases hup : name = ".."
    · simp only [if_neg hsize, if_neg hdot, if_pos hup] at hsame ⊢
      exact ih hsame
    simp only [if_neg hsize, if_neg hdot, if_neg hup] at hsame ⊢
    rw [List.forall_mem_cons] at hsame
    rw [hsame.1, List.cons.injEq]
    -- what is left of the trail depends on what is there
    have hrest := hsame.2
    split at hrest <;> rename_i hnode <;> simp only [hnode, true_and]
    · exact ih hrest
    · exact hfollow _ _ hrest
    · split <;> simp_all

/-- A walk leads where it led, or fails as it did, as long as what it looks at stays. -/
theorem walkThrough_congr {bound : Nat} {names : List String}
    (hsame : ∀ here ∈ tree.trailThrough bound place names, after.node? here = tree.node? here) :
    after.walkThrough bound place names = tree.walkThrough bound place names ∧
      after.trailThrough bound place names = tree.trailThrough bound place names := by
  induction bound generalizing place names with
  | zero => exact walkWith_congr (fun _ _ _ => ⟨rfl, rfl⟩) hsame
  | succ bound ih => exact walkWith_congr (fun _ _ => ih) hsame

namespace Walks

variable {links : Nat} {seen : List Location} {names more : List String}

theorem congr (h : Walks tree links seen place names target)
    (hsame : ∀ here ∈ seen, after.node? here = tree.node? here) :
    Walks after links seen place names target := by
  induction h with
  | here place => exact .here place
  | dot _ ih => exact .dot (ih hsame)
  | up _ ih => exact .up (ih hsame)
  | enter hname hnode _ ih =>
    rw [List.forall_mem_cons] at hsame
    exact .enter hname (hsame.1.trans hnode) (ih hsame.2)
  | link hname hnode _ ih =>
    rw [List.forall_mem_cons] at hsame
    exact .link hname (hsame.1.trans hnode) (ih hsame.2)
  | file hname hnode => exact .file hname ((hsame _ List.mem_cons_self).trans hnode)
  | missing hname hnode => exact .missing hname ((hsame _ List.mem_cons_self).trans hnode)

/-! ## Walks one after the other -/

theorem append {links' : Nat} {seen' : List Location}
    (h : Walks tree links seen place names (.directory here))
    (h' : Walks tree links' seen' here more target) :
    Walks tree (links + links') (seen ++ seen') place (names ++ more) target := by
  generalize hend : Target.directory here = last at h
  induction h with
  | here place =>
    cases hend
    rw [Nat.zero_add]
    exact h'
  | dot _ ih => exact .dot (ih hend)
  | up _ ih => exact .up (ih hend)
  | enter hname hnode _ ih => exact .enter hname hnode (ih hend)
  | link hname hnode _ ih =>
    have hrest := ih hend
    rw [List.append_assoc] at hrest
    rw [Nat.add_right_comm]
    exact .link hname hnode hrest
  | file _ _ => cases hend
  | missing _ _ => cases hend

/-- A walk over names and then over more is one to a directory and one that goes on from there. -/
def SplitsAt (tree : FileTree) (links : Nat) (seen : List Location) (place : Location)
    (names more : List String) (target : Target) : Prop :=
  ∃ here links₁ seen₁ links₂ seen₂, Walks tree links₁ seen₁ place names (.directory here) ∧
    Walks tree links₂ seen₂ here more target ∧ links = links₁ + links₂ ∧ seen = seen₁ ++ seen₂

theorem splitsAt_nil (h : Walks tree links seen place more target) :
    SplitsAt tree links seen place [] more target :=
  ⟨place, 0, [], links, seen, .here place, h, (Nat.zero_add _).symm, rfl⟩

/-- A walk over names that go on comes to a directory in between. -/
theorem split (hmore : more ≠ []) (h : Walks tree links seen place (names ++ more) target) :
    SplitsAt tree links seen place names more target := by
  generalize hall : names ++ more = all at h
  induction h generalizing names with
  | here place => exact absurd (List.append_eq_nil_iff.mp hall).2 hmore
  | dot h ih =>
    cases names with
    | nil =>
      subst hall
      exact splitsAt_nil (.dot h)
    | cons name names =>
      obtain ⟨rfl, hrest⟩ := List.cons.inj hall
      obtain ⟨here, links₁, seen₁, links₂, seen₂, h₁, h₂, hlinks, hseen⟩ := ih hrest
      exact ⟨here, links₁, seen₁, links₂, seen₂, .dot h₁, h₂, hlinks, hseen⟩
  | up h ih =>
    cases names with
    | nil =>
      subst hall
      exact splitsAt_nil (.up h)
    | cons name names =>
      obtain ⟨rfl, hrest⟩ := List.cons.inj hall
      obtain ⟨here, links₁, seen₁, links₂, seen₂, h₁, h₂, hlinks, hseen⟩ := ih hrest
      exact ⟨here, links₁, seen₁, links₂, seen₂, .up h₁, h₂, hlinks, hseen⟩
  | enter hname hnode h ih =>
    cases names with
    | nil =>
      subst hall
      exact splitsAt_nil (.enter hname hnode h)
    | cons name names =>
      obtain ⟨rfl, hrest⟩ := List.cons.inj hall
      obtain ⟨here, links₁, seen₁, links₂, seen₂, h₁, h₂, hlinks, rfl⟩ := ih hrest
      exact ⟨here, links₁, _, links₂, seen₂, .enter hname hnode h₁, h₂, hlinks, rfl⟩
  | link hname hnode h ih =>
    cases names with
    | nil =>
      subst hall
      exact splitsAt_nil (.link hname hnode h)
    | cons name names =>
      obtain ⟨rfl, hrest⟩ := List.cons.inj hall
      -- the names of the link come before those that are left
      obtain ⟨here, links₁, seen₁, links₂, seen₂, h₁, h₂, rfl, rfl⟩ :=
        ih ((List.append_assoc ..).trans (congrArg _ hrest))
      exact ⟨here, links₁ + 1, _, links₂, seen₂, .link hname hnode h₁, h₂,
        Nat.add_right_comm .., rfl⟩
  | file hname hnode =>
    obtain rfl : names = [] := by
      rcases List.append_eq_singleton_iff.mp hall with ⟨hnames, -⟩ | ⟨-, hnil⟩
      · exact hnames
      · exact absurd hnil hmore
    subst hall
    exact splitsAt_nil (.file hname hnode)
  | missing hname hnode =>
    obtain rfl : names = [] := by
      rcases List.append_eq_singleton_iff.mp hall with ⟨hnames, -⟩ | ⟨-, hnil⟩
      · exact hnames
      · exact absurd hnil hmore
    subst hall
    exact splitsAt_nil (.missing hname hnode)

/-- After the front of the names a walk goes on from where the front leads. -/
theorem rest {links' : Nat} {seen' : List Location} (hmore : more ≠ [])
    (h : Walks tree links seen place (names ++ more) target)
    (hfront : Walks tree links' seen' place names (.directory here)) :
    ∃ links₂ seen₂, Walks tree links₂ seen₂ here more target := by
  obtain ⟨here', links₁, seen₁, links₂, seen₂, h₁, h₂, -, -⟩ := h.split hmore
  cases hfront.target_eq h₁
  exact ⟨links₂, seen₂, h₂⟩

/-! ## How walks end -/

/-- A walk goes through this. -/
def Passes (tree : FileTree) (here : Location) : Prop :=
  tree.node? here = some .directory ∨ ∃ text, tree.node? here = some (.link text)

/-- A target that is no directory: a file that is there, or nothing. -/
inductive AtSpot (tree : FileTree) (spot : Location) : Target → Prop where
  | file {data : FileData} (hnode : tree.node? spot = some (.file data)) :
    AtSpot tree spot (.file spot data)
  | missing (hnode : tree.node? spot = none) : AtSpot tree spot (.missing spot)

theorem AtSpot.not_passes (h : AtSpot tree spot target) : ¬ Passes tree spot := by
  rintro (hpass | ⟨text, hpass⟩) <;> cases h with
  | file hnode | missing hnode =>
    rw [hnode] at hpass
    cases hpass

/-- A walk sees directories and links, and at last the file or the gap to which it leads. -/
theorem ends (h : Walks tree links seen place names target) :
    (∃ goal, target = .directory goal ∧ ∀ here ∈ seen, Passes tree here) ∨
      ∃ way spot, seen = way ++ [spot] ∧ AtSpot tree spot target ∧ ∀ here ∈ way, Passes tree here := by
  have hcons : ∀ {first seen target}, Passes tree first →
      ((∃ goal, target = Target.directory goal ∧ ∀ here ∈ seen, Passes tree here) ∨
        ∃ way spot, seen = way ++ [spot] ∧ AtSpot tree spot target ∧
          ∀ here ∈ way, Passes tree here) →
      (∃ goal, target = .directory goal ∧ ∀ here ∈ first :: seen, Passes tree here) ∨
        ∃ way spot, first :: seen = way ++ [spot] ∧ AtSpot tree spot target ∧
          ∀ here ∈ way, Passes tree here := by
    rintro first seen target hfirst (⟨goal, hgoal, hpass⟩ | ⟨way, spot, rfl, hspot, hpass⟩)
    · exact .inl ⟨goal, hgoal, List.forall_mem_cons.mpr ⟨hfirst, hpass⟩⟩
    · exact .inr ⟨first :: way, spot, rfl, hspot, List.forall_mem_cons.mpr ⟨hfirst, hpass⟩⟩
  induction h with
  | here place => exact .inl ⟨place, rfl, nofun⟩
  | dot _ ih => exact ih
  | up _ ih => exact ih
  | enter _ hnode _ ih => exact hcons (.inl hnode) ih
  | link _ hnode _ ih => exact hcons (.inr ⟨_, hnode⟩) ih
  | file _ hnode => exact .inr ⟨[], _, rfl, .file hnode, nofun⟩
  | missing _ hnode => exact .inr ⟨[], _, rfl, .missing hnode, nofun⟩

theorem passes (h : Walks tree links seen place names (.directory here)) :
    ∀ spot ∈ seen, Passes tree spot := by
  rcases h.ends with ⟨goal, -, hpass⟩ | ⟨way, spot, -, hspot, -⟩
  · exact hpass
  · cases hspot

/-! ## Walks taken apart -/

theorem of_dot {rest : List String} (h : Walks tree links seen place ("." :: rest) target) :
    Walks tree links seen place rest target := by
  generalize hfirst : "." = name at h
  cases h with
  | dot h => exact h
  | up _ => exact absurd hfirst (by decide)
  | enter hname _ _ => exact absurd hfirst.symm hname.1
  | link hname _ _ => exact absurd hfirst.symm hname.1
  | file hname _ => exact absurd hfirst.symm hname.1
  | missing hname _ => exact absurd hfirst.symm hname.1

theorem of_up {rest : List String} (h : Walks tree links seen place (".." :: rest) target) :
    Walks tree links seen place.dropLast rest target := by
  generalize hfirst : ".." = name at h
  cases h with
  | dot _ => exact absurd hfirst (by decide)
  | up h => exact h
  | enter hname _ _ => exact absurd hfirst.symm hname.2.1
  | link hname _ _ => exact absurd hfirst.symm hname.2.1
  | file hname _ => exact absurd hfirst.symm hname.2.1
  | missing hname _ => exact absurd hfirst.symm hname.2.1

section Names

variable {name : String} {rest : List String}

theorem of_directory (hname : IsName name) (hnode : tree.node? (place ++ [name]) = some .directory)
    (h : Walks tree links seen place (name :: rest) target) :
    ∃ seen', seen = (place ++ [name]) :: seen' ∧
      Walks tree links seen' (place ++ [name]) rest target := by
  cases h with
  | dot _ => exact absurd rfl hname.1
  | up _ => exact absurd rfl hname.2.1
  | enter _ _ h => exact ⟨_, rfl, h⟩
  | link _ hnode' _ | file _ hnode' | missing _ hnode' =>
    rw [hnode] at hnode'
    cases hnode'

theorem of_link {text : String} (hname : IsName name)
    (hnode : tree.node? (place ++ [name]) = some (.link text))
    (h : Walks tree links seen place (name :: rest) target) :
    ∃ links' seen', links = links' + 1 ∧ seen = (place ++ [name]) :: seen' ∧
      Walks tree links' seen' (startOf place text) (FileTree.names text ++ rest) target := by
  cases h with
  | dot _ => exact absurd rfl hname.1
  | up _ => exact absurd rfl hname.2.1
  | link _ hnode' h =>
    rw [hnode] at hnode'
    cases hnode'
    exact ⟨_, _, rfl, rfl, h⟩
  | enter _ hnode' _ | file _ hnode' | missing _ hnode' =>
    rw [hnode] at hnode'
    cases hnode'

theorem of_file {data : FileData} (hname : IsName name)
    (hnode : tree.node? (place ++ [name]) = some (.file data))
    (h : Walks tree links seen place (name :: rest) target) :
    rest = [] ∧ target = .file (place ++ [name]) data := by
  cases h with
  | dot _ => exact absurd rfl hname.1
  | up _ => exact absurd rfl hname.2.1
  | file _ hnode' =>
    rw [hnode] at hnode'
    cases hnode'
    exact ⟨rfl, rfl⟩
  | enter _ hnode' _ | link _ hnode' _ | missing _ hnode' =>
    rw [hnode] at hnode'
    cases hnode'

/-- A walk over a last name does not end in a directory unless it enters or follows that name. -/
theorem isName_of_last (h : Walks tree links seen place [name] target)
    (hdirectory : ∀ here, target ≠ .directory here) : IsName name := by
  cases h with
  | dot h | up h =>
    cases h
    exact absurd rfl (hdirectory _)
  | enter hname _ _ | link hname _ _ | file hname _ | missing hname _ => exact hname

end Names

/-- From a link that it sees, a walk goes on with the names of the link. -/
theorem at_link {text : String} (h : Walks tree links seen place names target) (hseen : here ∈ seen)
    (hnode : tree.node? here = some (.link text)) :
    ∃ links' way seen' more, seen = way ++ here :: seen' ∧
      Walks tree links' seen' (startOf here.dropLast text) (FileTree.names text ++ more) target := by
  induction h with
  | here _ => cases hseen
  | dot _ ih => exact ih hseen
  | up _ ih => exact ih hseen
  | enter _ hdirectory _ ih =>
    rcases List.mem_cons.mp hseen with rfl | hseen
    · rw [hnode] at hdirectory
      cases hdirectory
    · obtain ⟨links', way, seen', more, rfl, hwalk⟩ := ih hseen
      exact ⟨links', _ :: way, seen', more, rfl, hwalk⟩
  | link _ hlink h ih =>
    rcases List.mem_cons.mp hseen with rfl | hseen
    · rw [hnode] at hlink
      cases hlink
      rw [List.dropLast_concat]
      exact ⟨_, [], _, _, rfl, h⟩
    · obtain ⟨links', way, seen', more, rfl, hwalk⟩ := ih hseen
      exact ⟨links', _ :: way, seen', more, rfl, hwalk⟩
  | file _ hfile =>
    rw [List.mem_singleton.mp hseen, hfile] at hnode
    cases hnode
  | missing _ hnone =>
    rw [List.mem_singleton.mp hseen, hnone] at hnode
    cases hnode

/-- A file is where a walk ends. -/
theorem last_of_file {links' : Nat} {seen' : List Location} {data : FileData}
    (h : Walks tree links seen place names (.file spot data))
    (hmore : Walks tree links' seen' place (names ++ more) target) : more = [] := by
  by_contra hne
  obtain ⟨here, links₁, seen₁, links₂, seen₂, h₁, -⟩ := hmore.split hne
  cases h.target_eq h₁

/-- A link that leads to a file is not seen on the way of the link itself. -/
theorem notMem_of_link {text : String} {data : FileData}
    (h : Walks tree links seen (startOf here.dropLast text) (FileTree.names text) (.file spot data))
    (hnode : tree.node? here = some (.link text)) : here ∉ seen := by
  intro hseen
  obtain ⟨links', way, seen', more, hsplit, hwalk⟩ := h.at_link hseen hnode
  obtain rfl := h.last_of_file hwalk
  rw [List.append_nil] at hwalk
  -- the walk from there on would see as much as the whole walk
  have htrail := h.trailThrough_eq (Nat.le_max_left links links')
  rw [hwalk.trailThrough_eq (Nat.le_max_right links links')] at htrail
  have hlength := congrArg List.length hsplit
  rw [← htrail, List.length_append, List.length_cons] at hlength
  omega

/-- A link that leads to a file is not seen on the way to a directory. -/
theorem notMem_of_link_of_directory {text : String} {data : FileData} {links' : Nat}
    {seen' : List Location} {goal : Location}
    (h : Walks tree links seen place names (.directory goal))
    (hlink : Walks tree links' seen' (startOf here.dropLast text) (FileTree.names text)
      (.file spot data))
    (hnode : tree.node? here = some (.link text)) : here ∉ seen := by
  intro hseen
  obtain ⟨_, _, _, more, -, hwalk⟩ := h.at_link hseen hnode
  obtain rfl := hlink.last_of_file hwalk
  rw [List.append_nil] at hwalk
  cases hlink.target_eq hwalk

end Walks

end Offload.FileTree
