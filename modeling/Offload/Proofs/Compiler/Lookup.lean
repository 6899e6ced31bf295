import Offload.Compiler.Lookup
import Offload.Proofs.FileTree.Changes

/-!
# The client does not find itself

The client stands in `PATH` under the name of the compiler. A name that comes from the command line
of the client is looked up so that the client passes over itself, whatever it is called there and
through whatever aliases. A name that comes from the compiler option is looked up like that of any
program, so that the client may find itself. So a lookup avoids the client always, except when the
name is that of the option and the first program of the name is the client.
-/

namespace Offload.ProgramSearch

/-! ## Looking a name up -/

/-- Where a bare name that is looked up in `PATH` comes from. Of the last three arguments the first
is the name, the second what the compiler is going to be called, the third what is left for it to
do. -/
inductive LooksUp (argv0 : String) :
    Option String → List String → String → String → List String → Prop
  | option (name : String) (args : List String)
    (hbare : Path.hasSeveralComponents name.toList = false) :
    LooksUp argv0 (some name) args name (calledAs argv0) args
  | argument (name : String) (rest : List String) (hclient : calledAs argv0 = clientName)
    (hbare : '/' ∉ name.toList) : LooksUp argv0 none (name :: rest) name name rest
  | ownName (args : List String) (hclient : calledAs argv0 ≠ clientName)
    (hbare : '/' ∉ (calledAs argv0).toList) :
    LooksUp argv0 none args (calledAs argv0) (calledAs argv0) args

variable (search : ProgramSearch)

/-- Of what stands under a name in the directories of `PATH`, this is the first that is wanted. -/
def FirstThat (wanted : String → Prop) (name path : String) : Prop :=
  ∃ earlier dir later, search.directories = earlier ++ dir :: later ∧
    path = Path.joinText dir name ∧ wanted path ∧
    ∀ other ∈ earlier, ¬ wanted (Path.joinText other name)

/-- Nothing that stands under a name in the directories of `PATH` is wanted. -/
def NoneThat (wanted : String → Prop) (name : String) : Prop :=
  ∀ dir ∈ search.directories, ¬ wanted (Path.joinText dir name)

/-- A path leads to a program: a file that can be run. -/
def IsProgram (path : String) : Prop := search.tree.isExecutable path = true

/-- A program whose canonical path is not that of the client. -/
def IsOther (path : String) : Prop :=
  search.IsProgram path ∧ search.tree.canonical path ≠ .ok search.self

/-- A program whose canonical path is that of the client. -/
def IsClient (path : String) : Prop :=
  search.IsProgram path ∧ search.tree.canonical path = .ok search.self

/-- What is found under a name is the first program in the order of `PATH` that is not the client;
nothing is found if there is none. -/
structure PassesOver (name called : String) (left : List String)
    (found : Except CompilerError (ResolvedCompiler × List String)) : Prop where
  other : ∀ path, search.FirstThat search.IsOther name path → found = .ok (⟨path, called⟩, left)
  none : search.NoneThat search.IsOther name → found = .error (.notFound name)

/-! ## The search -/

variable {search}

theorem firstThat_iff {wanted : String → Bool} {name path : String} :
    (search.directories.map fun dir => Path.joinText dir name).find? wanted = some path ↔
      search.FirstThat (fun path => wanted path = true) name path := by
  rw [List.find?_map, Option.map_eq_some_iff]
  constructor
  · rintro ⟨dir, hfind, rfl⟩
    obtain ⟨hwanted, earlier, later, hsplit, hearlier⟩ := List.find?_eq_some_iff_append.mp hfind
    exact ⟨earlier, dir, later, hsplit, rfl, hwanted, fun other hother => by
      simpa using hearlier other hother⟩
  · rintro ⟨earlier, dir, later, hsplit, rfl, hwanted, hearlier⟩
    refine ⟨dir, List.find?_eq_some_iff_append.mpr ⟨hwanted, earlier, later, hsplit, ?_⟩, rfl⟩
    exact fun other hother => by simpa using hearlier other hother

theorem noneThat_iff {wanted : String → Bool} {name : String} :
    (search.directories.map fun dir => Path.joinText dir name).find? wanted = none ↔
      search.NoneThat (fun path => wanted path = true) name := by
  simp [NoneThat]

theorem programs_of_bare {name : String} (h : Path.hasSeveralComponents name.toList = false) :
    search.programs name =
      (search.directories.map fun dir => Path.joinText dir name).filter
        search.tree.isExecutable := by
  rw [programs, h]
  rfl

/-- The canonical path of a program is the place of a file. -/
theorem canonical_of_isProgram {path : String} (h : search.IsProgram path) :
    ∃ place data, search.tree.canonical path = .ok place ∧
      search.tree.node? place = some (.file data) := by
  unfold IsProgram FileTree.isExecutable at h
  split at h
  · rename_i place data hresolve
    refine ⟨place, data, ?_, ?_⟩
    · rw [FileTree.canonical, hresolve]
      rfl
    · obtain ⟨-, -, _, _, _, -, -, hspot, -⟩ := FileTree.walks_of_resolve hresolve nofun
      cases hspot with
      | file hnode => exact hnode
  · simp at h

/-- A program is taken for the client if its canonical path is that of the client. -/
theorem isSelf_iff {path : String} (h : search.IsProgram path) :
    search.isSelf path = true ↔ search.tree.canonical path = .ok search.self := by
  obtain ⟨place, data, hcanonical, hnode⟩ := canonical_of_isProgram h
  rw [hcanonical, isSelf, hcanonical]
  constructor
  · intro hself
    split at hself
    · rename_i here _ hhere _
      obtain rfl := Except.ok.inj hhere
      rw [beq_iff_eq.mp hself]
    · simp at hself
  · intro hplace
    obtain rfl := Except.ok.inj hplace
    simp [hnode]

/-- The programs that a lookup passes over are those that are the client. -/
theorem isOther_iff (path : String) :
    search.IsOther path ↔ (search.tree.isExecutable path && !search.isSelf path) = true := by
  rw [Bool.and_eq_true, Bool.not_eq_true', ← Bool.not_eq_true, IsOther]
  exact and_congr_right fun h => not_congr (isSelf_iff h).symm

theorem isOther_eq :
    search.IsOther = fun path => (search.tree.isExecutable path && !search.isSelf path) = true :=
  funext fun path => propext (isOther_iff path)

/-! ## What is found -/

/-- Under a name there is a first program that is wanted, or none at all. -/
theorem firstThat_or_noneThat (wanted : String → Bool) (name : String) :
    (∃ path, search.FirstThat (fun path => wanted path = true) name path) ∨
      search.NoneThat (fun path => wanted path = true) name := by
  cases hfind : (search.directories.map fun dir => Path.joinText dir name).find? wanted with
  | some path => exact .inl ⟨path, firstThat_iff.mp hfind⟩
  | none => exact .inr (noneThat_iff.mp hfind)

theorem FirstThat.wanted {wanted : String → Prop} {name path : String}
    (h : search.FirstThat wanted name path) : wanted path := by
  obtain ⟨_, _, _, _, _, hwanted, _⟩ := h
  exact hwanted

theorem NoneThat.not_firstThat {wanted : String → Prop} {name path : String}
    (h : search.NoneThat wanted name) : ¬ search.FirstThat wanted name path := by
  rintro ⟨earlier, dir, later, hsplit, rfl, hwanted, -⟩
  exact h dir (by simp [hsplit]) hwanted

/-- A lookup that passes over the client. -/
theorem named_passesOver {name : String} (h : '/' ∉ name.toList) (left : List String) :
    search.PassesOver name name left ((search.named name).map fun c => (c, left)) := by
  have hfind : (search.programs name).find? (fun path => !search.isSelf path) =
      (search.directories.map fun dir => Path.joinText dir name).find?
        fun path => search.tree.isExecutable path && !search.isSelf path := by
    rw [programs_of_bare (Path.hasSeveralComponents_of_bare h), List.find?_filter]
    simp only [Bool.decide_and, Bool.decide_eq_true]
  constructor
  · intro path hfirst
    rw [isOther_eq] at hfirst
    rw [named, if_neg h, hfind, firstThat_iff.mpr hfirst]
    rfl
  · intro hnone
    rw [isOther_eq] at hnone
    rw [named, if_neg h, hfind, noneThat_iff.mpr hnone]
    rfl

/-- A lookup that passes over nothing. -/
theorem explicit_of_bare {name : String} (h : Path.hasSeveralComponents name.toList = false)
    (argv0 : String) :
    (∀ path, search.FirstThat search.IsProgram name path →
        search.explicit argv0 name = .ok ⟨path, calledAs argv0⟩) ∧
      (search.NoneThat search.IsProgram name →
        search.explicit argv0 name = .error (.notFound name)) := by
  have hhead : (search.programs name).head? =
      (search.directories.map fun dir => Path.joinText dir name).find?
        search.tree.isExecutable := by
    rw [programs_of_bare h, List.head?_filter]
  have hbare : ¬ Path.hasSeveralComponents name.toList = true := by
    rw [h]
    exact Bool.false_ne_true
  constructor
  · intro path hfirst
    obtain ⟨rest, hprograms⟩ := List.head?_eq_some_iff.mp (hhead.trans (firstThat_iff.mpr hfirst))
    rw [explicit, if_neg hbare, hprograms]
  · intro hnone
    have hprograms := List.head?_eq_none_iff.mp (hhead.trans (noneThat_iff.mpr hnone))
    rw [explicit, if_neg hbare, hprograms]

/-- A program is the client or another one. -/
theorem client_or_other {path : String} (h : search.IsProgram path) :
    search.IsClient path ∨ search.IsOther path := by
  by_cases hself : search.tree.canonical path = .ok search.self
  · exact .inl ⟨h, hself⟩
  · exact .inr ⟨h, hself⟩

/-- The first program of a name, if it is not the client, is the first that is not the client. -/
theorem FirstThat.other {name path : String} (h : search.FirstThat search.IsProgram name path)
    (hother : search.IsOther path) : search.FirstThat search.IsOther name path := by
  obtain ⟨earlier, dir, later, hsplit, hpath, -, hearlier⟩ := h
  exact ⟨earlier, dir, later, hsplit, hpath, hother,
    fun before hbefore hwanted => hearlier before hbefore hwanted.1⟩

/-- A lookup that passes over nothing avoids the client exactly if it does not come to it first. -/
theorem explicit_passesOver_iff {name : String}
    (h : Path.hasSeveralComponents name.toList = false) (argv0 : String) (left : List String) :
    search.PassesOver name (calledAs argv0) left
        ((search.explicit argv0 name).map fun c => (c, left)) ↔
      ¬ ∃ path, search.FirstThat search.IsProgram name path ∧ search.IsClient path := by
  obtain ⟨hfirst, hnone⟩ := @explicit_of_bare search _ h argv0
  constructor
  · rintro hpasses ⟨path, hpath, hclient⟩
    rw [hfirst path hpath] at hpasses
    -- what is found is the client, which is neither the first other program nor nothing
    rcases isOther_eq ▸ firstThat_or_noneThat _ name with ⟨other, hthat⟩ | hnothing
    · have hsame := hpasses.other other hthat
      obtain rfl : path = other := by simpa [Except.map] using hsame
      exact hthat.wanted.2 hclient.2
    · have hfailed := hpasses.none hnothing
      simp [Except.map] at hfailed
  · intro hclear
    rcases firstThat_or_noneThat search.tree.isExecutable name with ⟨path, hpath⟩ | hnothing
    · have hnotClient : ¬ search.IsClient path := fun hclient => hclear ⟨path, hpath, hclient⟩
      have hthat := hpath.other (client_or_other hpath.wanted |>.resolve_left hnotClient)
      constructor
      · intro other hfound
        rw [isOther_eq] at hfound hthat
        obtain rfl : path = other := Option.some.inj
          ((firstThat_iff.mpr hthat).symm.trans (firstThat_iff.mpr hfound))
        rw [hfirst path hpath]
        rfl
      · intro hnot
        exact absurd hthat hnot.not_firstThat
    · constructor
      · rintro other ⟨earlier, dir, later, hsplit, rfl, hwanted, -⟩
        exact absurd hwanted.1 (hnothing dir (by simp [hsplit]))
      · intro _
        rw [hnone hnothing]
        rfl

/-- When a bare name is looked up, the first program of that name in the order of `PATH` is found
that is not the client, or none if every one is the client; except exactly when the name is that of
the compiler option and the first program of the name is the client, which then is found. -/
theorem find_passesOver_iff {argv0 : String} {compiler : Option String} {args : List String}
    {name called : String} {left : List String} (h : LooksUp argv0 compiler args name called left) :
    (search.PassesOver name called left (search.find argv0 compiler args) ↔
        ¬ (compiler = some name ∧
          ∃ path, search.FirstThat search.IsProgram name path ∧ search.IsClient path)) ∧
      (compiler = some name → ∀ path, search.FirstThat search.IsProgram name path →
        search.find argv0 compiler args = .ok (⟨path, called⟩, left)) := by
  cases h with
  | option _ _ hbare =>
    refine ⟨?_, fun _ path hpath => ?_⟩
    · simp only [find, true_and]
      exact explicit_passesOver_iff hbare argv0 args
    · simp only [find]
      rw [(explicit_of_bare hbare argv0).1 path hpath]
      rfl
  | argument _ _ hclient hbare =>
    refine ⟨iff_of_true ?_ (by simp), by simp⟩
    simp only [find, if_pos hclient]
    exact named_passesOver hbare left
  | ownName _ hclient hbare =>
    refine ⟨iff_of_true ?_ (by simp), by simp⟩
    simp only [find, if_neg hclient]
    exact named_passesOver hbare args

/-! ## A host on which the client comes first -/

/-- A host on which the compiler has the client before it in `PATH`. -/
def shadowed : ProgramSearch where
  tree :=
    { entries := [(["wrapper"], .file ⟨[], true, ⟨0, 0⟩⟩),
        (["b1"], .directory), (["b1", "gcc"], .link "/wrapper"),
        (["b2"], .directory), (["b2", "gcc"], .file ⟨[35], true, ⟨0, 0⟩⟩)]
      workingDirectory := []
      clock := ⟨0, 0⟩ }
  directories := ["/b1", "/b2"]
  self := ["wrapper"]

/-- Behind the client in `PATH` there is another program. -/
theorem firstThat_shadowed : shadowed.FirstThat shadowed.IsOther "gcc" "/b2/gcc" := by
  refine ⟨["/b1"], "/b2", [], rfl, by decide, (isOther_iff _).mpr (by decide), ?_⟩
  intro other hother
  obtain rfl := List.mem_singleton.mp hother
  rw [isOther_iff]
  decide

/-- Called by the name of the compiler, the client finds it behind itself. -/
theorem find_passesOver_iff_shadowed :
    LooksUp "/b1/gcc" none ["-c"] "gcc" "gcc" ["-c"] ∧
      shadowed.find "/b1/gcc" none ["-c"] = .ok (⟨"/b2/gcc", "gcc"⟩, ["-c"]) := by
  have hlooks : LooksUp "/b1/gcc" none ["-c"] "gcc" "gcc" ["-c"] :=
    .ownName ["-c"] (by decide) (by decide)
  have hpasses : shadowed.PassesOver "gcc" "gcc" ["-c"] (shadowed.find "/b1/gcc" none ["-c"]) :=
    (find_passesOver_iff hlooks).1.mpr (by simp)
  exact ⟨hlooks, hpasses.other "/b2/gcc" firstThat_shadowed⟩

/-- Told by the option which compiler to run, the client finds itself, though there is another
program of that name behind it. -/
theorem find_itself :
    LooksUp "/usr/bin/fiskc" (some "gcc") ["-c"] "gcc" "fiskc" ["-c"] ∧
      shadowed.find "/usr/bin/fiskc" (some "gcc") ["-c"] = .ok (⟨"/b1/gcc", "fiskc"⟩, ["-c"]) ∧
      shadowed.IsClient "/b1/gcc" ∧
      ¬ shadowed.PassesOver "gcc" "fiskc" ["-c"]
        (shadowed.find "/usr/bin/fiskc" (some "gcc") ["-c"]) := by
  refine ⟨.option "gcc" ["-c"] (by decide), rfl, ⟨rfl, rfl⟩, fun hpasses => ?_⟩
  have hfound : (.ok (⟨"/b1/gcc", "fiskc"⟩, ["-c"]) :
      Except CompilerError (ResolvedCompiler × List String)) = .ok (⟨"/b2/gcc", "fiskc"⟩, ["-c"]) :=
    hpasses.other "/b2/gcc" firstThat_shadowed
  simp at hfound

end Offload.ProgramSearch
