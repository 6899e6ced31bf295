import Offload.Compiler.Hash
import Offload.Proofs.Cache.Persistence

/-!
# Remembered hashes are the hashes

A hash from the cache is what hashing the compiler anew would give. A remembered hash counts as long
as size and time of the compiler are what they were, so this holds if a compiler that is changed gets a
size and a time that it never had (`Admissible`). The invariant is that each entry of the cache was
true of some tree that the compiler has been seen in, whatever became of the file of the cache
(`Faithful`).
-/

namespace Offload.CompilerHash

open FileTree EnvironmentCache

variable {digest : Bytes → String} {cachePath compiler hash : String} {processId : Nat}
  {tree after : FileTree} {seen : List FileTree} {compilers : List String}

/-! ## What is seen of a compiler -/

/-- Size and time of a file as they are kept. -/
abbrev Stamp := UInt64 × UInt64 × UInt32

/-- Size and time of a file as they are kept. -/
def stampOf (metadata : FileTree.Metadata) : Stamp :=
  (UInt64.ofNat metadata.size, CachedHash.keptTime metadata.modified)

/-- Size and time that an entry is for. -/
def stampFor (entry : CachedHash) : Stamp := (entry.size, entry.seconds, entry.nanoseconds)

theorem isFor_iff {entry : CachedHash} {metadata : FileTree.Metadata} :
    entry.isFor metadata = true ↔ stampFor entry = stampOf metadata := by
  obtain ⟨size, seconds, nanoseconds, hash⟩ := entry
  simp [CachedHash.isFor, CachedHash.ofMetadata, stampFor, stampOf, Prod.ext_iff]

/-- Size and time of a compiler, if it is there. -/
def stampAt? (tree : FileTree) (compiler : String) : Option Stamp :=
  (tree.metadata compiler).toOption.map stampOf

/-- The contents of a compiler, if they can be read. -/
def contentsAt? (tree : FileTree) (compiler : String) : Option Bytes := (tree.read compiler).toOption

/-- A remembered hash is that of the contents, and for the size and time, of a compiler. -/
def TrueOf (digest : Bytes → String) (tree : FileTree) (compiler : String) (entry : CachedHash) : Prop :=
  stampAt? tree compiler = some (stampFor entry) ∧
    (contentsAt? tree compiler).map digest = some entry.hash

/-! ## Identifying a compiler -/

theorem ofFile_toOption (digest : Bytes → String) (tree : FileTree) (compiler : String) :
    (ofFile digest tree compiler).toOption = (contentsAt? tree compiler).map digest := by
  rw [ofFile, contentsAt?]
  cases tree.read compiler <;> rfl

/-- The tree is left alone, or a hash is put into the cache and that is saved as far as it can be. -/
theorem files_cases (digest : Bytes → String) (processId : Nat) (tree : FileTree)
    (compiler cachePath : String) :
    (ofCompiler digest processId tree compiler (some cachePath)).files = tree ∨
      ∃ metadata hash, TrueOf digest tree compiler (.ofMetadata metadata hash) ∧
        (ofCompiler digest processId tree compiler (some cachePath)).files =
          (((load tree cachePath).insert compiler metadata hash).save tree cachePath processId).1 := by
  rw [ofCompiler]
  cases hmetadata : tree.metadata compiler with
  | error e => exact .inl rfl
  | ok metadata =>
    dsimp only
    cases (load tree cachePath).lookup? compiler metadata with
    | some hash => exact .inl rfl
    | none =>
      dsimp only
      rw [remembering]
      cases hhash : ofFile digest tree compiler with
      | error e => exact .inl rfl
      | ok hash =>
        refine .inr ⟨metadata, hash, ⟨?_, ?_⟩, ?_⟩
        · rw [stampAt?, hmetadata]
          rfl
        · rw [← ofFile_toOption, hhash]
          rfl
        · dsimp only
          split <;> rename_i hsave <;> rw [hsave]

/-- A hash that is not in the cache is that of the file. -/
theorem hash_of_lookup?_eq_none {metadata : FileTree.Metadata}
    (hmetadata : tree.metadata compiler = .ok metadata)
    (h : (load tree cachePath).lookup? compiler metadata = none) :
    (ofCompiler digest processId tree compiler (some cachePath)).hash =
      ofFile digest tree compiler := by
  rw [ofCompiler, hmetadata]
  dsimp only
  rw [h]
  dsimp only
  rw [remembering]
  cases ofFile digest tree compiler with
  | error e => rfl
  | ok hash =>
    dsimp only
    split <;> rfl

/-! ## Steps -/

/-- What may happen to a tree: a compiler is identified, or something else is done. -/
inductive Step where
  | identify (compiler : String) (processId : Nat)
  | change (after : FileTree)

/-- The tree after a step. -/
def Step.perform (digest : Bytes → String) (cachePath : String) (tree : FileTree) : Step → FileTree
  | identify compiler processId =>
    (ofCompiler digest processId tree compiler (some cachePath)).files
  | change after => after

/-- The tree after some steps. -/
def performAll (digest : Bytes → String) (cachePath : String) (tree : FileTree) (steps : List Step) :
    FileTree :=
  steps.foldl (Step.perform digest cachePath) tree

/-- A compiler is as it was, or it has a size and a time that it did not have in any tree so far. -/
def Kept (seen : List FileTree) (tree after : FileTree) (compiler : String) : Prop :=
  (stampAt? after compiler = stampAt? tree compiler ∧
      contentsAt? after compiler = contentsAt? tree compiler) ∨
    ∀ s ∈ tree :: seen, stampAt? after compiler = none ∨
      stampAt? s compiler ≠ stampAt? after compiler

/-- The file of a compiler is not one of those of the cache. -/
def Apart (tree : FileTree) (cachePath : String) (processId : Nat) (compiler : String) : Prop :=
  ∀ file ∈ tree.filesOf compiler, file ∉ filesOfCache tree cachePath processId

/-- A step that changes compilers gives them a size and a time that they never had; as far as it
changes the file of the cache, that cannot be loaded afterwards. Identifying a compiler changes no
compiler that is not a file of the cache. -/
def Step.Allowed (digest : Bytes → String) (cachePath : String) (compilers : List String)
    (seen : List FileTree) (tree : FileTree) : Step → Prop
  | identify compiler processId => compiler ∈ compilers ∧ ∀ compiler' ∈ compilers,
    Apart tree cachePath processId compiler' ∨
      Kept seen tree ((identify compiler processId).perform digest cachePath tree) compiler'
  | change after => after.Closed ∧
    (load after cachePath = load tree cachePath ∨ load after cachePath = empty) ∧
    ∀ compiler ∈ compilers, Kept seen tree after compiler

/-- Each step is allowed after those before it. -/
def Admissible (digest : Bytes → String) (cachePath : String) (compilers : List String) :
    List FileTree → FileTree → List Step → Prop
  | _, _, [] => True
  | seen, tree, step :: rest =>
    step.Allowed digest cachePath compilers seen tree ∧
      Admissible digest cachePath compilers (tree :: seen) (step.perform digest cachePath tree) rest

instance (seen : List FileTree) (tree after : FileTree) (compiler : String) :
    Decidable (Kept seen tree after compiler) :=
  inferInstanceAs (Decidable (_ ∧ _ ∨ ∀ s ∈ tree :: seen, _ ∨ _))

instance (tree : FileTree) (cachePath : String) (processId : Nat) (compiler : String) :
    Decidable (Apart tree cachePath processId compiler) :=
  inferInstanceAs (Decidable (∀ file ∈ tree.filesOf compiler, _))

instance (digest : Bytes → String) (cachePath : String) (compilers : List String)
    (seen : List FileTree) (tree : FileTree) :
    (step : Step) → Decidable (step.Allowed digest cachePath compilers seen tree)
  | .identify _ _ => inferInstanceAs (Decidable (_ ∧ ∀ compiler ∈ compilers, _ ∨ _))
  | .change _ => inferInstanceAs (Decidable (_ ∧ _ ∧ ∀ compiler ∈ compilers, _))

instance decidableAdmissible (digest : Bytes → String) (cachePath : String) (compilers : List String) :
    (seen : List FileTree) → (tree : FileTree) → (steps : List Step) →
    Decidable (Admissible digest cachePath compilers seen tree steps)
  | _, _, [] => .isTrue trivial
  | seen, tree, step :: rest =>
    have := decidableAdmissible digest cachePath compilers (tree :: seen)
      (step.perform digest cachePath tree) rest
    inferInstanceAs (Decidable (_ ∧ _))

/-! ## The invariant -/

/-- Each entry of the cache was true in some tree so far, and a compiler that had the size and the time
that it has now had the contents that it has now. -/
structure Faithful (digest : Bytes → String) (cachePath : String) (compilers : List String)
    (seen : List FileTree) (tree : FileTree) : Prop where
  closed : tree.Closed
  entries : ∀ compiler entry, entryAt? (load tree cachePath).entries compiler = some entry →
    ∃ s ∈ tree :: seen, TrueOf digest s compiler entry
  contents : ∀ compiler ∈ compilers, ∀ s ∈ tree :: seen, ∀ stamp,
    stampAt? s compiler = some stamp → stampAt? tree compiler = some stamp →
    contentsAt? s compiler = contentsAt? tree compiler

namespace Faithful

theorem start (hclosed : tree.Closed) (hempty : load tree cachePath = empty) :
    Faithful digest cachePath compilers [] tree := by
  refine ⟨hclosed, fun compiler entry h => ?_, fun compiler _ s hs stamp _ _ => ?_⟩
  · rw [hempty] at h
    cases h
  · rw [List.mem_singleton.mp hs]

/-- Identifying a compiler puts nothing but the truth into the cache. -/
theorem entries_identify (h : Faithful digest cachePath compilers seen tree) (compiler : String)
    (processId : Nat) {other : String} {entry : CachedHash}
    (hentry : entryAt? (load ((Step.identify compiler processId).perform digest cachePath tree)
      cachePath).entries other = some entry) :
    ∃ s ∈ tree :: seen, TrueOf digest s other entry := by
  rw [Step.perform] at hentry
  rcases files_cases digest processId tree compiler cachePath with hsame | ⟨metadata, hash, htrue, hsave⟩
  · rw [hsame] at hentry
    exact h.entries other entry hentry
  · have hsorted := (sorted_load tree cachePath).insert compiler metadata hash
    rw [hsave] at hentry
    rcases load_save_cases hsorted h.closed cachePath processId with hload | hload | hload
    · rw [hload] at hentry
      exact h.entries other entry hentry
    · rw [hload] at hentry
      cases hentry
    · rw [hload, EnvironmentCache.insert, entryAt?_insertEntry] at hentry
      split at hentry
      · rename_i hother
        cases hentry
        exact ⟨tree, List.mem_cons_self, hother ▸ htrue⟩
      · exact h.entries other entry hentry

theorem kept_of_apart (hclosed : tree.Closed) (identified : String) (processId : Nat)
    (hapart : Apart tree cachePath processId compiler) :
    Kept seen tree ((Step.identify identified processId).perform digest cachePath tree) compiler := by
  rw [Step.perform]
  rcases files_cases digest processId tree identified cachePath with hsame | ⟨metadata, hash, -, hsave⟩
  · rw [hsame]
    exact .inl ⟨rfl, rfl⟩
  · rw [hsave]
    have hspares := spares_of_save hclosed
      ((load tree cachePath).insert identified metadata hash) cachePath processId
    refine .inl ⟨?_, ?_⟩
    · rw [stampAt?, stampAt?, hspares.metadata_eq hapart]
    · rw [contentsAt?, contentsAt?, hspares.read_eq hapart]

theorem closed_perform (hclosed : tree.Closed) {step : Step}
    (hallowed : step.Allowed digest cachePath compilers seen tree) :
    (step.perform digest cachePath tree).Closed := by
  cases step with
  | change after => exact hallowed.1
  | identify compiler processId =>
    rw [Step.perform]
    rcases files_cases digest processId tree compiler cachePath with hsame | ⟨metadata, hash, -, hsave⟩
    · rwa [hsame]
    · rw [hsave]
      exact closed_of_save hclosed _ cachePath processId

/-- A compiler with the size and the time of a tree before has its contents. -/
theorem contents_of_kept (h : Faithful digest cachePath compilers seen tree)
    (hcompiler : compiler ∈ compilers) (hkept : Kept seen tree after compiler) {s : FileTree}
    (hs : s ∈ after :: tree :: seen) {stamp : Stamp} (hstamp : stampAt? s compiler = some stamp)
    (hafter : stampAt? after compiler = some stamp) :
    contentsAt? s compiler = contentsAt? after compiler := by
  rcases List.mem_cons.mp hs with rfl | hs
  · rfl
  rcases hkept with ⟨hsame, hcontents⟩ | hnew
  · rw [hcontents]
    exact h.contents compiler hcompiler s hs stamp hstamp (hsame ▸ hafter)
  · rcases hnew s hs with hnone | hne
    · rw [hafter] at hnone
      cases hnone
    · exact absurd (hstamp.trans hafter.symm) hne

theorem perform (h : Faithful digest cachePath compilers seen tree) {step : Step}
    (hallowed : step.Allowed digest cachePath compilers seen tree) :
    Faithful digest cachePath compilers (tree :: seen) (step.perform digest cachePath tree) := by
  refine ⟨closed_perform h.closed hallowed, ?_, ?_⟩
  · intro other entry hentry
    suffices ∃ s ∈ tree :: seen, TrueOf digest s other entry by
      obtain ⟨s, hs, htrue⟩ := this
      exact ⟨s, List.mem_cons_of_mem _ hs, htrue⟩
    cases step with
    | identify compiler processId => exact h.entries_identify compiler processId hentry
    | change after =>
      obtain ⟨-, hload | hload, -⟩ := hallowed
      · exact h.entries other entry (hload ▸ hentry)
      · rw [Step.perform, hload] at hentry
        cases hentry
  · intro compiler hcompiler s hs stamp
    refine h.contents_of_kept hcompiler ?_ hs
    cases step with
    | identify identified processId =>
      exact (hallowed.2 compiler hcompiler).elim (kept_of_apart h.closed identified processId) id
    | change after => exact hallowed.2.2 compiler hcompiler

/-- A hash that is in the cache for the compiler as it is, is that of its contents: the entry was true
once, and the compiler has not changed since. -/
theorem digest_of_lookup? (h : Faithful digest cachePath compilers seen tree)
    (hcompiler : compiler ∈ compilers) {metadata : FileTree.Metadata}
    (hmetadata : tree.metadata compiler = .ok metadata)
    (hlookup : (load tree cachePath).lookup? compiler metadata = some hash) :
    ofFile digest tree compiler = .ok hash := by
  rw [lookup?_eq, Option.map_eq_some_iff] at hlookup
  obtain ⟨entry, hfilter, rfl⟩ := hlookup
  obtain ⟨hentry, hfor⟩ := Option.filter_eq_some_iff.mp hfilter
  obtain ⟨s, hs, hstamp, hdigest⟩ := h.entries compiler entry hentry
  have hnow : stampAt? tree compiler = some (stampFor entry) := by
    rw [stampAt?, hmetadata, isFor_iff.mp hfor]
    rfl
  rw [h.contents compiler hcompiler s hs _ hstamp hnow, ← ofFile_toOption] at hdigest
  cases hfile : ofFile digest tree compiler with
  | error e =>
    rw [hfile] at hdigest
    cases hdigest
  | ok found =>
    rw [hfile] at hdigest
    cases hdigest
    rfl

/-- The cache makes no difference to what a compiler is identified as. -/
theorem hash_eq (h : Faithful digest cachePath compilers seen tree) (hcompiler : compiler ∈ compilers) :
    (ofCompiler digest processId tree compiler (some cachePath)).hash =
      (ofCompiler digest processId tree compiler none).hash := by
  cases hmetadata : tree.metadata compiler with
  | error e => rw [ofCompiler, ofCompiler, hmetadata]
  | ok metadata =>
    have huncached : (ofCompiler digest processId tree compiler none).hash =
        ofFile digest tree compiler := by
      rw [ofCompiler, hmetadata]
    rw [huncached]
    cases hlookup : (load tree cachePath).lookup? compiler metadata with
    | none => exact hash_of_lookup?_eq_none hmetadata hlookup
    | some hash =>
      rw [h.digest_of_lookup? hcompiler hmetadata hlookup, ofCompiler, hmetadata]
      dsimp only
      rw [hlookup]

/-- The invariant holds before each step of a run. -/
theorem performAll (h : Faithful digest cachePath compilers seen tree) {before rest : List Step}
    {step : Step}
    (hsteps : Admissible digest cachePath compilers seen tree (before ++ step :: rest)) :
    ∃ seen', Faithful digest cachePath compilers seen'
        (CompilerHash.performAll digest cachePath tree before) ∧
      step.Allowed digest cachePath compilers seen'
        (CompilerHash.performAll digest cachePath tree before) := by
  induction before generalizing seen tree with
  | nil => exact ⟨seen, h, hsteps.1⟩
  | cons first before ih => exact ih (h.perform hsteps.1) hsteps.2

end Faithful

/-- Without a cache the hash is that of the contents. -/
theorem read_of_hash (h : (ofCompiler digest processId tree compiler none).hash = .ok hash) :
    ∃ contents, tree.read compiler = .ok contents ∧ hash = digest contents := by
  rw [ofCompiler] at h
  split at h
  · cases h
  · change ofFile digest tree compiler = _ at h
    rw [ofFile] at h
    cases hread : tree.read compiler with
    | error e =>
      rw [hread] at h
      cases h
    | ok contents =>
      rw [hread] at h
      cases h
      exact ⟨contents, rfl, rfl⟩

/-- Whenever a compiler is identified, with a cache that was empty at first, the outcome is what it
would be without a cache, so that a hash is that of the contents that the compiler has then. It makes
no difference which compilers were identified and changed before, by which process, and whether their
hashes could be saved. -/
theorem cached_hash_is_current (hclosed : tree.Closed) (hempty : load tree cachePath = empty)
    {steps before rest : List Step} (hsteps : Admissible digest cachePath compilers [] tree steps)
    (hsplit : steps = before ++ .identify compiler processId :: rest) :
    (ofCompiler digest processId (performAll digest cachePath tree before) compiler
        (some cachePath)).hash =
      (ofCompiler digest processId (performAll digest cachePath tree before) compiler none).hash ∧
    ∀ hash, (ofCompiler digest processId (performAll digest cachePath tree before) compiler
        (some cachePath)).hash = .ok hash →
      ∃ contents, (performAll digest cachePath tree before).read compiler = .ok contents ∧
        hash = digest contents := by
  rw [hsplit] at hsteps
  obtain ⟨seen, hfaithful, hallowed⟩ := (Faithful.start hclosed hempty).performAll hsteps
  have hsame : (ofCompiler digest processId (performAll digest cachePath tree before) compiler
        (some cachePath)).hash =
      (ofCompiler digest processId (performAll digest cachePath tree before) compiler none).hash :=
    hfaithful.hash_eq hallowed.1
  exact ⟨hsame, fun hash hhash => read_of_hash (hsame ▸ hhash)⟩

/-- A tree with a compiler. -/
def compilerTree : FileTree := (withWorkingDirectory ["home"]).addFile "cc" [1] true

/-- The compiler is identified, replaced and identified again. -/
def replacement : List Step :=
  let saved := (Step.identify "cc" 1).perform Text.hex "hashes.json" compilerTree
  [.identify "cc" 1, .change (saved.addFile "cc" [2] true), .identify "cc" 2]

/-- The cache has the hash of the compiler that was replaced, and it is not taken. -/
theorem cached_hash_is_current_replacement :
    load (performAll Text.hex "hashes.json" compilerTree (replacement.take 2))
        "hashes.json" ≠ empty ∧
      (ofCompiler Text.hex 2
          (performAll Text.hex "hashes.json" compilerTree (replacement.take 2)) "cc"
          (some "hashes.json")).hash = .ok (Text.hex [2]) := by
  have hclosed : compilerTree.Closed := by decide +kernel
  have hempty : load compilerTree "hashes.json" = empty := by decide +kernel
  have hsteps : Admissible Text.hex "hashes.json" ["cc"] [] compilerTree replacement := by
    decide +kernel
  have hsplit : replacement = replacement.take 2 ++ .identify "cc" 2 :: [] := rfl
  obtain ⟨hsame, -⟩ := cached_hash_is_current hclosed hempty hsteps hsplit
  exact ⟨by decide +kernel, hsame.trans (by decide +kernel)⟩

end Offload.CompilerHash
