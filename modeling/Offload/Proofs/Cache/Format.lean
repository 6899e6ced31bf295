import Mathlib.Data.List.Forall2
import Mathlib.Data.String.Basic
import Offload.Cache.Environments
import Offload.Proofs.Json.RoundTrip

/-!
# The file of remembered hashes

What the contents of a file have to be to hold remembered hashes, told without their reader
(`HoldsCache`): the names and spellings of the fields, what may be left out, and which of several
entries for one path counts. The reader takes exactly such contents (`decode?_eq_some_iff`), and a
cache is written as contents that hold it (`holdsCache_encode`).
-/

namespace Offload

open Json

/-- A list is read item by item. -/
theorem mapM_eq_some_iff {α β : Type} {read : α → Option β} {items : List α} {results : List β} :
    items.mapM read = some results ↔ List.Forall₂ (fun a b => read a = some b) items results := by
  induction items generalizing results with
  | nil => cases results <;> simp
  | cons a items ih =>
    cases results with
    | nil =>
      simp only [List.mapM_cons, List.forall₂_nil_right_iff, List.cons_ne_nil, iff_false]
      cases read a <;> cases items.mapM read <;> simp
    | cons b results =>
      simp only [List.mapM_cons, Option.pure_def, Option.bind_eq_bind, Option.bind_eq_some_iff,
        Option.some.injEq, List.cons.injEq, List.forall₂_cons, ← ih]
      constructor
      · rintro ⟨b, hb, results, hresults, rfl, rfl⟩
        exact ⟨hb, hresults⟩
      · rintro ⟨hb, hresults⟩
        exact ⟨b, hb, results, hresults, rfl, rfl⟩

/-- Bytes encode a text iff they are its bytes. -/
theorem Bytes.toString?_eq_some_iff {bytes : Bytes} {s : String} :
    bytes.toString? = some s ↔ bytes = Bytes.ofString s := by
  constructor
  · intro h
    rw [Bytes.toString?, String.fromUTF8?] at h
    split at h
    · cases h
      rfl
    · cases h
  · rintro rfl
    have hbytes : ByteArray.mk (Bytes.ofString s).toArray = s.toByteArray := rfl
    rw [Bytes.toString?, hbytes, String.fromUTF8?, dif_pos s.isValidUTF8]
    rfl

namespace EnvironmentCache

variable {cache : EnvironmentCache} {entries given : List (String × CachedHash)} {path : String}
  {entry : CachedHash}

/-! ## Entries by path -/

/-- The first entry for a path. -/
def entryAt? (entries : List (String × CachedHash)) (path : String) : Option CachedHash :=
  (entries.find? fun e => e.1 == path).map (·.2)

/-- The paths are in order and no path comes twice. -/
def SortedEntries (entries : List (String × CachedHash)) : Prop :=
  entries.Pairwise fun a b => a.1 < b.1

/-- The entries of the cache are sorted by path, as they are in every cache that is made. -/
def Sorted (cache : EnvironmentCache) : Prop := SortedEntries cache.entries

theorem entryAt?_cons (e : String × CachedHash) (entries : List (String × CachedHash))
    (path : String) :
    entryAt? (e :: entries) path = if e.1 = path then some e.2 else entryAt? entries path := by
  unfold entryAt?
  by_cases h : e.1 = path <;> simp [h]

theorem entryAt?_append (before after : List (String × CachedHash)) (path : String) :
    entryAt? (before ++ after) path = (entryAt? before path).or (entryAt? after path) := by
  unfold entryAt?
  rw [List.find?_append]
  cases before.find? fun e => e.1 == path <;> rfl

theorem mem_of_entryAt? (h : entryAt? entries path = some entry) : (path, entry) ∈ entries := by
  obtain ⟨e, he, rfl⟩ := Option.map_eq_some_iff.mp h
  have hpath : e.1 = path := by simpa using List.find?_some he
  rw [← hpath]
  exact List.mem_of_find?_eq_some he

theorem entryAt?_eq_none (h : ∀ e ∈ entries, path < e.1) : entryAt? entries path = none := by
  by_contra hsome
  obtain ⟨entry, hentry⟩ := Option.ne_none_iff_exists'.mp hsome
  exact lt_irrefl path (h _ (mem_of_entryAt? hentry))

/-- A cache answers from its entry for the path, if that is for the file as it is. -/
theorem lookup?_eq (cache : EnvironmentCache) (path : String) (metadata : FileTree.Metadata) :
    cache.lookup? path metadata =
      ((entryAt? cache.entries path).filter fun e => e.isFor metadata).map (·.hash) := by
  rw [lookup?, entryAt?]
  cases cache.entries.find? fun e => e.1 == path with
  | none => rfl
  | some e => cases hfor : e.2.isFor metadata <;> simp [Option.filter, hfor]

theorem entryAt?_insertEntry (path : String) (entry : CachedHash)
    (entries : List (String × CachedHash)) (other : String) :
    entryAt? (insertEntry path entry entries) other =
      if path = other then some entry else entryAt? entries other := by
  induction entries with
  | nil => rw [insertEntry, entryAt?_cons]
  | cons e entries ih =>
    obtain ⟨p, first⟩ := e
    rw [insertEntry]
    split
    · rw [entryAt?_cons]
    split
    · rename_i hpath
      rw [entryAt?_cons, entryAt?_cons, ← hpath]
      split <;> rfl
    · rename_i hpath
      rw [entryAt?_cons, entryAt?_cons, ih]
      by_cases hother : path = other
      · have hp : p ≠ other := fun hp => hpath (hother.trans hp.symm)
        rw [if_pos hother, if_neg hp, if_pos hother]
      · rw [if_neg hother, if_neg hother]

theorem mem_insertEntry {e : String × CachedHash} (h : e ∈ insertEntry path entry entries) :
    e = (path, entry) ∨ e ∈ entries := by
  induction entries with
  | nil => exact .inl (List.mem_singleton.mp h)
  | cons first entries ih =>
    rw [insertEntry] at h
    split at h
    · exact (List.mem_cons.mp h).imp_right id
    split at h
    · exact (List.mem_cons.mp h).imp_right (List.mem_cons_of_mem _)
    · rcases List.mem_cons.mp h with rfl | h
      · exact .inr List.mem_cons_self
      · exact (ih h).imp_right (List.mem_cons_of_mem _)

theorem SortedEntries.insertEntry (h : SortedEntries entries) (path : String) (entry : CachedHash) :
    SortedEntries (insertEntry path entry entries) := by
  induction entries with
  | nil => exact List.pairwise_singleton _ _
  | cons first entries ih =>
    obtain ⟨hfirst, hrest⟩ := List.pairwise_cons.mp h
    rw [EnvironmentCache.insertEntry]
    split
    case isTrue hlt =>
      refine List.pairwise_cons.mpr ⟨fun e he => ?_, h⟩
      rcases List.mem_cons.mp he with rfl | he
      · exact hlt
      · exact lt_trans hlt (hfirst e he)
    case isFalse hle =>
      split
      case isTrue heq =>
        refine List.pairwise_cons.mpr ⟨fun e he => ?_, hrest⟩
        exact heq ▸ hfirst e he
      case isFalse hne =>
        refine List.pairwise_cons.mpr ⟨fun e he => ?_, ih hrest⟩
        rcases mem_insertEntry he with rfl | he
        · exact lt_of_le_of_ne (not_lt.mp hle) (Ne.symm hne)
        · exact hfirst e he

/-- The first path of some entries is found in no sorted ones that start after it. -/
theorem SortedEntries.not_lt_first {d e : String × CachedHash}
    {others : List (String × CachedHash)} (h : SortedEntries (e :: others))
    (hsame : ∀ path, entryAt? (d :: entries) path = entryAt? (e :: others) path) : ¬ d.1 < e.1 := by
  intro hlt
  have hnone : entryAt? (e :: others) d.1 = none := by
    refine entryAt?_eq_none fun f hf => ?_
    rcases List.mem_cons.mp hf with rfl | hf
    · exact hlt
    · exact hlt.trans ((List.pairwise_cons.mp h).1 f hf)
  rw [← hsame, entryAt?_cons, if_pos rfl] at hnone
  cases hnone

/-- Sorted entries are settled by what is found in them. -/
theorem SortedEntries.eq {others : List (String × CachedHash)} (h : SortedEntries entries)
    (h' : SortedEntries others) (hsame : ∀ path, entryAt? entries path = entryAt? others path) :
    entries = others := by
  induction entries generalizing others with
  | nil =>
    cases others with
    | nil => rfl
    | cons e others => simpa [entryAt?_cons, entryAt?] using hsame e.1
  | cons d entries ih =>
    cases others with
    | nil => simpa [entryAt?_cons, entryAt?] using hsame d.1
    | cons e others =>
      obtain ⟨hd, hentries⟩ := List.pairwise_cons.mp h
      obtain ⟨he, hothers⟩ := List.pairwise_cons.mp h'
      -- the lesser of the two first paths would be found on one side only
      have hpath : d.1 = e.1 :=
        le_antisymm (not_lt.mp (h.not_lt_first fun path => (hsame path).symm))
          (not_lt.mp (h'.not_lt_first hsame))
      have hentry : d.2 = e.2 := by
        have hfirst := hsame d.1
        rw [entryAt?_cons, entryAt?_cons, if_pos rfl, if_pos hpath.symm] at hfirst
        exact Option.some.inj hfirst
      have hrest : entries = others := by
        refine ih hentries hothers fun path => ?_
        by_cases hd' : d.1 = path
        · rw [entryAt?_eq_none (hd' ▸ hd), entryAt?_eq_none (hd' ▸ hpath ▸ he)]
        · have hfound := hsame path
          rwa [entryAt?_cons, entryAt?_cons, if_neg hd', if_neg (hpath ▸ hd')] at hfound
      rw [hrest, Prod.ext hpath hentry]

/-! ## Entries put in one after the other -/

/-- The cache has the given entries; of several for one path it has the last. -/
structure Keeps (cache : EnvironmentCache) (given : List (String × CachedHash)) : Prop where
  sorted : cache.Sorted
  last : ∀ path, entryAt? cache.entries path = entryAt? given.reverse path

theorem keeps_foldl (given : List (String × CachedHash)) :
    Keeps ⟨given.foldl (fun acc e => insertEntry e.1 e.2 acc) []⟩ given := by
  -- what is put in later hides what was there before
  have hfold : ∀ given acc : List (String × CachedHash), SortedEntries acc →
      SortedEntries (given.foldl (fun acc e => insertEntry e.1 e.2 acc) acc) ∧
        ∀ path, entryAt? (given.foldl (fun acc e => insertEntry e.1 e.2 acc) acc) path =
          (entryAt? given.reverse path).or (entryAt? acc path) := by
    intro given
    induction given with
    | nil => exact fun acc hacc => ⟨hacc, fun path => rfl⟩
    | cons e given ih =>
      intro acc hacc
      obtain ⟨hsorted, hlast⟩ := ih _ (hacc.insertEntry e.1 e.2)
      refine ⟨hsorted, fun path => ?_⟩
      rw [List.foldl_cons, hlast, entryAt?_insertEntry, List.reverse_cons, entryAt?_append,
        entryAt?_cons]
      cases entryAt? given.reverse path with
      | some found => rfl
      | none =>
        by_cases hpath : e.1 = path
        · rw [if_pos hpath, if_pos hpath]
          rfl
        · rw [if_neg hpath, if_neg hpath]
          rfl
  obtain ⟨hsorted, hlast⟩ := hfold given [] List.Pairwise.nil
  refine ⟨hsorted, fun path => ?_⟩
  rw [hlast, show entryAt? [] path = none from rfl, Option.or_none]

/-- Only one cache has the given entries. -/
theorem keeps_iff :
    cache.Keeps given ↔ cache = ⟨given.foldl (fun acc e => insertEntry e.1 e.2 acc) []⟩ := by
  constructor
  · intro h
    have hfold := keeps_foldl given
    have hentries := h.sorted.eq hfold.sorted fun path => (h.last path).trans (hfold.last path).symm
    exact congrArg EnvironmentCache.mk hentries
  · rintro rfl
    exact keeps_foldl given

/-- What is found among entries for different paths does not depend on their order. -/
theorem entryAt?_eq_some_iff (h : entries.Pairwise fun a b => a.1 ≠ b.1) :
    entryAt? entries path = some entry ↔ (path, entry) ∈ entries := by
  refine ⟨mem_of_entryAt?, fun hmem => ?_⟩
  induction entries with
  | nil => cases hmem
  | cons e entries ih =>
    obtain ⟨he, hentries⟩ := List.pairwise_cons.mp h
    rw [entryAt?_cons]
    rcases List.mem_cons.mp hmem with rfl | hmem
    · rw [if_pos rfl]
    · rw [if_neg (he _ hmem), ih hentries hmem]

theorem entryAt?_perm (h : entries.Pairwise fun a b => a.1 ≠ b.1) (hperm : given.Perm entries)
    (path : String) : entryAt? given path = entryAt? entries path := by
  have hgiven : given.Pairwise fun a b => a.1 ≠ b.1 :=
    (hperm.pairwise_iff fun hne => Ne.symm hne).mpr h
  ext entry
  rw [entryAt?_eq_some_iff hgiven, entryAt?_eq_some_iff h, hperm.mem_iff]

theorem Sorted.pairwise_ne (h : cache.Sorted) : cache.entries.Pairwise fun a b => a.1 ≠ b.1 :=
  List.Pairwise.imp ne_of_lt h

/-- Sorted entries are kept as they are, in whatever order they are given. -/
theorem Sorted.keeps_of_perm (h : cache.Sorted) (hperm : given.Perm cache.entries) :
    cache.Keeps given :=
  ⟨h, fun path => (entryAt?_perm h.pairwise_ne ((List.reverse_perm given).trans hperm) path).symm⟩

/-- Caches with the same entries give the same answers. -/
theorem Sorted.lookup?_perm (h : cache.Sorted) (hperm : given.Perm cache.entries) (path : String)
    (metadata : FileTree.Metadata) : lookup? ⟨given⟩ path metadata = cache.lookup? path metadata := by
  rw [lookup?_eq, lookup?_eq, entryAt?_perm h.pairwise_ne hperm]

/-! ## What the trees of a text say -/

/-- The tree is this text. -/
def IsText (tree : Tree) (s : String) : Prop :=
  ∃ pieces, tree = .string pieces ∧ textOfPieces? pieces = some s.toList

/-- The tree is this integer, which has no sign and is below the bound. -/
def IsNat (bound : Nat) (tree : Tree) (n : Nat) : Prop :=
  ∃ numeral, tree = .number numeral ∧ numeral.value? = some (.int n) ∧ n < bound

/-- What stands under a name in an object, in the order of the text. -/
def treesAt (fields : List (List Piece × Tree)) (name : String) : List Tree :=
  (fields.filter fun f => textOfPieces? f.1 = some name.toList).map (·.2)

/-- Every name is a text, and under each of these there is what is listed for it, once or not at
all. What stands under any other name does not count. -/
def Named (fields : List (List Piece × Tree)) (names : List String) (trees : List (Option Tree)) :
    Prop :=
  (∀ f ∈ fields, textOfPieces? f.1 ≠ none) ∧
    List.Forall₂ (fun name tree => treesAt fields name = tree.toList) names trees

/-- The parts of an entry, as fields of an object or as items of an array in this order. -/
inductive Parts : Tree → Tree → Tree → Tree → Tree → Prop where
  | array (size seconds nanoseconds hash : Tree) :
    Parts (.array [size, seconds, nanoseconds, hash]) size seconds nanoseconds hash
  | object {fields : List (List Piece × Tree)} {size seconds nanoseconds hash : Tree}
    (h : Named fields ["size", "mtime_secs", "mtime_nanos", "hash"]
      [some size, some seconds, some nanoseconds, some hash]) :
    Parts (.object fields) size seconds nanoseconds hash

/-- The tree is this entry. -/
def IsEntry (tree : Tree) (entry : CachedHash) : Prop :=
  ∃ size seconds nanoseconds hash, Parts tree size seconds nanoseconds hash ∧
    IsNat (2 ^ 64) size entry.size.toNat ∧ IsNat (2 ^ 64) seconds entry.seconds.toNat ∧
    IsNat (2 ^ 32) nanoseconds entry.nanoseconds.toNat ∧ IsText hash entry.hash

/-- The tree gives these entries for paths, in the order of the text. -/
def Gives (tree : Tree) (given : List (String × CachedHash)) : Prop :=
  ∃ fields, tree = .object fields ∧
    List.Forall₂ (fun f e => textOfPieces? f.1 = some e.1.toList ∧ IsEntry f.2 e.2) fields given

/-- The tree is this cache, an object or an array with one field that may be left out. -/
inductive IsCache : Tree → EnvironmentCache → Prop where
  | emptyArray : IsCache (.array []) empty
  | array {tree : Tree} {given : List (String × CachedHash)} {cache : EnvironmentCache}
    (h : Gives tree given) (hkeeps : cache.Keeps given) : IsCache (.array [tree]) cache
  | noEntries {fields : List (List Piece × Tree)} (h : Named fields ["entries"] [none]) :
    IsCache (.object fields) empty
  | object {fields : List (List Piece × Tree)} {tree : Tree} {given : List (String × CachedHash)}
    {cache : EnvironmentCache} (h : Named fields ["entries"] [some tree]) (htree : Gives tree given)
    (hkeeps : cache.Keeps given) : IsCache (.object fields) cache

/-- The contents of a file are the bytes of a JSON text that is this cache. -/
def HoldsCache (contents : Bytes) (cache : EnvironmentCache) : Prop :=
  ∃ text tree, contents = Bytes.ofString text ∧ Tree.ofChars? text.toList = some tree ∧
    IsCache tree cache

/-! ## Reading a cache -/

theorem map_ofList_eq_some_iff {chars : Option (List Char)} {s : String} :
    chars.map String.ofList = some s ↔ chars = some s.toList := by
  rw [Option.map_eq_some_iff]
  constructor
  · rintro ⟨chars, rfl, rfl⟩
    rw [String.toList_ofList]
  · intro h
    exact ⟨_, h, String.ofList_toList⟩

theorem text?_eq_some_iff {tree : Tree} {s : String} : text? tree = some s ↔ IsText tree s := by
  unfold IsText
  cases tree with
  | string pieces =>
    simp only [text?, map_ofList_eq_some_iff, Tree.string.injEq, exists_eq_left']
  | _ => simp [text?]

theorem natBelow?_eq_some_iff {bound n : Nat} {tree : Tree} :
    natBelow? bound tree = some n ↔ IsNat bound tree n := by
  unfold IsNat
  cases tree with
  | number numeral =>
    rcases hvalue : numeral.value? with _ | i | x
    · simp [natBelow?, hvalue]
    · simp [natBelow?, hvalue]
      omega
    · simp [natBelow?, hvalue]
  | _ => simp [natBelow?]

/-- A field whose name is a text, with that text for its name. -/
def nameOf? (f : List Piece × Tree) : Option (String × Tree) :=
  (textOfPieces? f.1).map fun k => (String.ofList k, f.2)

theorem nameOf?_eq_some_iff {f : List Piece × Tree} {name : String} {tree : Tree} :
    nameOf? f = some (name, tree) ↔ textOfPieces? f.1 = some name.toList ∧ f.2 = tree := by
  rw [nameOf?, ← map_ofList_eq_some_iff]
  cases textOfPieces? f.1 <;> simp

theorem map_filter_eq_treesAt {fields : List (List Piece × Tree)} {named : List (String × Tree)}
    (h : List.Forall₂ (fun f k => nameOf? f = some k) fields named) (name : String) :
    (named.filter fun f => f.1 == name).map (·.2) = treesAt fields name := by
  unfold treesAt
  induction h with
  | nil => rfl
  | @cons f k fields named hf _ ih =>
    obtain ⟨key, tree⟩ := k
    obtain ⟨hkey, rfl⟩ := nameOf?_eq_some_iff.mp hf
    rw [List.filter_cons, List.filter_cons, hkey]
    by_cases hname : key = name
    · simp [hname, ih]
    · simp [hname, String.toList_inj, ih]

theorem exists_named_iff {fields : List (List Piece × Tree)} :
    (∀ f ∈ fields, textOfPieces? f.1 ≠ none) ↔ ∃ named, fields.mapM nameOf? = some named := by
  simp only [mapM_eq_some_iff]
  induction fields with
  | nil => simp
  | cons f fields ih =>
    rw [List.forall_mem_cons, ih]
    constructor
    · rintro ⟨hf, named, hnamed⟩
      obtain ⟨k, hk⟩ := Option.ne_none_iff_exists'.mp hf
      exact ⟨(String.ofList k, f.2) :: named, .cons (by rw [nameOf?, hk]; rfl) hnamed⟩
    · rintro ⟨_, hnamed⟩
      cases hnamed with
      | @cons _ k _ named hf hnamed =>
        refine ⟨fun hnone => ?_, named, hnamed⟩
        rw [nameOf?, hnone] at hf
        cases hf

theorem namedFields?_eq_some_iff {names : List String} {fields : List (List Piece × Tree)}
    {trees : List (Option Tree)} :
    namedFields? names fields = some trees ↔ Named fields names trees := by
  unfold Named
  rw [exists_named_iff, ← exists_and_right]
  change ((fields.mapM nameOf?).bind fun named => names.mapM _) = _ ↔ _
  rw [Option.bind_eq_some_iff]
  refine exists_congr fun named => and_congr_right fun hnamed => ?_
  rw [mapM_eq_some_iff]
  refine iff_of_eq (congrArg (List.Forall₂ · names trees) (funext₂ fun name tree => propext ?_))
  rw [← map_filter_eq_treesAt (mapM_eq_some_iff.mp hnamed)]
  generalize named.filter (fun f => f.1 == name) = found
  rcases found with _ | ⟨f, _ | ⟨g, more⟩⟩
  · cases tree <;> simp
  · cases tree <;> simp
  · cases tree <;> simp

theorem entryOfTrees?_eq_some_iff {size seconds nanoseconds hash : Tree} {entry : CachedHash} :
    entryOfTrees? size seconds nanoseconds hash = some entry ↔
      IsNat (2 ^ 64) size entry.size.toNat ∧ IsNat (2 ^ 64) seconds entry.seconds.toNat ∧
        IsNat (2 ^ 32) nanoseconds entry.nanoseconds.toNat ∧ IsText hash entry.hash := by
  unfold entryOfTrees?
  simp only [Option.bind_eq_bind, Option.bind_eq_some_iff, natBelow?_eq_some_iff,
    text?_eq_some_iff, Option.pure_def, Option.some.injEq]
  constructor
  · rintro ⟨n, hsize, m, hseconds, k, hnanoseconds, s, hhash, rfl⟩
    obtain ⟨-, -, -, hn⟩ := id hsize
    obtain ⟨-, -, -, hm⟩ := id hseconds
    obtain ⟨-, -, -, hk⟩ := id hnanoseconds
    refine ⟨?_, ?_, ?_, hhash⟩
    · rwa [UInt64.toNat_ofNat_of_lt' hn]
    · rwa [UInt64.toNat_ofNat_of_lt' hm]
    · rwa [UInt32.toNat_ofNat_of_lt' hk]
  · rintro ⟨hsize, hseconds, hnanoseconds, hhash⟩
    refine ⟨_, hsize, _, hseconds, _, hnanoseconds, _, hhash, ?_⟩
    rw [UInt64.ofNat_toNat, UInt64.ofNat_toNat, UInt32.ofNat_toNat]

theorem entryOfTree?_eq_some_iff {tree : Tree} {entry : CachedHash} :
    entryOfTree? tree = some entry ↔ IsEntry tree entry := by
  unfold IsEntry
  simp only [← entryOfTrees?_eq_some_iff]
  constructor
  · intro h
    unfold entryOfTree? at h
    split at h
    case h_1 size seconds nanoseconds hash =>
      exact ⟨size, seconds, nanoseconds, hash, .array .., h⟩
    case h_2 fields =>
      split at h
      case h_1 size seconds nanoseconds hash hnamed =>
        exact ⟨size, seconds, nanoseconds, hash, .object (namedFields?_eq_some_iff.mp hnamed), h⟩
      case h_2 => cases h
    case h_3 => cases h
  · rintro ⟨size, seconds, nanoseconds, hash, hparts, h⟩
    cases hparts with
    | array => exact h
    | object hnamed =>
      unfold entryOfTree?
      dsimp only
      rw [CachedHash.fieldNames, namedFields?_eq_some_iff.mpr hnamed]
      exact h

theorem entriesOfTree?_eq_some_iff {tree : Tree} {cache : EnvironmentCache} :
    (entriesOfTree? tree).map EnvironmentCache.mk = some cache ↔
      ∃ given, Gives tree given ∧ cache.Keeps given := by
  -- a field for a path, and the entry it gives
  have hfield : ∀ {f : List Piece × Tree} {e : String × CachedHash},
      (do
        let path ← textOfPieces? f.1
        let entry ← entryOfTree? f.2
        return (String.ofList path, entry)) = some e ↔
      textOfPieces? f.1 = some e.1.toList ∧ IsEntry f.2 e.2 := by
    intro f e
    obtain ⟨path, entry⟩ := e
    rw [← entryOfTree?_eq_some_iff, ← map_ofList_eq_some_iff]
    cases textOfPieces? f.1 <;> cases entryOfTree? f.2 <;> simp
  unfold entriesOfTree? Gives
  cases tree with
  | object fields =>
    simp only [Tree.object.injEq, exists_eq_left', ← hfield, ← mapM_eq_some_iff, keeps_iff]
    rcases fields.mapM _ with _ | given
    · simp
    · simp [eq_comm]
  | _ => simp

theorem ofTree?_eq_some_iff {tree : Tree} : ofTree? tree = some cache ↔ IsCache tree cache := by
  constructor
  · intro h
    unfold ofTree? at h
    split at h
    case h_1 =>
      cases h
      exact .emptyArray
    case h_2 entries =>
      obtain ⟨given, hgiven, hkeeps⟩ := entriesOfTree?_eq_some_iff.mp h
      exact .array hgiven hkeeps
    case h_3 fields =>
      split at h
      case h_1 entries hnamed =>
        obtain ⟨given, hgiven, hkeeps⟩ := entriesOfTree?_eq_some_iff.mp h
        exact .object (namedFields?_eq_some_iff.mp hnamed) hgiven hkeeps
      case h_2 hnamed =>
        cases h
        exact .noEntries (namedFields?_eq_some_iff.mp hnamed)
      case h_3 => cases h
    case h_4 => cases h
  · intro h
    unfold ofTree?
    cases h with
    | emptyArray => rfl
    | array hgiven hkeeps => exact entriesOfTree?_eq_some_iff.mpr ⟨_, hgiven, hkeeps⟩
    | noEntries hnamed =>
      dsimp only
      rw [namedFields?_eq_some_iff.mpr hnamed]
    | object hnamed hgiven hkeeps =>
      dsimp only
      rw [namedFields?_eq_some_iff.mpr hnamed]
      exact entriesOfTree?_eq_some_iff.mpr ⟨_, hgiven, hkeeps⟩

/-- The reader takes the contents that hold a cache, and no others. -/
theorem decode?_eq_some_iff {contents : Bytes} :
    contents.toString?.bind decode? = some cache ↔ HoldsCache contents cache := by
  unfold HoldsCache decode?
  simp only [Option.bind_eq_some_iff, Bytes.toString?_eq_some_iff, ofTree?_eq_some_iff]
  constructor
  · rintro ⟨text, rfl, tree, htree, hcache⟩
    exact ⟨text, tree, rfl, htree, hcache⟩
  · rintro ⟨text, tree, rfl, htree, hcache⟩
    exact ⟨text, rfl, tree, htree, hcache⟩

/-! ## Writing a cache -/

/-- A number below the bound of machine integers is read as itself. -/
theorem isNat_numeralOf {bound n : Nat} (hn : n < bound) (hbound : bound ≤ 2 ^ 64) :
    IsNat bound (.number (numeralOf n)) n :=
  ⟨_, rfl, numeralOf_value? (by omega) (by omega), hn⟩

/-- The text of an entry is read as that entry. -/
theorem reads_entry (entry : CachedHash) :
    ∃ tree, Reads (chars entry.toJson) tree ∧ IsEntry tree entry := by
  obtain ⟨size, hsize, hreadSize⟩ := readPieces_escape "size".toList
  obtain ⟨seconds, hseconds, hreadSeconds⟩ := readPieces_escape "mtime_secs".toList
  obtain ⟨nanoseconds, hnanoseconds, hreadNanoseconds⟩ := readPieces_escape "mtime_nanos".toList
  obtain ⟨hash, hhash, hreadHash⟩ := readPieces_escape "hash".toList
  obtain ⟨text, htext, hreadText⟩ := readPieces_escape entry.hash.toList
  have hreads := Reads.object <| ReadsFields.cons hreadSize (Reads.number (n := entry.size.toNat)) <|
    ReadsFields.cons hreadSeconds (Reads.number (n := entry.seconds.toNat)) <|
    ReadsFields.cons hreadNanoseconds (Reads.number (n := entry.nanoseconds.toNat)) <|
    ReadsFields.last hreadHash (Reads.string hreadText)
  refine ⟨_, by simpa [CachedHash.toJson, chars, charsOfFields, quoted, Json.nat, Number.text]
    using hreads, ?_⟩
  have hnamed : Named [(size, .number (numeralOf entry.size.toNat)),
      (seconds, .number (numeralOf entry.seconds.toNat)),
      (nanoseconds, .number (numeralOf entry.nanoseconds.toNat)), (hash, .string text)]
      ["size", "mtime_secs", "mtime_nanos", "hash"]
      [some (.number (numeralOf entry.size.toNat)), some (.number (numeralOf entry.seconds.toNat)),
        some (.number (numeralOf entry.nanoseconds.toNat)), some (.string text)] := by
    refine ⟨by simp [hsize, hseconds, hnanoseconds, hhash], ?_⟩
    simp [treesAt, hsize, hseconds, hnanoseconds, hhash]
  exact ⟨_, _, _, _, .object hnamed, isNat_numeralOf entry.size.toNat_lt (by decide),
    isNat_numeralOf entry.seconds.toNat_lt (by decide),
    isNat_numeralOf entry.nanoseconds.toNat_lt (by decide), text, rfl, htext⟩

/-- The text of some entries is read as these entries in their order. -/
theorem reads_entries (hne : entries ≠ []) :
    ∃ fields, ReadsFields (charsOfFields (entries.map fun e => (e.1, e.2.toJson))) fields ∧
      List.Forall₂ (fun f e => textOfPieces? f.1 = some e.1.toList ∧ IsEntry f.2 e.2) fields
        entries := by
  induction entries with
  | nil => exact absurd rfl hne
  | cons e entries ih =>
    obtain ⟨key, hkey, hreadKey⟩ := readPieces_escape e.1.toList
    obtain ⟨tree, htree, hentry⟩ := reads_entry e.2
    cases entries with
    | nil =>
      have hreads := ReadsFields.last hreadKey htree
      refine ⟨[(key, tree)], by simpa [charsOfFields, quoted] using hreads, ?_⟩
      exact .cons ⟨hkey, hentry⟩ .nil
    | cons f entries =>
      obtain ⟨fields, hfields, hentries⟩ := ih (List.cons_ne_nil _ _)
      have hreads := ReadsFields.cons hreadKey htree hfields
      refine ⟨(key, tree) :: fields, by simpa [charsOfFields, quoted] using hreads, ?_⟩
      exact .cons ⟨hkey, hentry⟩ hentries

theorem reads_object (entries : List (String × CachedHash)) :
    ∃ tree, Reads (chars (.object (entries.map fun e => (e.1, e.2.toJson)))) tree ∧
      Gives tree entries := by
  cases entries with
  | nil =>
    refine ⟨.object [], Reads.of_step ⟨'\x7b', _, rfl, by decide, by decide⟩ ?_, [], rfl, .nil⟩
    intro fuel rest
    rfl
  | cons e entries =>
    obtain ⟨fields, hfields, hentries⟩ := reads_entries (List.cons_ne_nil e entries)
    rw [chars]
    exact ⟨.object fields, Reads.object hfields, fields, rfl, hentries⟩

/-- What is written for a cache holds that cache, in whatever order its entries are written. -/
theorem holdsCache_encode (h : cache.Sorted) (hperm : given.Perm cache.entries) :
    HoldsCache (Bytes.ofString (encode ⟨given⟩)) cache := by
  obtain ⟨key, hkey, hreadKey⟩ := readPieces_escape "entries".toList
  obtain ⟨tree, htree, hgives⟩ := reads_object given
  have hreads : Reads (chars (toJson ⟨given⟩)) (.object [(key, tree)]) := by
    have hlast := Reads.object (ReadsFields.last hreadKey htree)
    rw [toJson, chars]
    simpa [charsOfFields, quoted] using hlast
  have hnamed : Named [(key, tree)] ["entries"] [some tree] := by
    refine ⟨by simp [hkey], ?_⟩
    simp [treesAt, hkey]
  refine ⟨encode ⟨given⟩, _, rfl, ?_, .object hnamed hgives (h.keeps_of_perm hperm)⟩
  rw [encode, render, String.toList_ofList]
  exact hreads.ofChars?

end EnvironmentCache

end Offload
