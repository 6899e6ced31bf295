import Offload.Message.Worker
import Offload.Proofs.Message.Grammar

/-!
# What a text says to a client of a worker

The messages of a worker by their grammar. The entries of an index have several spellings; the
parsed index has one chunk for each entry, in the order of the entries and with their byte counts.
-/

namespace Offload

open Json Message

/-! ## The entries of an index -/

/-- The parts of an entry: the name of its kind, its byte count, and its path if it has one. They
are fields of an object or the items of an array, in this order. -/
inductive OutputChunk.Parts : Json → Json → Json → Option Json → Prop where
  | object {fields : Fields} {name count : Json} (hname : Fields.get? fields "type" = some name)
    (hcount : Fields.get? fields "bytes" = some count) :
    Parts (.object fields) name count (Fields.get? fields "path")
  | pair (name count : Json) : Parts (.array [name, count]) name count none
  | triple (name count path : Json) : Parts (.array [name, count, path]) name count (some path)

/-- What the path of an entry stands for. -/
inductive OutputChunk.SpellsPath : Option Json → Option String → Prop where
  | absent : SpellsPath none none
  | null : SpellsPath (some .null) none
  | text (path : String) : SpellsPath (some (.string path)) (some path)

section

-- an object names a kind of output by its only key; what stands under that key is left open here
variable (Held : Json → Prop)

/-- The value names this kind of output. -/
inductive OutputKind.Named : Json → OutputKind → Prop where
  | text (kind : OutputKind) : Named (.string kind.key) kind
  | object (kind : OutputKind) {held : Json} (h : Held held) :
    Named (.object [(kind.key, held)]) kind

/-- The value is an entry whose parts are of the right types. -/
def OutputChunk.IsEntry (value : Json) : Prop :=
  ∃ name count path, Parts value name count path ∧ (∃ kind, OutputKind.Named Held name kind) ∧
    IsIntegerIn 0 18446744073709551615 count ∧ ∃ p, SpellsPath path p

/-- The value is an entry for this chunk. -/
def OutputChunk.Spelled (value : Json) (chunk : OutputChunk) : Prop :=
  ∃ name count path, Parts value name count path ∧ OutputKind.Named Held name chunk.kind ∧
    count = .int chunk.bytes.toNat ∧ SpellsPath path chunk.path

/-! ## The grammar -/

/-- The fields are those of this header. -/
structure JobResponse.Described (fields : Fields) (r : JobResponse) : Prop where
  success : Given fields "success" false (fun value b => value = .bool b) r.success
  exitCode : Given fields "exitCode" 0 (fun value n => value = .int n.toInt) r.exitCode
  index : Given fields "index" [] (SpellsList (OutputChunk.Spelled Held)) r.index

/-- The fields of a header. -/
def JobResponse.shape : Shape :=
  [("success", IsFlag), ("exitCode", IsIntegerIn (-2147483648) 2147483647),
   ("index", IsArrayOf (OutputChunk.IsEntry Held))]

/-- What a worker may send. -/
def WorkerMessage.grammar : Grammar := [("resume", []), ("response", JobResponse.shape Held)]

/-- What the fields of a message of a type mean. -/
inductive WorkerMessage.Says (fields : Fields) : String → WorkerMessage → Prop where
  | resume : Says fields "resume" resume
  | response {header : JobResponse} (h : header.Described Held fields) :
    Says fields "response" (response header)

end

/-- The value holds nothing: `null`, or an object without fields. -/
def IsNothing (value : Json) : Prop := value = .null ∨ value = .object []

/-! ## Reading an entry -/

namespace OutputKind

theorem ofKey?_eq_some_iff {key : String} {kind : OutputKind} :
    ofKey? key = some kind ↔ key = kind.key := by
  constructor
  · intro h
    have hkey := List.find?_some h
    exact (eq_of_beq hkey).symm
  · rintro rfl
    cases kind <;> decide

/-- An object with one key is a name only if that key holds what it may. -/
theorem Named.held {Held : Json → Prop} {key : String} {value : Json} {kind : OutputKind}
    (h : Named Held (.object [(key, value)]) kind) : Held value := by
  generalize hobject : Json.object [(key, value)] = object at h
  cases h with
  | text => cases hobject
  | @object _ held hheld =>
    have hfield : key = kind.key ∧ value = held := by simpa using hobject
    exact hfield.2 ▸ hheld

theorem reads :
    Reads (fun value => ∃ kind, Named IsNothing value kind) (Named IsNothing) ofJson? where
  some_iff {value kind} := by
    constructor
    · intro h
      unfold ofJson? at h
      split at h
      · cases ofKey?_eq_some_iff.1 h
        exact .object kind (.inr rfl)
      · obtain ⟨key, hcase, hkey⟩ := Option.bind_eq_some_iff.1 h
        cases ofKey?_eq_some_iff.1 hkey
        unfold asCase? at hcase
        split at hcase <;> cases hcase
        · exact .text kind
        · exact .object kind (.inl rfl)
    · rintro (_ | @⟨_, held, rfl | rfl⟩)
      all_goals exact ofKey?_eq_some_iff.2 rfl
  type_iff := Iff.rfl

end OutputKind

namespace OutputChunk

theorem pathOfJson?_eq_some_iff {value : Json} {path : Option String} :
    pathOfJson? value = some path ↔ SpellsPath (some value) path := by
  constructor
  · intro h
    unfold pathOfJson? at h
    split at h <;> cases h
    · exact .null
    · exact .text _
  · rintro (_ | _ | _) <;> rfl

theorem optional_path_eq_some_iff {fields : Fields} {path : Option String} :
    Message.optional fields "path" pathOfJson? none = some path ↔
      SpellsPath (Fields.get? fields "path") path := by
  unfold Message.optional
  cases Fields.get? fields "path" with
  | none => exact ⟨fun h => by cases h; exact .absent, fun h => by cases h; rfl⟩
  | some value => exact pathOfJson?_eq_some_iff

theorem required_eq_some_iff {α : Type} {fields : Fields} {key : String} {read : Json → Option α}
    {a : α} :
    required fields key read = some a ↔
      ∃ value, Fields.get? fields key = some value ∧ read value = some a :=
  Option.bind_eq_some_iff

theorem reads : Reads (IsEntry IsNothing) (Spelled IsNothing) ofJson? where
  some_iff {value chunk} := by
    constructor
    · intro h
      unfold ofJson? at h
      split at h
      · simp only [Option.bind_eq_bind, Option.bind_eq_some_iff, required_eq_some_iff,
          optional_path_eq_some_iff, OutputKind.reads.some_iff, Reads.uint64.some_iff,
          Option.pure_def, Option.some.injEq] at h
        obtain ⟨kind, ⟨name, hname, hkind⟩, bytes, ⟨count, hcount, hbytes⟩, path, hpath, rfl⟩ := h
        exact ⟨name, count, _, .object hname hcount, hkind, hbytes, hpath⟩
      · simp only [Option.bind_eq_bind, Option.bind_eq_some_iff, OutputKind.reads.some_iff,
          Reads.uint64.some_iff, Option.pure_def, Option.some.injEq] at h
        obtain ⟨kind, hkind, bytes, hbytes, rfl⟩ := h
        exact ⟨_, _, _, .pair _ _, hkind, hbytes, .absent⟩
      · simp only [Option.bind_eq_bind, Option.bind_eq_some_iff, OutputKind.reads.some_iff,
          Reads.uint64.some_iff, pathOfJson?_eq_some_iff, Option.pure_def, Option.some.injEq] at h
        obtain ⟨kind, hkind, bytes, hbytes, path, hpath, rfl⟩ := h
        exact ⟨_, _, _, .triple _ _ _, hkind, hbytes, hpath⟩
      · cases h
    · rintro ⟨name, count, path, hparts, hkind, hbytes, hpath⟩
      have hkind' := OutputKind.reads.some_iff.2 hkind
      have hbytes' := Reads.uint64.some_iff.2 hbytes
      cases hparts with
      | object hname hcount =>
        unfold ofJson?
        dsimp only
        rw [required_eq_some_iff.2 ⟨_, hname, hkind'⟩, required_eq_some_iff.2 ⟨_, hcount, hbytes'⟩,
          optional_path_eq_some_iff.2 hpath]
        rfl
      | pair =>
        obtain ⟨kind, bytes, path⟩ := chunk
        cases hpath
        unfold ofJson?
        dsimp only
        rw [hkind', hbytes']
        rfl
      | triple =>
        unfold ofJson?
        dsimp only
        rw [hkind', hbytes', pathOfJson?_eq_some_iff.2 hpath]
        rfl
  type_iff {value} := by
    constructor
    · rintro ⟨name, count, path, hparts, ⟨kind, hkind⟩, hcount, ⟨p, hpath⟩⟩
      obtain ⟨bytes, hbytes⟩ := Reads.uint64.type_iff.1 hcount
      exact ⟨⟨kind, bytes, p⟩, name, count, path, hparts, hkind, hbytes, hpath⟩
    · rintro ⟨chunk, name, count, path, hparts, hkind, hbytes, hpath⟩
      exact ⟨name, count, path, hparts, ⟨_, hkind⟩, Reads.uint64.type_iff.2 ⟨_, hbytes⟩, _, hpath⟩

end OutputChunk

/-! ## Reading the fields -/

namespace JobResponse

theorem ofFields?_eq_some_iff {fields : Fields} {r : JobResponse} :
    ofFields? fields = some r ↔ r.Described IsNothing fields := by
  unfold ofFields?
  simp only [Option.bind_eq_bind, Option.bind_eq_some_iff, optional_eq_some_iff Reads.flag,
    optional_eq_some_iff Reads.int32, optional_eq_some_iff OutputChunk.reads.listOf,
    Option.pure_def, Option.some.injEq]
  constructor
  · rintro ⟨success, hsuccess, exitCode, hcode, index, hindex, rfl⟩
    exact ⟨hsuccess, hcode, hindex⟩
  · intro h
    exact ⟨_, h.success, _, h.exitCode, _, h.index, rfl⟩

/-- Fields of the right types make a header. -/
theorem fits_iff {fields : Fields} :
    (shape IsNothing).Fits fields ↔ ∃ r : JobResponse, r.Described IsNothing fields := by
  simp only [shape, Shape.fits_cons, Shape.fits_nil, and_true]
  rw [typed_iff_given Reads.flag false, typed_iff_given Reads.int32 0,
    typed_iff_given OutputChunk.reads.listOf []]
  constructor
  · rintro ⟨⟨success, hsuccess⟩, ⟨exitCode, hcode⟩, ⟨index, hindex⟩⟩
    exact ⟨⟨success, exitCode, index⟩, ⟨hsuccess, hcode, hindex⟩⟩
  · rintro ⟨r, h⟩
    exact ⟨⟨_, h.success⟩, ⟨_, h.exitCode⟩, ⟨_, h.index⟩⟩

theorem ofFields?_congr {fields fields' : Fields}
    (h : ∀ key ∈ (shape IsNothing).map Prod.fst,
      Fields.get? fields key = Fields.get? fields' key) :
    ofFields? fields = ofFields? fields' := by
  unfold ofFields?
  simp only [shape, List.map_cons, List.map_nil, List.forall_mem_cons] at h
  obtain ⟨hsuccess, hcode, hindex, -⟩ := h
  rw [optional_congr hsuccess, optional_congr hcode, optional_congr hindex]

end JobResponse

namespace WorkerMessage

theorem ofFields?_eq_some_iff {kind : String} {fields : Fields} {m : WorkerMessage} :
    ofFields? kind fields = some m ↔ Says IsNothing fields kind m := by
  constructor
  · intro h
    unfold ofFields? at h
    split at h
    next hkind =>
      cases h
      exact hkind ▸ .resume
    next =>
      split at h
      next hkind =>
        obtain ⟨r, hr, rfl⟩ := Option.map_eq_some_iff.1 h
        exact hkind ▸ .response (JobResponse.ofFields?_eq_some_iff.1 hr)
      next => cases h
  · rintro (_ | h)
    · rfl
    · exact Option.map_eq_some_iff.2 ⟨_, JobResponse.ofFields?_eq_some_iff.2 h, rfl⟩

/-- The reader of a worker's messages follows their grammar. -/
theorem follows : Follows (grammar IsNothing) (Says IsNothing) ofFields? where
  says_iff := ofFields?_eq_some_iff
  fits_iff {kind shape fields} hkind := by
    simp only [grammar, List.mem_cons, List.not_mem_nil, or_false, Prod.mk.injEq] at hkind
    simp only [← ofFields?_eq_some_iff, ← Option.isSome_iff_exists]
    rcases hkind with ⟨rfl, rfl⟩ | ⟨rfl, rfl⟩
    · exact ⟨fun _ => rfl, fun _ => Shape.fits_nil⟩
    · show _ ↔ ((JobResponse.ofFields? fields).map response).isSome
      rw [Option.isSome_map, Option.isSome_iff_exists, JobResponse.fits_iff]
      simp only [JobResponse.ofFields?_eq_some_iff]
  congr {kind shape fields fields'} hkind h := by
    simp only [grammar, List.mem_cons, List.not_mem_nil, or_false, Prod.mk.injEq] at hkind
    rcases hkind with ⟨rfl, rfl⟩ | ⟨rfl, rfl⟩
    · rfl
    · exact congrArg (Option.map response) (JobResponse.ofFields?_congr h)

theorem parse_eq_bind (text : String) :
    parse text = (tagged ((grammar IsNothing).map Prod.fst) text).bind fun p =>
      Message.ofFields (ofFields? p.1 p.2) := rfl

/-- The index is that of the fields: without one it is empty, else it has as many chunks as there
are entries, and each has the byte count of the entry at its place. -/
def KeepsIndex (fields : Fields) (index : List OutputChunk) : Prop :=
  (Fields.get? fields "index" = none ∧ index = []) ∨
    ∃ items, Fields.get? fields "index" = some (.array items) ∧ items.length = index.length ∧
      ∀ i (h : i < items.length) (h' : i < index.length), ∃ name path,
        OutputChunk.Parts items[i] name (.int index[i].bytes.toNat) path

theorem keepsIndex_of_given {Held : Json → Prop} {fields : Fields} {index : List OutputChunk}
    (h : Given fields "index" [] (SpellsList (OutputChunk.Spelled Held)) index) :
    KeepsIndex fields index := by
  obtain hkey | ⟨hkey, items, rfl, hitems⟩ := h
  · exact .inl ⟨hkey, rfl⟩
  · obtain ⟨hlength, hspelled⟩ := List.forall₂_iff_get.mp hitems
    refine .inr ⟨items, hkey, hlength, fun i h h' => ?_⟩
    obtain ⟨name, count, path, hparts, -, hbytes, -⟩ := hspelled i h h'
    exact ⟨name, path, hbytes ▸ hparts⟩

/-- What is read from a text is the verdict of the grammar on it, and the index of a response keeps
the order of the entries, how many there are, and their byte counts. -/
theorem parse_follows_grammar :
    (∀ text result,
      parse text = result ↔ Verdict (grammar IsNothing) (Says IsNothing) text result) ∧
      ∀ text header, parse text = .ok (response header) →
        ∃ fields, parse? text = some (.object fields) ∧ KeepsIndex fields header.index := by
  have hverdict : ∀ text result,
      parse text = result ↔ Verdict (grammar IsNothing) (Says IsNothing) text result := by
    intro text result
    rw [parse_eq_bind]
    exact follows.verdict_iff
  refine ⟨hverdict, fun text header hread => ?_⟩
  obtain _ | _ | _ | _ | _ | _ | _ | ⟨hparse, -, -, -, -, hmeans⟩ := (hverdict _ _).1 hread
  obtain _ | hheader := hmeans
  exact ⟨_, hparse, keepsIndex_of_given hheader.index⟩

/-- The text of an answer with two entries, the first an array and the second an object. -/
def twoEntriesAnswer : String :=
  "\x7b\"index\":[[\"stderr\",2],\x7b\"type\":\"file\",\"bytes\":1\x7d],\"type\":\"response\"\x7d"

/-- The entries of that answer are read in their order. -/
theorem parse_follows_grammar_two_entries :
    parse twoEntriesAnswer =
        .ok (response ⟨false, 0, [⟨.stderr, 2, none⟩, ⟨.file, 1, none⟩]⟩) ∧
      ∃ fields, parse? twoEntriesAnswer = some (.object fields) ∧
        KeepsIndex fields [⟨.stderr, 2, none⟩, ⟨.file, 1, none⟩] := by
  have hparse : parse? twoEntriesAnswer = some (.object
      [("index", .array [.array [.string "stderr", .int 2],
        .object [("bytes", .int 1), ("type", .string "file")]]),
       ("type", .string "response")]) := by
    simp only [parse?, twoEntriesAnswer, String.reduceToList]
    rfl
  have hfirst : OutputChunk.Spelled IsNothing (.array [.string "stderr", .int 2])
      ⟨.stderr, 2, none⟩ := ⟨_, _, _, .pair _ _, .text .stderr, rfl, .absent⟩
  have hsecond : OutputChunk.Spelled IsNothing
      (.object [("bytes", .int 1), ("type", .string "file")]) ⟨.file, 1, none⟩ :=
    ⟨_, _, _, .object rfl rfl, .text .file, rfl, .absent⟩
  have hheader : JobResponse.Described IsNothing
      [("index", .array [.array [.string "stderr", .int 2],
        .object [("bytes", .int 1), ("type", .string "file")]]), ("type", .string "response")]
      ⟨false, 0, [⟨.stderr, 2, none⟩, ⟨.file, 1, none⟩]⟩ :=
    ⟨.absent rfl, .absent rfl, .present rfl ⟨_, rfl, .cons hfirst (.cons hsecond .nil)⟩⟩
  have hread := (parse_follows_grammar.1 _ _).2 (.accepted hparse rfl rfl
    (List.mem_cons_of_mem _ (List.mem_cons_self ..)) (JobResponse.fits_iff.2 ⟨_, hheader⟩)
    (.response hheader))
  exact ⟨hread, parse_follows_grammar.2 _ _ hread⟩

/-- The order of keys makes no difference, at any depth. -/
theorem parse_eq_of_reordered {text text' : String} (h : Reordered text text') :
    parse text = parse text' := by
  rw [parse, parse, tagged_congr h.parse?_eq]

/-- Keys that are not in the grammar of a message make no difference. -/
theorem parse_eq_of_agree {text text' : String} {fields fields' : Fields}
    (hholds : HoldsFields text fields) (hholds' : HoldsFields text' fields')
    (hagree : ∀ key, Counts (grammar IsNothing) fields key → fields.last? key = fields'.last? key) :
    parse text = parse text' := by
  rw [parse_eq_bind, parse_eq_bind]
  exact follows.congr_text hholds hholds' hagree

/-- The text of an answer whose only entry names its kind by an object that holds an empty one. -/
def emptyObjectAnswer : String :=
  "\x7b\"type\":\"response\",\"index\":[[\x7b\"stdout\":\x7b\x7d\x7d,1]]\x7d"

/-- An empty object under the name of a kind is as good as `null`: a grammar that allows only `null`
there has no place for a text that is accepted. -/
theorem parse_emptyObjectAnswer :
    parse emptyObjectAnswer = .ok (response ⟨false, 0, [⟨.stdout, 1, none⟩]⟩) ∧
      ¬ Verdict (grammar (· = .null)) (Says (· = .null)) emptyObjectAnswer
        (.ok (response ⟨false, 0, [⟨.stdout, 1, none⟩]⟩)) := by
  have hparse : parse? emptyObjectAnswer = some (.object
      [("index", .array [.array [.object [("stdout", .object [])], .int 1]]),
       ("type", .string "response")]) := by
    simp only [parse?, emptyObjectAnswer, String.reduceToList]
    rfl
  constructor
  · rw [parse, tagged, hparse]
    rfl
  · rintro (_ | _ | _ | _ | _ | _ | _ | ⟨hparse', -, -, -, -, hmeans⟩)
    rw [hparse] at hparse'
    cases hparse'
    obtain _ | ⟨_, _, hindex⟩ := hmeans
    obtain _ | ⟨hget, items, rfl, hitems⟩ := hindex
    cases hget
    obtain _ | ⟨⟨name, count, path, hparts, hnamed, -⟩, -⟩ := hitems
    cases hparts
    cases hnamed.held

end WorkerMessage

end Offload
