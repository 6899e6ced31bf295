import Offload.Message.Scheduler
import Offload.Proofs.Message.Grammar

/-!
# What a text says to a client of the scheduler

The messages of the scheduler by their grammar: which texts are taken, which message each of them
carries, and why each of the others is refused.
-/

namespace Offload

open Json Message

/-! ## The grammar -/

/-- The fields describe this worker. -/
structure Assignment.Described (fields : Fields) (a : Assignment) : Prop where
  ip : Given fields "ip" "" (fun value s => value = .string s) a.ip
  hostname : Given fields "hostname" "" (fun value s => value = .string s) a.hostname
  port : Given fields "port" 0 (fun value n => value = .int n.toNat) a.port
  jobId : Given fields "id" 0 (fun value n => value = .int n.toNat) a.jobId
  environment : Given fields "environment" "" (fun value s => value = .string s) a.environment
  extraArgs : Given fields "extraArgs" [] (SpellsList fun value s => value = .string s) a.extraArgs

/-- The fields of an assignment. -/
def Assignment.shape : Shape :=
  [("ip", IsText), ("hostname", IsText), ("port", IsIntegerIn 0 65535),
   ("id", IsIntegerIn 0 18446744073709551615), ("environment", IsText),
   ("extraArgs", IsArrayOf IsText)]

namespace SchedulerMessage

/-- What the scheduler may send. -/
def grammar : Grammar :=
  [("needsEnvironment", []), ("slave", Assignment.shape),
   ("version_mismatch", [("minimum_version", IsText)]),
   ("version_verified", [("minimum_version", IsText)])]

/-- What the fields of a message of a type mean. -/
inductive Says (fields : Fields) : String → SchedulerMessage → Prop where
  | needsEnvironment : Says fields "needsEnvironment" needsEnvironment
  | assignment {worker : Assignment} (h : worker.Described fields) :
    Says fields "slave" (assignment worker)
  | versionMismatch {version : String}
    (h : Given fields "minimum_version" "" (fun value s => value = .string s) version) :
    Says fields "version_mismatch" (versionMismatch version)
  | versionVerified {version : String}
    (h : Given fields "minimum_version" "" (fun value s => value = .string s) version) :
    Says fields "version_verified" (versionVerified version)

end SchedulerMessage

/-! ## Reading the fields -/

namespace Assignment

theorem ofFields?_eq_some_iff {fields : Fields} {a : Assignment} :
    ofFields? fields = some a ↔ a.Described fields := by
  unfold ofFields?
  simp only [Option.bind_eq_bind, Option.bind_eq_some_iff, optional_eq_some_iff Reads.text,
    optional_eq_some_iff Reads.uint16, optional_eq_some_iff Reads.uint64,
    optional_eq_some_iff Reads.text.listOf, Option.pure_def, Option.some.injEq]
  constructor
  · rintro ⟨ip, hip, hostname, hhostname, port, hport, jobId, hid, environment, henvironment,
      extraArgs, hargs, rfl⟩
    exact ⟨hip, hhostname, hport, hid, henvironment, hargs⟩
  · intro h
    exact ⟨_, h.ip, _, h.hostname, _, h.port, _, h.jobId, _, h.environment, _, h.extraArgs, rfl⟩

/-- Fields of the right types describe a worker. -/
theorem fits_iff {fields : Fields} : shape.Fits fields ↔ ∃ a : Assignment, a.Described fields := by
  simp only [shape, Shape.fits_cons, Shape.fits_nil, and_true]
  rw [typed_iff_given Reads.text "", typed_iff_given Reads.text "",
    typed_iff_given Reads.uint16 0, typed_iff_given Reads.uint64 0, typed_iff_given Reads.text "",
    typed_iff_given Reads.text.listOf []]
  constructor
  · rintro ⟨⟨ip, hip⟩, ⟨hostname, hhostname⟩, ⟨port, hport⟩, ⟨jobId, hid⟩,
      ⟨environment, henvironment⟩, ⟨extraArgs, hargs⟩⟩
    exact ⟨⟨ip, hostname, port, jobId, environment, extraArgs⟩,
      ⟨hip, hhostname, hport, hid, henvironment, hargs⟩⟩
  · rintro ⟨a, h⟩
    exact ⟨⟨_, h.ip⟩, ⟨_, h.hostname⟩, ⟨_, h.port⟩, ⟨_, h.jobId⟩, ⟨_, h.environment⟩,
      ⟨_, h.extraArgs⟩⟩

theorem ofFields?_congr {fields fields' : Fields}
    (h : ∀ key ∈ shape.map Prod.fst, Fields.get? fields key = Fields.get? fields' key) :
    ofFields? fields = ofFields? fields' := by
  unfold ofFields?
  simp only [shape, List.map_cons, List.map_nil, List.forall_mem_cons] at h
  obtain ⟨hip, hhostname, hport, hid, henvironment, hargs, -⟩ := h
  rw [optional_congr hip, optional_congr hhostname, optional_congr hport, optional_congr hid,
    optional_congr henvironment, optional_congr hargs]

end Assignment

namespace SchedulerMessage

theorem ofFields?_eq_some_iff {kind : String} {fields : Fields} {m : SchedulerMessage} :
    ofFields? kind fields = some m ↔ Says fields kind m := by
  constructor
  · intro h
    unfold ofFields? at h
    split at h
    next hkind =>
      cases h
      exact hkind ▸ .needsEnvironment
    next =>
      split at h
      next hkind =>
        obtain ⟨a, ha, rfl⟩ := Option.map_eq_some_iff.1 h
        exact hkind ▸ .assignment (Assignment.ofFields?_eq_some_iff.1 ha)
      next =>
        split at h
        next hkind =>
          obtain ⟨version, hversion, rfl⟩ := Option.map_eq_some_iff.1 h
          exact hkind ▸ .versionMismatch ((optional_eq_some_iff Reads.text).1 hversion)
        next =>
          split at h
          next hkind =>
            obtain ⟨version, hversion, rfl⟩ := Option.map_eq_some_iff.1 h
            exact hkind ▸ .versionVerified ((optional_eq_some_iff Reads.text).1 hversion)
          next => cases h
  · rintro (_ | h | h | h)
    · rfl
    · exact Option.map_eq_some_iff.2 ⟨_, Assignment.ofFields?_eq_some_iff.2 h, rfl⟩
    · exact Option.map_eq_some_iff.2 ⟨_, (optional_eq_some_iff Reads.text).2 h, rfl⟩
    · exact Option.map_eq_some_iff.2 ⟨_, (optional_eq_some_iff Reads.text).2 h, rfl⟩

/-- A message of a version is read if its version is a text or left out. -/
theorem fits_minimumVersion_iff {fields : Fields} (message : String → SchedulerMessage) :
    Shape.Fits [("minimum_version", IsText)] fields ↔
      ((optional fields "minimum_version" asString? "").map message).isSome := by
  rw [Option.isSome_map, Option.isSome_iff_exists, Shape.fits_cons,
    typed_iff_given Reads.text ""]
  simp only [optional_eq_some_iff Reads.text, Shape.fits_nil, and_true]

/-- Fields of the right types say something. -/
theorem fits_iff {kind : String} {shape : Shape} {fields : Fields}
    (hkind : (kind, shape) ∈ grammar) :
    shape.Fits fields ↔ ∃ m, Says fields kind m := by
  simp only [grammar, List.mem_cons, List.not_mem_nil, or_false, Prod.mk.injEq] at hkind
  simp only [← ofFields?_eq_some_iff, ← Option.isSome_iff_exists]
  rcases hkind with ⟨rfl, rfl⟩ | ⟨rfl, rfl⟩ | ⟨rfl, rfl⟩ | ⟨rfl, rfl⟩
  · exact ⟨fun _ => rfl, fun _ => Shape.fits_nil⟩
  · show _ ↔ ((Assignment.ofFields? fields).map assignment).isSome
    rw [Option.isSome_map, Option.isSome_iff_exists, Assignment.fits_iff]
    simp only [Assignment.ofFields?_eq_some_iff]
  · exact fits_minimumVersion_iff versionMismatch
  · exact fits_minimumVersion_iff versionVerified

theorem ofFields?_congr {kind : String} {shape : Shape} {fields fields' : Fields}
    (hkind : (kind, shape) ∈ grammar)
    (h : ∀ key ∈ shape.map Prod.fst, Fields.get? fields key = Fields.get? fields' key) :
    ofFields? kind fields = ofFields? kind fields' := by
  simp only [grammar, List.mem_cons, List.not_mem_nil, or_false, Prod.mk.injEq] at hkind
  rcases hkind with ⟨rfl, rfl⟩ | ⟨rfl, rfl⟩ | ⟨rfl, rfl⟩ | ⟨rfl, rfl⟩
  · rfl
  · exact congrArg (Option.map assignment) (Assignment.ofFields?_congr h)
  · exact congrArg (Option.map versionMismatch) (optional_congr (h _ (by simp)))
  · exact congrArg (Option.map versionVerified) (optional_congr (h _ (by simp)))

/-- The reader of the scheduler's messages follows their grammar. -/
theorem follows : Follows grammar Says ofFields? where
  says_iff := ofFields?_eq_some_iff
  fits_iff := fits_iff
  congr := ofFields?_congr

theorem parse_eq_bind (text : String) :
    parse text = (tagged (grammar.map Prod.fst) text).bind fun p =>
      Message.ofFields (ofFields? p.1 p.2) := rfl

/-- What is read from a text is the verdict of the grammar on it. The verdict depends neither on the
order of keys, at any depth, nor on keys that are not in the grammar of the message: texts whose
objects agree on the keys that count are read alike. -/
theorem parse_grammar :
    (∀ text result, parse text = result ↔ Verdict grammar Says text result) ∧
      (∀ text text', Reordered text text' → parse text = parse text') ∧
      ∀ text text' fields fields', HoldsFields text fields → HoldsFields text' fields' →
        (∀ key, Counts grammar fields key → fields.last? key = fields'.last? key) →
          parse text = parse text' := by
  refine ⟨fun text result => ?_, fun text text' h => ?_, fun text text' fields fields' => ?_⟩
  · rw [parse_eq_bind]
    exact follows.verdict_iff
  · rw [parse, parse, tagged_congr h.parse?_eq]
  · rw [parse_eq_bind, parse_eq_bind]
    exact follows.congr_text

/-- A worker is read from its fields, which may change places and stand among others. -/
theorem parse_grammar_shuffled :
    parse "\x7b\"type\":\"slave\",\"port\":80\x7d" = .ok (assignment ⟨"", "", 80, 0, "", []⟩) ∧
      parse "\x7b\"port\":80,\"type\":\"slave\"\x7d" = .ok (assignment ⟨"", "", 80, 0, "", []⟩) ∧
      parse "\x7b\"x\":null,\"port\":80,\"type\":\"slave\"\x7d" =
        .ok (assignment ⟨"", "", 80, 0, "", []⟩) := by
  have hholds : HoldsFields "\x7b\"type\":\"slave\",\"port\":80\x7d"
      [("type", .string "slave"), ("port", .int 80)] :=
    ⟨_, by simp only [String.reduceToList]; rfl, rfl⟩
  have hmore : HoldsFields "\x7b\"x\":null,\"port\":80,\"type\":\"slave\"\x7d"
      [("x", .null), ("port", .int 80), ("type", .string "slave")] :=
    ⟨_, by simp only [String.reduceToList]; rfl, rfl⟩
  have hswapped : Reordered "\x7b\"port\":80,\"type\":\"slave\"\x7d"
      "\x7b\"type\":\"slave\",\"port\":80\x7d" :=
    ⟨_, _, by simp only [String.reduceToList]; rfl, by simp only [String.reduceToList]; rfl,
      .swap (f := ("port".toList.map .char, .number ⟨false, [8, 0], none, none⟩))
        (g := ("type".toList.map .char, .string ("slave".toList.map .char))) [] [] (by decide)⟩
  have hworker : Assignment.Described (Fields.sorted [("type", .string "slave"), ("port", .int 80)])
      ⟨"", "", 80, 0, "", []⟩ :=
    ⟨.absent rfl, .absent rfl, .present rfl rfl, .absent rfl, .absent rfl, .absent rfl⟩
  have hread := (parse_grammar.1 _ _).2 (.accepted hholds.parse?_eq rfl rfl
    (List.mem_cons_of_mem _ (List.mem_cons_self ..)) (Assignment.fits_iff.2 ⟨_, hworker⟩)
    (.assignment hworker))
  refine ⟨hread, (parse_grammar.2.1 _ _ hswapped).trans hread,
    (parse_grammar.2.2 _ _ _ _ hmore hholds ?_).trans hread⟩
  rintro key (_ | _ | @⟨kind, _, shape, htype, hkind, hkey⟩)
  · rfl
  · rfl
  · have hslave : "slave" = kind := Json.string.inj (Option.some.inj htype)
    subst hslave
    have hshape : shape = Assignment.shape := by simpa [grammar] using hkind
    simp only [hshape, Assignment.shape, List.map_cons, List.map_nil, List.mem_cons,
      List.not_mem_nil, or_false] at hkey
    rcases hkey with rfl | rfl | rfl | rfl | rfl | rfl <;> rfl

end SchedulerMessage

end Offload
