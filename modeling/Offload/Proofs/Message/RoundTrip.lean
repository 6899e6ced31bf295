import Offload.Message.Scheduler
import Offload.Message.Worker
import Offload.Proofs.Json.RoundTrip

/-!
# Messages on the wire

A message that is written as JSON and read again is that message. Every field is written by an
encoder and read by a reader that inverts it; a message is a list of such fields after its type.
-/

namespace Offload

open Json

/-! ## Readers that invert an encoder -/

/-- What `encode` writes is plain, and `read` takes it back from what the JSON reader makes of it. -/
structure Inverts {α : Type} (depth : Nat) (encode : α → Json) (read : Json → Option α) : Prop where
  plain : ∀ a, Plain depth (encode a)
  read_encode : ∀ a, read (encode a).canonical = some a

namespace Inverts

theorem string (depth : Nat) : Inverts depth Json.string Json.asString? where
  plain s := by rw [Plain]; trivial
  read_encode s := by rw [canonical, asString?]

theorem bool (depth : Nat) : Inverts depth Json.bool Json.asBool? where
  plain b := by rw [Plain]; trivial
  read_encode b := by rw [canonical, asBool?]

/-- An integer within the bounds passes the check. -/
theorem asIntIn?_int {low high n : Int} (h : low ≤ n ∧ n ≤ high) :
    Json.asIntIn? low high (Json.int n).canonical = some n := by
  rw [Json.int, canonical]
  simp [asIntIn?, asInt?, h]

theorem uint16 (depth : Nat) :
    Inverts depth (fun n : UInt16 => Json.nat n.toNat) Message.asUInt16? where
  plain n := by
    have h := n.toNat_lt
    rw [Json.nat, Plain]
    omega
  read_encode n := by
    have h := n.toNat_lt
    have hint : Json.asIntIn? 0 65535 (Json.int n.toNat).canonical = some (n.toNat : Int) :=
      asIntIn?_int (by omega)
    unfold Message.asUInt16?
    rw [show Json.nat n.toNat = Json.int n.toNat from rfl, hint, Option.map_some, Int.toNat_natCast,
      UInt16.ofNat_toNat]

theorem uint64 (depth : Nat) :
    Inverts depth (fun n : UInt64 => Json.nat n.toNat) Message.asUInt64? where
  plain n := by
    have h := n.toNat_lt
    rw [Json.nat, Plain]
    omega
  read_encode n := by
    have h := n.toNat_lt
    have hint : Json.asIntIn? 0 18446744073709551615 (Json.int n.toNat).canonical =
        some (n.toNat : Int) := asIntIn?_int (by omega)
    unfold Message.asUInt64?
    rw [show Json.nat n.toNat = Json.int n.toNat from rfl, hint, Option.map_some, Int.toNat_natCast,
      UInt64.ofNat_toNat]

theorem int32 (depth : Nat) :
    Inverts depth (fun n : Int32 => Json.int n.toInt) Message.asInt32? where
  plain n := by
    have hlow := n.le_toInt
    have hhigh := n.toInt_lt
    rw [Json.int, Plain]
    omega
  read_encode n := by
    have hlow := n.le_toInt
    have hhigh := n.toInt_lt
    unfold Message.asInt32?
    rw [asIntIn?_int (by omega), Option.map_some, Int32.ofInt_toInt]

/-- A list is read item by item. -/
theorem listOf {α : Type} {depth : Nat} {encode : α → Json} {read : Json → Option α}
    (h : Inverts depth encode read) :
    Inverts (depth + 1) (fun items : List α => Json.array (items.map encode))
      (Message.asListOf? read) where
  plain items := by
    rw [Plain, plainItems_iff]
    refine ⟨Nat.succ_pos depth, fun v hv => ?_⟩
    obtain ⟨a, -, rfl⟩ := List.mem_map.1 hv
    exact h.plain a
  read_encode items := by
    have hmap : ((items.map encode).map canonical).mapM read = some items := by
      induction items with
      | nil => rfl
      | cons a items ih =>
        rw [List.map_cons, List.map_cons, List.mapM_cons, h.read_encode, ih]
        rfl
    rw [canonical, canonicalItems_eq_map, Message.asListOf?, asArray?, Option.bind_some]
    exact hmap

end Inverts

/-! ## The fields of a message -/

namespace Inverts

variable {α : Type} {depth : Nat} {encode : α → Json} {read : Json → Option α}

/-- A field that was written is read, whatever its default. -/
theorem optional (h : Inverts depth encode read) {fields : Fields} {key : String} {a : α}
    (default : α) (hkey : Fields.get? fields.reverse key = some (encode a)) :
    Message.optional (received fields) key read default = some a := by
  unfold Message.optional
  rw [get?_received, hkey, Option.map_some]
  exact h.read_encode a

theorem required (h : Inverts depth encode read) {fields : Fields} {key : String} {a : α}
    (hkey : Fields.get? fields.reverse key = some (encode a)) :
    Message.required (received fields) key read = some a := by
  unfold Message.required
  rw [get?_received, hkey, Option.map_some, Option.bind_some]
  exact h.read_encode a

end Inverts

/-- An object with a known type and without an error is taken for a message of that type. -/
theorem Message.tagged_render {known : List String} {kind : String} {fields : Fields}
    (hplain : Plain maxDepth (.object fields))
    (herror : Fields.get? fields.reverse "error" = none)
    (htype : Fields.get? fields.reverse "type" = some (.string kind)) (hknown : kind ∈ known) :
    Message.tagged known (Json.object fields).render =
      .ok (kind, received fields) := by
  have herror' : Fields.get? (received fields) "error" = none := by
    rw [get?_received, herror, Option.map_none]
  have htype' : Fields.get? (received fields) "type" =
      some (.string kind) := by
    rw [get?_received, htype, Option.map_some, canonical]
  unfold Message.tagged
  rw [parse?_render_object hplain]
  simp only [herror', htype', if_pos hknown]

/-! ## Messages of the scheduler -/

theorem Inverts.strings (depth : Nat) :
    Inverts (depth + 1) Json.strings (Message.asListOf? Json.asString?) :=
  Inverts.listOf (Inverts.string depth)

theorem Assignment.toFields_plain (a : Assignment) (depth : Nat) :
    PlainFields (depth + 1) a.toFields := by
  have htext (s : String) := (Inverts.string (depth + 1)).plain s
  simp only [Assignment.toFields, PlainFields, and_true]
  exact ⟨htext a.ip, htext a.hostname, (Inverts.uint16 _).plain a.port,
    (Inverts.uint64 _).plain a.jobId, htext a.environment, (Inverts.strings _).plain a.extraArgs⟩

/-- The fields of an assignment are read back, though its type stands before them. -/
theorem Assignment.ofFields?_received (a : Assignment) (kind : Json) :
    Assignment.ofFields? (received (("type", kind) :: a.toFields)) = some a := by
  have hip : Message.optional (received (("type", kind) :: a.toFields)) "ip" asString? "" =
      some a.ip := (Inverts.string 0).optional "" (by simp [toFields, Fields.get?])
  have hhostname : Message.optional (received (("type", kind) :: a.toFields)) "hostname"
      asString? "" = some a.hostname :=
    (Inverts.string 0).optional "" (by simp [toFields, Fields.get?])
  have hport : Message.optional (received (("type", kind) :: a.toFields)) "port"
      Message.asUInt16? 0 = some a.port :=
    (Inverts.uint16 0).optional 0 (by simp [toFields, Fields.get?])
  have hid : Message.optional (received (("type", kind) :: a.toFields)) "id"
      Message.asUInt64? 0 = some a.jobId :=
    (Inverts.uint64 0).optional 0 (by simp [toFields, Fields.get?])
  have henvironment : Message.optional (received (("type", kind) :: a.toFields)) "environment"
      asString? "" = some a.environment :=
    (Inverts.string 0).optional "" (by simp [toFields, Fields.get?])
  have hargs : Message.optional (received (("type", kind) :: a.toFields)) "extraArgs"
      (Message.asListOf? asString?) [] = some a.extraArgs :=
    (Inverts.strings 0).optional [] (by simp [toFields, Fields.get?])
  unfold ofFields?
  rw [hip, hhostname, hport, hid, henvironment, hargs]
  rfl

namespace SchedulerMessage

/-- A message of a version is its type and that version. -/
theorem minimumVersion_received (kind : Json) (version : String) :
    Message.optional (received [("type", kind), ("minimum_version", .string version)])
      "minimum_version" asString? "" = some version :=
  (Inverts.string 0).optional "" (by simp [Fields.get?])

theorem minimumVersion_plain (kind version : String) :
    Plain maxDepth (.object [("type", .string kind), ("minimum_version", .string version)]) := by
  simp [Plain, PlainFields, maxDepth]

/-- An object with a type of the scheduler is read by its fields. -/
theorem parse_render {kind : String} {fields : Fields} (hplain : Plain maxDepth (.object fields))
    (herror : Fields.get? fields.reverse "error" = none)
    (htype : Fields.get? fields.reverse "type" = some (.string kind)) (hknown : kind ∈ types) :
    parse (Json.object fields).render = Message.ofFields (ofFields? kind (received fields)) := by
  rw [parse, Message.tagged_render hplain herror htype hknown]
  rfl

/-- What the scheduler writes is read as the message it meant. -/
theorem parse_encode (m : SchedulerMessage) : parse m.encode = .ok m := by
  cases m with
  | needsEnvironment =>
    have hplain : Plain maxDepth (.object [("type", .string "needsEnvironment")]) := by
      simp [Plain, PlainFields, maxDepth]
    exact parse_render hplain rfl rfl (by decide)
  | assignment a =>
    have hplain : Plain maxDepth (.object (("type", .string "slave") :: a.toFields)) := by
      rw [Plain, PlainFields]
      exact ⟨by decide, (Inverts.string _).plain _, a.toFields_plain 125⟩
    have htype : Fields.get? (("type", .string "slave") :: a.toFields).reverse "type" =
        some (.string "slave") := by simp [Assignment.toFields, Fields.get?]
    refine (parse_render hplain (by simp [Assignment.toFields, Fields.get?]) htype
      (by decide)).trans ?_
    show Message.ofFields ((Assignment.ofFields? _).map assignment) = _
    rw [Assignment.ofFields?_received]
    rfl
  | versionMismatch v =>
    refine (parse_render (minimumVersion_plain "version_mismatch" v) rfl rfl (by decide)).trans ?_
    show Message.ofFields ((Message.optional _ _ _ _).map versionMismatch) = _
    rw [minimumVersion_received]
    rfl
  | versionVerified v =>
    refine (parse_render (minimumVersion_plain "version_verified" v) rfl rfl (by decide)).trans ?_
    show Message.ofFields ((Message.optional _ _ _ _).map versionVerified) = _
    rw [minimumVersion_received]
    rfl

end SchedulerMessage

/-! ## Messages of a worker -/

theorem OutputKind.ofJson?_key (k : OutputKind) : OutputKind.ofJson? (.string k.key) = some k := by
  cases k <;> rfl

theorem Inverts.outputKind (depth : Nat) :
    Inverts depth (fun k : OutputKind => Json.string k.key) OutputKind.ofJson? where
  plain k := (Inverts.string depth).plain k.key
  read_encode k := by rw [canonical, OutputKind.ofJson?_key]

/-- The fields of a chunk in their order; without a path there is no field for one. -/
def OutputChunk.toFields (c : OutputChunk) : Fields :=
  [("type", .string c.kind.key), ("bytes", .nat c.bytes.toNat)]
    ++ (c.path.map fun p => ("path", .string p)).toList

theorem OutputChunk.toJson_eq_object (c : OutputChunk) : c.toJson = .object c.toFields := rfl

theorem OutputChunk.path_received (c : OutputChunk) :
    Message.optional (received c.toFields) "path" pathOfJson? none = some c.path := by
  unfold Message.optional
  rw [get?_received, toFields]
  -- a path that is left out is the default
  cases c.path with
  | none => simp [Fields.get?]
  | some p => simp [Fields.get?, canonical, pathOfJson?]

theorem Inverts.outputChunk (depth : Nat) :
    Inverts (depth + 1) OutputChunk.toJson OutputChunk.ofJson? where
  plain c := by
    have hpath : PlainFields depth (c.path.map fun p => ("path", Json.string p)).toList := by
      cases c.path <;> simp [PlainFields, Plain]
    rw [OutputChunk.toJson_eq_object, Plain]
    exact ⟨Nat.succ_pos depth, (Inverts.string depth).plain c.kind.key,
      (Inverts.uint64 depth).plain c.bytes, hpath⟩
  read_encode c := by
    have hkind : Message.required (received c.toFields) "type" OutputKind.ofJson? =
        some c.kind := by
      apply (Inverts.outputKind 0).required
      cases hpath : c.path <;> simp [OutputChunk.toFields, hpath, Fields.get?]
    have hbytes : Message.required (received c.toFields) "bytes" Message.asUInt64? =
        some c.bytes := by
      apply (Inverts.uint64 0).required
      cases hpath : c.path <;> simp [OutputChunk.toFields, hpath, Fields.get?]
    have hpath := c.path_received
    rw [OutputChunk.toJson_eq_object, canonical]
    unfold OutputChunk.ofJson?
    rw [received] at hkind hbytes hpath
    simp only [hkind, hbytes, hpath, Option.bind_eq_bind, Option.bind_some, Option.pure_def]

theorem JobResponse.toFields_plain (r : JobResponse) (depth : Nat) :
    PlainFields (depth + 2) r.toFields := by
  simp only [toFields, PlainFields, and_true]
  exact ⟨(Inverts.bool _).plain r.success, (Inverts.int32 _).plain r.exitCode,
    (Inverts.listOf (Inverts.outputChunk depth)).plain r.index⟩

/-- The fields of a header are read back, though its type stands before them. -/
theorem JobResponse.ofFields?_received (r : JobResponse) (kind : Json) :
    JobResponse.ofFields? (received (("type", kind) :: r.toFields)) = some r := by
  have hsuccess : Message.optional (received (("type", kind) :: r.toFields)) "success" asBool?
      false = some r.success :=
    (Inverts.bool 0).optional false (by simp [toFields, Fields.get?])
  have hcode : Message.optional (received (("type", kind) :: r.toFields)) "exitCode"
      Message.asInt32? 0 = some r.exitCode :=
    (Inverts.int32 0).optional 0 (by simp [toFields, Fields.get?])
  have hindex : Message.optional (received (("type", kind) :: r.toFields)) "index"
      (Message.asListOf? OutputChunk.ofJson?) [] = some r.index :=
    (Inverts.listOf (Inverts.outputChunk 0)).optional [] (by simp [toFields, Fields.get?])
  unfold ofFields?
  rw [hsuccess, hcode, hindex]
  rfl

namespace WorkerMessage

/-- An object with a type of a worker is read by its fields. -/
theorem parse_render {kind : String} {fields : Fields} (hplain : Plain maxDepth (.object fields))
    (herror : Fields.get? fields.reverse "error" = none)
    (htype : Fields.get? fields.reverse "type" = some (.string kind)) (hknown : kind ∈ types) :
    parse (Json.object fields).render = Message.ofFields (ofFields? kind (received fields)) := by
  rw [parse, Message.tagged_render hplain herror htype hknown]
  rfl

/-- What a worker writes is read as the message it meant. -/
theorem parse_encode (m : WorkerMessage) : parse m.encode = .ok m := by
  cases m with
  | resume =>
    have hplain : Plain maxDepth (.object [("type", .string "resume")]) := by
      simp [Plain, PlainFields, maxDepth]
    exact parse_render hplain rfl rfl (by decide)
  | response r =>
    have hplain : Plain maxDepth (.object (("type", .string "response") :: r.toFields)) := by
      rw [Plain, PlainFields]
      exact ⟨by decide, (Inverts.string _).plain _, r.toFields_plain 124⟩
    have htype : Fields.get? (("type", .string "response") :: r.toFields).reverse "type" =
        some (.string "response") := by simp [JobResponse.toFields, Fields.get?]
    refine (parse_render hplain (by simp [JobResponse.toFields, Fields.get?]) htype
      (by decide)).trans ?_
    show Message.ofFields ((JobResponse.ofFields? _).map response) = _
    rw [JobResponse.ofFields?_received]
    rfl

end WorkerMessage

/-- Any message of either peer survives the wire: its JSON text is read as that very message. -/
theorem messages_roundTrip :
    (∀ m : SchedulerMessage, SchedulerMessage.parse m.encode = .ok m) ∧
      ∀ m : WorkerMessage, WorkerMessage.parse m.encode = .ok m :=
  ⟨SchedulerMessage.parse_encode, WorkerMessage.parse_encode⟩

end Offload
