import Offload.Config.Client
import Offload.Proofs.Json.RoundTrip

/-!
# A stack of layers is as good as one layer

Under each key one value of a stack counts: that of the first layer in which the key is present and
not `null` (`ConfigLayers.Decides`). An object that holds just these values flattens the stack, and
there always is one (`ConfigLayers.flattening`). Nothing that is asked of the stack tells it from its
flattening, so the client's settings are the same as well; and whatever stands in the layers, the
client has at least one slot of each kind, and times that were configured or are the defaults
(`layers_eq_flattening`).

Every question begins with the value that decides a key. So it is enough to compare these values: two
stacks in which they agree answer all questions alike (`SameValues`).
-/

namespace Offload

namespace Json

/-- The integer of 64 bits that a value is. -/
theorem asInt64?_eq_some_iff {v : Json} {n : Int} :
    v.asInt64? = some n ↔ v = .int n ∧ -9223372036854775808 ≤ n ∧ n ≤ 9223372036854775807 := by
  unfold asInt64? asIntIn? int
  rw [Option.filter_eq_some_iff, Bool.and_eq_true, decide_eq_true_iff, decide_eq_true_iff]
  constructor
  · intro ⟨hint, hbounds⟩
    unfold asInt? at hint
    split at hint
    · rw [Option.some_inj] at hint
      rw [hint]
      exact ⟨rfl, by omega⟩
    · cases hint
  · rintro ⟨rfl, hbounds⟩
    exact ⟨rfl, by omega⟩

theorem isNull_iff {v : Json} : v.isNull = true ↔ v = .null := by
  cases v <;> simp [isNull]

theorem Fields.mem_of_get? {fields : Fields} {key : String} {v : Json}
    (h : Fields.get? fields key = some v) : key ∈ fields.map Prod.fst := by
  unfold Fields.get? at h
  rw [Option.map_eq_some_iff] at h
  obtain ⟨f, hf, -⟩ := h
  rw [List.mem_map]
  exact ⟨f, List.mem_of_find?_eq_some hf, by simpa using List.find?_some hf⟩

/-- The fields whose keys have a value, each with this value. -/
def Fields.withValues (value? : String → Option Json) (keys : List String) : Fields :=
  keys.filterMap fun key => (value? key).map fun v => (key, v)

theorem Fields.get?_withValues (value? : String → Option Json) (keys : List String) (key : String) :
    Fields.get? (Fields.withValues value? keys) key = if key ∈ keys then value? key else none := by
  induction keys with
  | nil => rfl
  | cons k keys ih =>
    unfold Fields.withValues at ih ⊢
    rw [List.filterMap_cons]
    cases hvalue : value? k with
    | none =>
      rw [Option.map_none, ih]
      by_cases hkey : key = k
      · rw [hkey, hvalue, ite_self, ite_self]
      · simp only [List.mem_cons, hkey, false_or]
    | some v =>
      rw [Option.map_some, Fields.get?_cons, ih]
      by_cases hkey : key = k
      · rw [hkey, if_pos rfl, if_pos List.mem_cons_self, hvalue]
      · rw [if_neg fun h => hkey h.symm]
        simp only [List.mem_cons, hkey, false_or]

end Json

/-! ## The value that decides a key -/

namespace ConfigLayer

variable {layer : ConfigLayer} {key : String} {v : Json} {source : Source}

theorem get?_eq_some_iff : layer.get? key = some ⟨v, source⟩ ↔
    layer.source = source ∧ Json.Fields.get? layer.values key = some v ∧ v ≠ .null := by
  unfold get?
  rw [Option.map_eq_some_iff]
  constructor
  · intro ⟨w, hfilter, hw⟩
    rw [Sourced.mk.injEq] at hw
    obtain ⟨rfl, rfl⟩ := hw
    rw [Option.filter_eq_some_iff, Bool.not_eq_true', ← Bool.not_eq_true, Json.isNull_iff] at hfilter
    exact ⟨rfl, hfilter⟩
  · rintro ⟨rfl, hvalue, hnull⟩
    refine ⟨v, ?_, rfl⟩
    rw [Option.filter_eq_some_iff, Bool.not_eq_true', ← Bool.not_eq_true, Json.isNull_iff]
    exact ⟨hvalue, hnull⟩

theorem get?_eq_none_iff : layer.get? key = none ↔
    Json.Fields.get? layer.values key = none ∨ Json.Fields.get? layer.values key = some .null := by
  unfold get?
  rw [Option.map_eq_none_iff, Option.filter_eq_none_iff]
  cases Json.Fields.get? layer.values key with
  | none => simp
  | some v => simp [Json.isNull_iff]

end ConfigLayer

namespace ConfigLayers

/-- The value stands in the first layer in which the key is present and not `null`; this is the layer
from the source. -/
def Decides (config : ConfigLayers) (key : String) (v : Json) (source : Source) : Prop :=
  ∃ before layer after, config.layers = before ++ layer :: after ∧ layer.source = source ∧
    Json.Fields.get? layer.values key = some v ∧ v ≠ .null ∧
    ∀ higher ∈ before, Json.Fields.get? higher.values key = none ∨
      Json.Fields.get? higher.values key = some .null

/-- The object holds under each key the value that decides the key in the stack, and nothing else. -/
def Flattens (fields : Json.Fields) (config : ConfigLayers) : Prop :=
  ∀ key v, Json.Fields.get? fields key = some v ↔ ∃ source, config.Decides key v source

/-- The object with the deciding values, sorted by key. -/
def flattening (config : ConfigLayers) : Json.Fields :=
  Json.Fields.sorted (Json.Fields.withValues (fun key => (config.get? key).map Sourced.value)
    (config.layers.flatMap fun layer => layer.values.map Prod.fst))

/-- The stack that has nothing but this object. -/
def single (source : Source) (fields : Json.Fields) : ConfigLayers := ⟨[⟨source, fields⟩]⟩

/-- The values that decide the keys are the same. -/
def SameValues (a b : ConfigLayers) : Prop :=
  ∀ key, (a.get? key).map Sourced.value = (b.get? key).map Sourced.value

section Deciding

variable {config : ConfigLayers} {key : String} {v : Json} {source : Source}

theorem get?_eq_some_iff : config.get? key = some ⟨v, source⟩ ↔ config.Decides key v source := by
  unfold get? Decides
  rw [List.findSome?_eq_some_iff]
  simp only [ConfigLayer.get?_eq_some_iff, ConfigLayer.get?_eq_none_iff, and_assoc]

theorem map_value_get?_iff :
    (config.get? key).map Sourced.value = some v ↔ ∃ source, config.Decides key v source := by
  rw [Option.map_eq_some_iff]
  constructor
  · intro ⟨found, hfound, hvalue⟩
    refine ⟨found.source, get?_eq_some_iff.mp ?_⟩
    rw [hfound, ← hvalue]
  · intro ⟨source, hdecides⟩
    exact ⟨⟨v, source⟩, get?_eq_some_iff.mpr hdecides, rfl⟩

/-- The deciding layer alone is read: if its value has the wrong type, there is no answer. -/
theorem Decides.typed?_eq {α : Type} (h : config.Decides key v source) (read : Json → Option α) :
    config.typed? read key = (read v).map fun a => ⟨a, source⟩ := by
  unfold typed?
  rw [get?_eq_some_iff.mpr h]
  rfl

/-- A key that decides something is a key of some layer. -/
theorem Decides.mem_keys (h : config.Decides key v source) :
    key ∈ config.layers.flatMap fun layer => layer.values.map Prod.fst := by
  obtain ⟨before, layer, after, hlayers, -, hvalue, -⟩ := h
  rw [List.mem_flatMap, hlayers]
  exact ⟨layer, by simp, Json.Fields.mem_of_get? hvalue⟩

end Deciding

theorem flattens_flattening (config : ConfigLayers) : Flattens config.flattening config := by
  intro key v
  unfold flattening
  rw [Json.Fields.get?_sorted, Json.Fields.withValues, ← List.filterMap_reverse,
    ← Json.Fields.withValues, Json.Fields.get?_withValues, ← map_value_get?_iff]
  by_cases hkey : key ∈ (config.layers.flatMap fun layer => layer.values.map Prod.fst).reverse
  · rw [if_pos hkey]
  · rw [if_neg hkey]
    constructor
    · intro h
      cases h
    · intro h
      obtain ⟨source, hdecides⟩ := map_value_get?_iff.mp h
      exact absurd (List.mem_reverse.mpr hdecides.mem_keys) hkey

theorem Flattens.sameValues {fields : Json.Fields} {config : ConfigLayers}
    (h : Flattens fields config)
    (source : Source) : SameValues (single source fields) config := by
  intro key
  apply Option.ext
  intro v
  have honly : (∃ source', (single source fields).Decides key v source') ↔
      Json.Fields.get? fields key = some v ∧ v ≠ .null := by
    rw [← map_value_get?_iff, single, get?, List.findSome?_singleton, Option.map_eq_some_iff]
    constructor
    · intro ⟨found, hfound, hvalue⟩
      obtain ⟨w, found⟩ := found
      obtain rfl : w = v := hvalue
      exact (ConfigLayer.get?_eq_some_iff.mp hfound).2
    · intro hvalue
      exact ⟨⟨v, source⟩, ConfigLayer.get?_eq_some_iff.mpr ⟨rfl, hvalue⟩, rfl⟩
  rw [map_value_get?_iff, map_value_get?_iff, honly, h key v]
  constructor
  · intro h
    exact h.1
  · intro hdecides
    obtain ⟨-, -, -, -, -, -, -, hnull, -⟩ := id hdecides
    exact ⟨hdecides, hnull⟩

/-! ## What is asked of a stack -/

section Questions

variable {a b : ConfigLayers}

theorem SameValues.typed? {α : Type} (h : SameValues a b) (read : Json → Option α) (key : String) :
    (a.typed? read key).map Sourced.value = (b.typed? read key).map Sourced.value := by
  have hvalue (config : ConfigLayers) : (config.typed? read key).map Sourced.value =
      ((config.get? key).map Sourced.value).bind read := by
    unfold ConfigLayers.typed?
    cases config.get? key with
    | none => rfl
    | some found => cases hread : read found.value <;> simp [hread]
  rw [hvalue, hvalue, h key]

/-- Both stacks give the same answer to each question, if maybe from other sources. -/
structure AnswersAlike (a b : ConfigLayers) : Prop where
  get? : ∀ key, (a.get? key).map Sourced.value = (b.get? key).map Sourced.value
  string? : ∀ key, (a.string? key).map Sourced.value = (b.string? key).map Sourced.value
  integer? : ∀ key, (a.integer? key).map Sourced.value = (b.integer? key).map Sourced.value
  boolean? : ∀ key, (a.boolean? key).map Sourced.value = (b.boolean? key).map Sourced.value

theorem SameValues.answersAlike (h : SameValues a b) : AnswersAlike a b where
  get? := h
  string? := h.typed? Json.asString?
  integer? := h.typed? Json.asInt64?
  boolean? := h.typed? Json.asBool?

end Questions

/-- What the first value that is not `null` says is the answer, even if it has the wrong type; the
layers below do not matter. -/
structure DecidedAlone (config : ConfigLayers) (key : String) (v : Json) (source : Source) :
    Prop where
  get? : config.get? key = some ⟨v, source⟩
  string? : config.string? key = v.asString?.map fun s => ⟨s, source⟩
  integer? : config.integer? key = v.asInt64?.map fun n => ⟨n, source⟩
  boolean? : config.boolean? key = v.asBool?.map fun b => ⟨b, source⟩

theorem Decides.decidedAlone {config : ConfigLayers} {key : String} {v : Json} {source : Source}
    (h : config.Decides key v source) : DecidedAlone config key v source where
  get? := get?_eq_some_iff.mpr h
  string? := h.typed?_eq Json.asString?
  integer? := h.typed?_eq Json.asInt64?
  boolean? := h.typed?_eq Json.asBool?

end ConfigLayers

/-! ## The client's settings -/

namespace ClientConfig

open ConfigLayers

section SameSettings

variable {a b : ConfigLayers}

theorem valueOr_eq {α : Type} {x y : Option (Sourced α)}
    (h : x.map Sourced.value = y.map Sourced.value) (default : α) :
    valueOr x default = valueOr y default := by
  unfold valueOr
  exact congrArg (fun value => value.getD default) h

/-- Two settings with the same value are both missing, or differ at most in their sources. -/
theorem sameValue_cases {α : Type} {x y : Option (Sourced α)}
    (h : x.map Sourced.value = y.map Sourced.value) :
    (x = none ∧ y = none) ∨ ∃ value s t, x = some ⟨value, s⟩ ∧ y = some ⟨value, t⟩ := by
  cases x with
  | none => exact .inl ⟨rfl, Option.map_eq_none_iff.mp h.symm⟩
  | some found =>
    obtain ⟨other, hother, hvalue⟩ := Option.map_eq_some_iff.mp h.symm
    refine .inr ⟨found.value, found.source, other.source, rfl, ?_⟩
    rw [hother, ← hvalue]

theorem milliseconds_eq (h : AnswersAlike a b) (key : String) (default : Nat) :
    milliseconds a key default = milliseconds b key default := by
  unfold milliseconds
  obtain ⟨ha, hb⟩ | ⟨n, s, t, ha, hb⟩ := sameValue_cases (h.integer? key) <;> rw [ha, hb]

theorem compileSlots_eq (h : AnswersAlike a b) (host : Host) :
    compileSlots host a = compileSlots host b := by
  unfold compileSlots
  obtain ⟨ha, hb⟩ | ⟨n, s, t, ha, hb⟩ := sameValue_cases (h.integer? "slots")
  · rw [ha, hb]
    obtain ⟨ha, hb⟩ | ⟨n, s, t, ha, hb⟩ := sameValue_cases (h.integer? "desired_slots") <;>
      rw [ha, hb]
  · rw [ha, hb]

theorem preprocessSlots_eq (h : AnswersAlike a b) (host : Host) :
    preprocessSlots host a = preprocessSlots host b := by
  unfold preprocessSlots
  obtain ⟨ha, hb⟩ | ⟨n, s, t, ha, hb⟩ := sameValue_cases (h.integer? "cpp-slots") <;> rw [ha, hb]

/-- The settings are made of the answers alone, and not of their sources. -/
theorem ofLayers_eq (h : AnswersAlike a b) (host : Host) : ofLayers host a = ofLayers host b := by
  simp only [ofLayers, cacheDirOf, compatibleHashesOf, milliseconds_eq h, compileSlots_eq h,
    preprocessSlots_eq h, h.string? "hostname", h.string? "log-file", h.string? "cache-dir",
    h.get? "compatible-hashes", valueOr_eq (h.string? "scheduler"), valueOr_eq (h.string? "name"),
    valueOr_eq (h.string? "client-name"), valueOr_eq (h.string? "log-level"),
    valueOr_eq (h.boolean? "watchdog"), valueOr_eq (h.boolean? "no-local"),
    valueOr_eq (h.boolean? "log-file-append")]

end SameSettings

/-! ## Sound settings -/

section Sound

variable {config : ConfigLayers}

/-- A time is what the stack says under a key, if this is an integer of 64 bits that is not negative,
and else the default. -/
inductive ConfiguredOr (config : ConfigLayers) (key : String) (default : Nat) : Nat → Prop
  | configured (n : Nat) (source : Source) (hn : n ≤ 9223372036854775807)
      (h : config.Decides key (.nat n) source) : ConfiguredOr config key default n
  | byDefault (h : ∀ n ≤ 9223372036854775807, ∀ source, ¬ config.Decides key (.nat n) source) :
      ConfiguredOr config key default default

theorem integer?_eq_some_iff {key : String} {n : Int} {source : Source} :
    config.integer? key = some ⟨n, source⟩ ↔
      config.Decides key (.int n) source ∧
        -9223372036854775808 ≤ n ∧ n ≤ 9223372036854775807 := by
  unfold ConfigLayers.integer? typed?
  rw [Option.bind_eq_some_iff]
  constructor
  · intro ⟨found, hfound, hread⟩
    rw [Option.map_eq_some_iff] at hread
    obtain ⟨m, hm, hsame⟩ := hread
    rw [Sourced.mk.injEq] at hsame
    obtain ⟨rfl, rfl⟩ := hsame
    obtain ⟨hvalue, hbounds⟩ := Json.asInt64?_eq_some_iff.mp hm
    rw [← hvalue]
    exact ⟨get?_eq_some_iff.mp hfound, hbounds⟩
  · intro ⟨hdecides, hbounds⟩
    refine ⟨⟨.int n, source⟩, get?_eq_some_iff.mpr hdecides, ?_⟩
    rw [Json.asInt64?_eq_some_iff.mpr ⟨rfl, hbounds⟩]
    rfl

theorem milliseconds_configuredOr (config : ConfigLayers) (key : String) (default : Nat) :
    ConfiguredOr config key default (milliseconds config key default) := by
  unfold milliseconds
  split
  · rename_i found hfound
    obtain ⟨hdecides, -, hhigh⟩ := integer?_eq_some_iff.mp hfound
    by_cases hsign : 0 ≤ found.value
    · rw [if_pos hsign]
      apply ConfiguredOr.configured _ found.source (by omega)
      rw [Json.nat, Int.toNat_of_nonneg hsign]
      exact hdecides
    · rw [if_neg hsign]
      apply ConfiguredOr.byDefault
      intro n hn source hnat
      have hagain := integer?_eq_some_iff.mpr ⟨hnat, by omega, by omega⟩
      rw [hfound, Option.some_inj] at hagain
      rw [hagain] at hsign
      exact hsign (Int.natCast_nonneg n)
  · rename_i hnone
    apply ConfiguredOr.byDefault
    intro n hn source hnat
    have hsome := integer?_eq_some_iff.mpr ⟨hnat, by omega, by omega⟩
    rw [hnone] at hsome
    cases hsome

theorem one_le_compileSlots {host : Host} (hcpus : 1 ≤ host.cpus) :
    1 ≤ compileSlots host config := by
  unfold compileSlots
  split
  · omega
  · split
    · split
      · omega
      · exact hcpus
    · exact hcpus

theorem one_le_preprocessSlots {host : Host} (hcpus : 1 ≤ host.cpus) :
    1 ≤ preprocessSlots host config := by
  unfold preprocessSlots
  split
  · omega
  · omega

/-- The settings of a stack that a client can work with, whatever the layers hold. -/
structure Sound (config : ConfigLayers) (client : ClientConfig) : Prop where
  compileSlots : 1 ≤ client.slots.compile
  preprocessSlots : 1 ≤ client.slots.preprocess
  schedulerConnectTimeout : ConfiguredOr config "scheduler-connect-timeout"
    defaultSchedulerConnectTimeout client.schedulerConnectTimeout
  acquireWorkerTimeout : ConfiguredOr config "acquired-slave-timeout"
    defaultAcquireWorkerTimeout client.acquireWorkerTimeout
  workerConnectTimeout : ConfiguredOr config "slave-connect-timeout"
    defaultWorkerConnectTimeout client.workerConnectTimeout
  uploadTimeout : ConfiguredOr config "upload-job-timeout"
    defaultUploadTimeout client.uploadTimeout
  responseTimeout : ConfiguredOr config "response-timeout"
    defaultResponseTimeout client.responseTimeout

theorem sound_ofLayers {host : Host} (hcpus : 1 ≤ host.cpus) (config : ConfigLayers) :
    Sound config (ofLayers host config) where
  compileSlots := one_le_compileSlots hcpus
  preprocessSlots := one_le_preprocessSlots hcpus
  schedulerConnectTimeout := milliseconds_configuredOr config _ _
  acquireWorkerTimeout := milliseconds_configuredOr config _ _
  workerConnectTimeout := milliseconds_configuredOr config _ _
  uploadTimeout := milliseconds_configuredOr config _ _
  responseTimeout := milliseconds_configuredOr config _ _

end Sound

/-- Every stack has a flattening, and no question and no setting tells the stack from it. What decides
a key is read alone, so that a value of the wrong type hides the layers below. On a host with a
processor the settings are sound. -/
theorem layers_eq_flattening (host : Host) (hcpus : 1 ≤ host.cpus) (config : ConfigLayers) :
    Flattens config.flattening config ∧
      (∀ fields, Flattens fields config → ∀ source,
        AnswersAlike (single source fields) config ∧
          ofLayers host (single source fields) = ofLayers host config) ∧
      (∀ key v source, config.Decides key v source → DecidedAlone config key v source) ∧
      Sound config (ofLayers host config) := by
  refine ⟨flattens_flattening config, fun fields hflattens source => ?_, fun key v source h => ?_,
    sound_ofLayers hcpus config⟩
  · have halike := (hflattens.sameValues source).answersAlike
    exact ⟨halike, ofLayers_eq halike host⟩
  · exact h.decidedAlone

/-- A user's slots that are not a number hide the system's, and the system's name shows through a
`null`. -/
theorem layers_eq_flattening_hidden :
    let host : Host := ⟨4, "builder", none⟩
    let config : ConfigLayers := ⟨[
      ⟨.file "user", [("slots", .string "many"), ("name", .null)]⟩,
      ⟨.file "system", [("slots", .nat 8), ("name", .string "ci")]⟩]⟩
    ofLayers host (single .cli config.flattening) = ofLayers host config ∧
      config.integer? "slots" = none ∧ config.string? "name" = some ⟨"ci", .file "system"⟩ := by
  intro host config
  obtain ⟨hflattens, hsame, halone, -⟩ := layers_eq_flattening host (by decide) config
  have hslots : config.Decides "slots" (.string "many") (.file "user") :=
    ⟨[], _, _, rfl, rfl, rfl, by simp, by simp⟩
  have hname : config.Decides "name" (.string "ci") (.file "system") :=
    ⟨[⟨.file "user", [("slots", .string "many"), ("name", .null)]⟩], _, [], rfl, rfl, rfl, by simp,
      by simp [Json.Fields.get?]⟩
  exact ⟨(hsame _ hflattens .cli).2, (halone _ _ _ hslots).integer?, (halone _ _ _ hname).string?⟩

end ClientConfig

end Offload
