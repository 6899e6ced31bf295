import Mathlib.Data.List.Forall2
import Offload.Message.Basic
import Offload.Proofs.Json.Order

/-!
# The grammar of messages

What a text says to a peer, told without its reader. The grammar is a table: for each type of
message the keys that it may have and the type that the value of each must be of. A verdict goes
through what can be wrong with a text in a fixed order. A reader that follows its table gives for
each text the one verdict on it, and takes no notice of the order of keys or of keys that are not in
the table.
-/

namespace Offload.Message

open Json

/-! ## Types of values -/

/-- The value is a string. -/
def IsText (value : Json) : Prop := ∃ s, value = .string s

/-- The value is a truth value. -/
def IsFlag (value : Json) : Prop := ∃ b, value = .bool b

/-- The value is an integer that is not out of bounds. -/
def IsIntegerIn (low high : Int) (value : Json) : Prop := ∃ n, value = .int n ∧ low ≤ n ∧ n ≤ high

/-- The value is an array whose items are all of one type. -/
def IsArrayOf (type : Json → Prop) (value : Json) : Prop :=
  ∃ items, value = .array items ∧ ∀ item ∈ items, type item

/-- The value is an array with an item for each member of a list, in the order of the list. -/
def SpellsList {α : Type} (Spells : Json → α → Prop) (value : Json) (list : List α) : Prop :=
  ∃ items, value = .array items ∧ List.Forall₂ Spells items list

/-- A reader of values accepts those of a type, and each as what it spells. -/
structure Reads {α : Type} (type : Json → Prop) (Spells : Json → α → Prop)
    (read : Json → Option α) : Prop where
  some_iff : ∀ {value a}, read value = some a ↔ Spells value a
  type_iff : ∀ {value}, type value ↔ ∃ a, Spells value a

namespace Reads

theorem text : Reads IsText (fun value s => value = .string s) asString? where
  some_iff {value s} := by cases value <;> simp [asString?]
  type_iff := Iff.rfl

theorem flag : Reads IsFlag (fun value b => value = .bool b) asBool? where
  some_iff {value b} := by cases value <;> simp [asBool?]
  type_iff := Iff.rfl

theorem asIntIn?_eq_some_iff {low high n : Int} {value : Json} :
    value.asIntIn? low high = some n ↔ value = .int n ∧ low ≤ n ∧ n ≤ high := by
  rw [asIntIn?, Option.filter_eq_some_iff]
  rcases value with _ | _ | (_ | _) | _ | _ | _ <;> simp [asInt?, Json.int]

/-- Integers in bounds that are the numbers of a type of machine integers. -/
theorem integer {α : Type} {low high : Int} (ofInt : Int → α) {toInt : α → Int}
    (hofInt : ∀ a, ofInt (toInt a) = a)
    (htoInt : ∀ n, low ≤ n → n ≤ high → toInt (ofInt n) = n)
    (hbounds : ∀ a, low ≤ toInt a ∧ toInt a ≤ high) :
    Reads (IsIntegerIn low high) (fun value a => value = .int (toInt a))
      fun value => (value.asIntIn? low high).map ofInt where
  some_iff {value a} := by
    simp only [Option.map_eq_some_iff, asIntIn?_eq_some_iff]
    constructor
    · rintro ⟨n, ⟨rfl, hlow, hhigh⟩, rfl⟩
      rw [htoInt n hlow hhigh]
    · rintro rfl
      exact ⟨toInt a, ⟨rfl, hbounds a⟩, hofInt a⟩
  type_iff {value} := by
    constructor
    · rintro ⟨n, rfl, hlow, hhigh⟩
      exact ⟨ofInt n, by rw [htoInt n hlow hhigh]⟩
    · rintro ⟨a, rfl⟩
      exact ⟨toInt a, rfl, hbounds a⟩

theorem uint16 :
    Reads (IsIntegerIn 0 65535) (fun value (n : UInt16) => value = .int n.toNat) asUInt16? := by
  refine integer (fun n => UInt16.ofNat n.toNat) (fun n => ?_) (fun n hlow hhigh => ?_)
    fun n => ?_
  · simp
  · rw [UInt16.toNat_ofNat_of_lt' (by show _ < 65536; omega)]
    omega
  · have h := n.toNat_lt
    omega

theorem uint64 :
    Reads (IsIntegerIn 0 18446744073709551615) (fun value (n : UInt64) => value = .int n.toNat)
      asUInt64? := by
  refine integer (fun n => UInt64.ofNat n.toNat) (fun n => ?_) (fun n hlow hhigh => ?_)
    fun n => ?_
  · simp
  · rw [UInt64.toNat_ofNat_of_lt' (by show _ < 18446744073709551616; omega)]
    omega
  · have h := n.toNat_lt
    omega

theorem int32 :
    Reads (IsIntegerIn (-2147483648) 2147483647) (fun value (n : Int32) => value = .int n.toInt)
      asInt32? := by
  refine integer Int32.ofInt Int32.ofInt_toInt (fun n hlow hhigh => ?_) fun n => ?_
  · exact Int32.toInt_ofInt_of_le hlow (by omega)
  · have hlow := n.le_toInt
    have hhigh := n.toInt_lt
    omega

section

variable {α : Type} {type : Json → Prop} {Spells : Json → α → Prop} {read : Json → Option α}

/-- What the items of a list are read as stands in the order of the items. -/
theorem mapM_eq_some_iff (h : Reads type Spells read) {items : List Json} {list : List α} :
    items.mapM read = some list ↔ List.Forall₂ Spells items list := by
  induction items generalizing list with
  | nil => cases list <;> simp
  | cons item items ih =>
    cases list with
    | nil =>
      simp only [List.mapM_cons, List.forall₂_nil_right_iff, List.cons_ne_nil, iff_false]
      cases read item <;> cases items.mapM read <;> simp
    | cons a list =>
      simp only [List.mapM_cons, Option.pure_def, Option.bind_eq_bind, Option.bind_eq_some_iff,
        Option.some.injEq, List.cons.injEq, List.forall₂_cons]
      constructor
      · rintro ⟨b, hb, rest, hrest, rfl, rfl⟩
        exact ⟨h.some_iff.1 hb, ih.1 hrest⟩
      · rintro ⟨ha, hlist⟩
        exact ⟨a, h.some_iff.2 ha, list, ih.2 hlist, rfl, rfl⟩

/-- Items of one type spell a list. -/
theorem forall_type_iff (h : Reads type Spells read) {items : List Json} :
    (∀ item ∈ items, type item) ↔ ∃ list, List.Forall₂ Spells items list := by
  induction items with
  | nil => simp
  | cons item items ih =>
    rw [List.forall_mem_cons, ih, h.type_iff]
    constructor
    · rintro ⟨⟨a, ha⟩, list, hlist⟩
      exact ⟨a :: list, .cons ha hlist⟩
    · rintro ⟨_, _ | ⟨ha, hlist⟩⟩
      exact ⟨⟨_, ha⟩, _, hlist⟩

theorem listOf (h : Reads type Spells read) :
    Reads (IsArrayOf type) (SpellsList Spells) (asListOf? read) where
  some_iff {value list} := by
    unfold asListOf? SpellsList
    cases value <;> simp [asArray?, h.mapM_eq_some_iff]
  type_iff {value} := by
    unfold IsArrayOf SpellsList
    simp only [h.forall_type_iff]
    constructor
    · rintro ⟨items, rfl, list, hlist⟩
      exact ⟨list, items, rfl, hlist⟩
    · rintro ⟨list, items, rfl, hlist⟩
      exact ⟨items, rfl, list, hlist⟩

end

end Reads

/-! ## Fields -/

/-- What a field says that may be left out: its default, or else what its value spells. -/
inductive Given {α : Type} (fields : Fields) (key : String) (default : α)
    (Spells : Json → α → Prop) : α → Prop where
  | absent (h : Fields.get? fields key = none) : Given fields key default Spells default
  | present {value : Json} {a : α} (h : Fields.get? fields key = some value)
    (hspells : Spells value a) : Given fields key default Spells a

section

variable {α : Type} {type : Json → Prop} {Spells : Json → α → Prop} {read : Json → Option α}
  {fields fields' : Fields} {key : String} {default : α}

theorem optional_eq_some_iff (h : Reads type Spells read) {a : α} :
    optional fields key read default = some a ↔ Given fields key default Spells a := by
  unfold optional
  constructor
  · intro hread
    cases hkey : Fields.get? fields key with
    | none =>
      rw [hkey] at hread
      cases hread
      exact .absent hkey
    | some value =>
      rw [hkey] at hread
      exact .present hkey (h.some_iff.1 hread)
  · rintro (hkey | ⟨hkey, hspells⟩)
    · rw [hkey]
    · rw [hkey]
      exact h.some_iff.2 hspells

/-- A field says something if it is left out or of its type. -/
theorem typed_iff_given (h : Reads type Spells read) (default : α) :
    (∀ value, Fields.get? fields key = some value → type value) ↔
      ∃ a, Given fields key default Spells a := by
  constructor
  · intro htype
    cases hkey : Fields.get? fields key with
    | none => exact ⟨default, .absent hkey⟩
    | some value =>
      obtain ⟨a, ha⟩ := h.type_iff.1 (htype value hkey)
      exact ⟨a, .present hkey ha⟩
  · rintro ⟨_, hkey | ⟨hkey, hspells⟩⟩ value hvalue
    · rw [hkey] at hvalue
      cases hvalue
    · rw [hkey] at hvalue
      cases hvalue
      exact h.type_iff.2 ⟨_, hspells⟩

theorem optional_congr (h : Fields.get? fields key = Fields.get? fields' key) :
    optional fields key read default = optional fields' key read default := by
  rw [optional, optional, h]

end

/-- Of a text nothing but its value counts. -/
theorem tagged_congr {known : List String} {text text' : String} (h : parse? text = parse? text') :
    tagged known text = tagged known text' := by
  rw [tagged, tagged, h]

/-! ## Verdicts -/

/-- The keys that a message may have, each with the type of its value. -/
abbrev Shape := List (String × (Json → Prop))

/-- The types of messages. -/
abbrev Grammar := List (String × Shape)

/-- Every field that is there is of its type. -/
def Shape.Fits (shape : Shape) (fields : Fields) : Prop :=
  ∀ key type, (key, type) ∈ shape → ∀ value, Fields.get? fields key = some value → type value

namespace Shape

variable {key : String} {type : Json → Prop} {shape : Shape} {fields : Fields}

@[simp] theorem fits_nil : Fits [] fields := fun _ _ h => by cases h

@[simp] theorem fits_cons : Fits ((key, type) :: shape) fields ↔
    (∀ value, Fields.get? fields key = some value → type value) ∧ shape.Fits fields := by
  simp [Fits, or_imp, forall_and]

end Shape

/-- What is to be said of a text. `Says` tells what the fields of a message of a type mean. -/
inductive Verdict {α : Type} (grammar : Grammar) (Says : Fields → String → α → Prop)
    (text : String) : Except MessageError α → Prop where
  | notJson (h : parse? text = none) : Verdict grammar Says text (.error (.malformed .json))
  | notAnObject {value : Json} (h : parse? text = some value)
    (hobject : ∀ fields, value ≠ .object fields) :
    Verdict grammar Says text (.error (.malformed .notAnObject))
  /-- an error that is a string counts as it is -/
  | report {fields : Fields} {message : String} (h : parse? text = some (.object fields))
    (herror : Fields.get? fields "error" = some (.string message)) :
    Verdict grammar Says text (.error (.remote message))
  /-- of any other error the compact text counts -/
  | reportValue {fields : Fields} {value : Json} (h : parse? text = some (.object fields))
    (herror : Fields.get? fields "error" = some value) (hvalue : ¬ IsText value) :
    Verdict grammar Says text (.error (.remote value.render))
  | missingType {fields : Fields} (h : parse? text = some (.object fields))
    (herror : Fields.get? fields "error" = none)
    (htype : ∀ kind, Fields.get? fields "type" ≠ some (.string kind)) :
    Verdict grammar Says text (.error .missingType)
  | unknownType {fields : Fields} {kind : String} (h : parse? text = some (.object fields))
    (herror : Fields.get? fields "error" = none)
    (htype : Fields.get? fields "type" = some (.string kind))
    (hkind : kind ∉ grammar.map Prod.fst) :
    Verdict grammar Says text (.error (.unknownType kind))
  | misfit {fields : Fields} {kind : String} {shape : Shape}
    (h : parse? text = some (.object fields)) (herror : Fields.get? fields "error" = none)
    (htype : Fields.get? fields "type" = some (.string kind)) (hkind : (kind, shape) ∈ grammar)
    (hshape : ¬ shape.Fits fields) : Verdict grammar Says text (.error (.malformed .json))
  | accepted {fields : Fields} {kind : String} {shape : Shape} {message : α}
    (h : parse? text = some (.object fields)) (herror : Fields.get? fields "error" = none)
    (htype : Fields.get? fields "type" = some (.string kind)) (hkind : (kind, shape) ∈ grammar)
    (hshape : shape.Fits fields) (hmeans : Says fields kind message) :
    Verdict grammar Says text (.ok message)

/-- The key is one by which a message with these fields is read. -/
inductive Counts (grammar : Grammar) (fields : Fields) : String → Prop where
  | error : Counts grammar fields "error"
  | type : Counts grammar fields "type"
  | field {kind key : String} {shape : Shape} (htype : fields.last? "type" = some (.string kind))
    (hkind : (kind, shape) ∈ grammar) (hkey : key ∈ shape.map Prod.fst) : Counts grammar fields key

/-- A reader of fields that follows a grammar. -/
structure Follows {α : Type} (grammar : Grammar) (Says : Fields → String → α → Prop)
    (ofFields? : String → Fields → Option α) : Prop where
  /-- it reads from the fields what they say -/
  says_iff : ∀ {kind fields m}, ofFields? kind fields = some m ↔ Says fields kind m
  /-- fields of the right types say something -/
  fits_iff : ∀ {kind shape fields}, (kind, shape) ∈ grammar →
    (shape.Fits fields ↔ ∃ m, Says fields kind m)
  /-- it looks at no other keys -/
  congr : ∀ {kind shape fields fields'}, (kind, shape) ∈ grammar →
    (∀ key ∈ shape.map Prod.fst, Fields.get? fields key = Fields.get? fields' key) →
    ofFields? kind fields = ofFields? kind fields'

namespace Follows

variable {α : Type} {grammar : Grammar} {Says : Fields → String → α → Prop}
  {read : String → Fields → Option α}

/-- The fields of a type of the grammar are read, or they do not fit it. -/
theorem ofFields_cases (h : Follows grammar Says read) {kind : String} {shape : Shape}
    (hkind : (kind, shape) ∈ grammar) (fields : Fields) :
    (∃ m, shape.Fits fields ∧ Says fields kind m ∧ ofFields (read kind fields) = .ok m) ∨
      ¬ shape.Fits fields ∧ ofFields (read kind fields) = .error (.malformed .json) := by
  cases hread : read kind fields with
  | some m => exact .inl ⟨m, (h.fits_iff hkind).2 ⟨m, h.says_iff.1 hread⟩, h.says_iff.1 hread, rfl⟩
  | none =>
    refine .inr ⟨fun hfits => ?_, rfl⟩
    obtain ⟨m, hm⟩ := (h.fits_iff hkind).1 hfits
    rw [h.says_iff.2 hm] at hread
    cases hread

/-- Reading a text gives a verdict on it. -/
theorem verdict (h : Follows grammar Says read) (text : String) :
    Verdict grammar Says text
      ((tagged (grammar.map Prod.fst) text).bind fun p => ofFields (read p.1 p.2)) := by
  unfold tagged
  cases hparse : parse? text with
  | none => exact .notJson hparse
  | some value =>
    cases value with
    | object fields =>
      dsimp only
      cases herror : Fields.get? fields "error" with
      | some report =>
        cases report with
        | string message => exact .report hparse herror
        | _ => exact .reportValue hparse herror (by simp [IsText])
      | none =>
        by_cases hstring : ∃ kind, Fields.get? fields "type" = some (.string kind)
        · obtain ⟨kind, htype⟩ := hstring
          rw [htype]
          by_cases hkind : kind ∈ grammar.map Prod.fst
          · obtain ⟨⟨kind, shape⟩, hshape, rfl⟩ := List.mem_map.1 hkind
            dsimp only
            rw [if_pos hkind]
            show Verdict grammar Says text (ofFields (read kind fields))
            rcases h.ofFields_cases hshape fields with ⟨m, hfits, hmeans, hok⟩ | ⟨hmisfit, hbad⟩
            · rw [hok]
              exact .accepted hparse herror htype hshape hfits hmeans
            · rw [hbad]
              exact .misfit hparse herror htype hshape hmisfit
          · dsimp only
            rw [if_neg hkind]
            exact .unknownType hparse herror htype hkind
        · have htype := not_exists.1 hstring
          simp only
          exact .missingType hparse herror htype
    | _ => exact .notAnObject hparse (by simp)

/-- What reading a text gives is the verdict on it, of which there is only one. -/
theorem verdict_iff (h : Follows grammar Says read) {text : String}
    {result : Except MessageError α} :
    ((tagged (grammar.map Prod.fst) text).bind fun p => ofFields (read p.1 p.2)) = result ↔
      Verdict grammar Says text result := by
  constructor
  · rintro rfl
    exact h.verdict text
  · intro hverdict
    unfold tagged
    cases hverdict with
    | notJson hparse => rw [hparse]; rfl
    | @notAnObject value hparse hobject =>
      rw [hparse]
      cases value <;> first | rfl | exact absurd rfl (hobject _)
    | report hparse herror => simp only [hparse, herror]; rfl
    | @reportValue fields value hparse herror hvalue =>
      simp only [hparse, herror]
      cases value <;> first | rfl | exact absurd ⟨_, rfl⟩ hvalue
    | missingType hparse herror htype =>
      simp only [hparse, herror]
      rfl
    | unknownType hparse herror htype hkind =>
      simp only [hparse, herror, htype, if_neg hkind]
      rfl
    | @misfit fields kind shape hparse herror htype hkind hshape =>
      simp only [hparse, herror, htype]
      rw [if_pos (List.mem_map_of_mem hkind)]
      rcases h.ofFields_cases hkind fields with ⟨m, hfits, -⟩ | ⟨-, hbad⟩
      · exact absurd hfits hshape
      · exact hbad
    | accepted hparse herror htype hkind hshape hmeans =>
      simp only [hparse, herror, htype]
      rw [if_pos (List.mem_map_of_mem hkind)]
      show ofFields _ = _
      rw [h.says_iff.2 hmeans]
      rfl

/-- Two objects are read alike if they agree on the keys that count, whatever else stands in their
texts and in which order. -/
theorem congr_text (h : Follows grammar Says read) {text text' : String} {fields fields' : Fields}
    (hholds : HoldsFields text fields) (hholds' : HoldsFields text' fields')
    (hagree : ∀ key, Counts grammar fields key → fields.last? key = fields'.last? key) :
    ((tagged (grammar.map Prod.fst) text).bind fun p => ofFields (read p.1 p.2)) =
      (tagged (grammar.map Prod.fst) text').bind fun p => ofFields (read p.1 p.2) := by
  have hget : ∀ key, Counts grammar fields key →
      Fields.get? (Fields.sorted fields) key = Fields.get? (Fields.sorted fields') key := by
    intro key hkey
    rw [Fields.get?_sorted, Fields.get?_sorted]
    exact hagree key hkey
  unfold tagged
  rw [hholds.parse?_eq, hholds'.parse?_eq]
  dsimp only
  rw [← hget "error" .error, ← hget "type" .type]
  split
  · rfl
  · split
    next kind htype =>
      split
      next hkind =>
        obtain ⟨⟨kind, shape⟩, hshape, rfl⟩ := List.mem_map.1 hkind
        rw [Fields.get?_sorted] at htype
        have hread := h.congr hshape fun key hkey => hget key (.field htype hshape hkey)
        exact congrArg ofFields hread
      next => rfl
    next => rfl

end Follows

end Offload.Message
