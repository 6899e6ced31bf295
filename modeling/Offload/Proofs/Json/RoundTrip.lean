import Offload.Proofs.Json.Spelling

/-!
# A written value reads back

The compact text of a value is read as that value, up to the order of fields: the reader sorts the
fields of an object and keeps the last of those with one key. The law covers values whose numbers are
integers of 64 bits and that are nested no deeper than the reader allows.
-/

namespace Offload.Json

open Numeric

/-! ## What the reader makes of a value -/

mutual

/-- The value with the fields of every object in it sorted. -/
def canonical : Json → Json
  | .null => .null
  | .bool b => .bool b
  | .number n => .number n
  | .string s => .string s
  | .array items => .array (canonicalItems items)
  | .object fields => .object (Fields.sorted (canonicalFields fields))

/-- The items in canonical form. -/
def canonicalItems : List Json → List Json
  | [] => []
  | v :: rest => canonical v :: canonicalItems rest

/-- The fields with their values in canonical form, in the order they have. -/
def canonicalFields : List (String × Json) → Fields
  | [] => []
  | (k, v) :: rest => (k, canonical v) :: canonicalFields rest

end

mutual

/-- The numbers in a value are integers of 64 bits, signed or unsigned, and arrays and objects are
nested at most `depth` deep. -/
def Plain (depth : Nat) : Json → Prop
  | .null => True
  | .bool _ => True
  | .number (.int n) => -9223372036854775808 ≤ n ∧ n ≤ 18446744073709551615
  | .number (.float _) => False
  | .string _ => True
  | .array items => 0 < depth ∧ PlainItems (depth - 1) items
  | .object fields => 0 < depth ∧ PlainFields (depth - 1) fields

/-- Every item is plain. -/
def PlainItems (depth : Nat) : List Json → Prop
  | [] => True
  | v :: rest => Plain depth v ∧ PlainItems depth rest

/-- Every field holds a plain value. -/
def PlainFields (depth : Nat) : List (String × Json) → Prop
  | [] => True
  | (_, v) :: rest => Plain depth v ∧ PlainFields depth rest

end

theorem canonicalItems_eq_map (items : List Json) : canonicalItems items = items.map canonical := by
  induction items with
  | nil => rfl
  | cons v rest ih => rw [canonicalItems, ih, List.map_cons]

theorem plainItems_iff (depth : Nat) (items : List Json) :
    PlainItems depth items ↔ ∀ v ∈ items, Plain depth v := by
  induction items with
  | nil => simp [PlainItems]
  | cons v rest ih => rw [PlainItems, ih, List.forall_mem_cons]

theorem canonicalFields_eq_map (fields : Fields) :
    canonicalFields fields = fields.map fun f => (f.1, f.2.canonical) := by
  induction fields with
  | nil => rfl
  | cons f fields ih => rw [canonicalFields, ih, List.map_cons]

/-! ## One step of the reader -/

theorem skipSpace_cons {c : Char} (h : isSpace c = false) (s : List Char) :
    skipSpace (c :: s) = c :: s := by
  rw [skipSpace, List.dropWhile_cons, h, if_neg Bool.false_ne_true]

theorem isSpace_of_isDigit {c : Char} (h : c.isDigit = true) : isSpace c = false := by
  rw [Bool.eq_false_iff]
  intro hspace
  simp only [isSpace, Bool.or_eq_true, beq_iff_eq] at hspace
  rcases hspace with ((rfl | rfl) | rfl) | rfl <;> exact absurd h (by decide)

/-- A digit or a minus sign can only start a number. -/
theorem readTree_number (fuel : Nat) {c : Char} (h : c.isDigit = true ∨ c = '-') (s : List Char) :
    readTree (fuel + 1) (c :: s) = (readNumeral (c :: s)).map fun r => (.number r.1, r.2) := by
  have hspace : isSpace c = false := by
    rcases h with h | rfl
    · exact isSpace_of_isDigit h
    · decide
  -- so none of the characters that start another value
  have hne : ∀ d : Char, d.isDigit = false → d ≠ '-' → c ≠ d := by
    rintro d hd hminus rfl
    rcases h with h | h
    · rw [hd] at h
      exact absurd h Bool.false_ne_true
    · exact hminus h
  have hn := hne 'n' (by decide) (by decide)
  have ht := hne 't' (by decide) (by decide)
  have hf := hne 'f' (by decide) (by decide)
  have hquote := hne '"' (by decide) (by decide)
  have hbracket := hne '[' (by decide) (by decide)
  have hbrace := hne '\x7b' (by decide) (by decide)
  simp [readTree, skipSpace_cons hspace, hn, ht, hf, hquote, hbracket, hbrace]

theorem readTree_string (fuel : Nat) (s : List Char) :
    readTree (fuel + 1) ('"' :: s) = (readPieces s).map fun p => (.string p.1, p.2) := by
  rw [readTree, skipSpace_cons (by decide)]
  rfl

theorem readTree_array (fuel : Nat) {c : Char} (hspace : isSpace c = false) (hc : c ≠ ']')
    (s : List Char) :
    readTree (fuel + 1) ('[' :: c :: s) =
      (readItems fuel (c :: s)).map fun r => (.array r.1, r.2) := by
  simp [readTree, skipSpace_cons (show isSpace '[' = false by decide), skipSpace_cons hspace, hc]

theorem readTree_object (fuel : Nat) (s : List Char) :
    readTree (fuel + 1) ('\x7b' :: '"' :: s) =
      (readFields fuel ('"' :: s)).map fun r => (.object r.1, r.2) := by
  simp [readTree, skipSpace_cons (show isSpace '\x7b' = false by decide),
    skipSpace_cons (show isSpace '"' = false by decide)]

/-! ## Texts and their trees -/

/-- The text is read as the tree when nothing after it continues a numeral, and it cannot be taken for
the end of an array. -/
structure Reads (text : List Char) (tree : Tree) : Prop where
  starts : ∃ c s, text = c :: s ∧ isSpace c = false ∧ c ≠ ']'
  read : ∀ fuel rest, text.length ≤ fuel → Stops rest →
    readTree fuel (text ++ rest) = some (tree, rest)

/-- The text after an opening bracket is read as the items. -/
structure ReadsItems (text : List Char) (items : List Tree) : Prop where
  starts : ∃ c s, text = c :: s ∧ isSpace c = false ∧ c ≠ ']'
  read : ∀ fuel rest, text.length ≤ fuel → readItems fuel (text ++ rest) = some (items, rest)

/-- The text after an opening brace is read as the fields. -/
structure ReadsFields (text : List Char) (fields : List (List Piece × Tree)) : Prop where
  starts : ∃ s, text = '"' :: s
  read : ∀ fuel rest, text.length ≤ fuel → readFields fuel (text ++ rest) = some (fields, rest)

theorem stops_comma (s : List Char) : Stops (',' :: s) := stops_cons (by decide)

theorem stops_bracket (s : List Char) : Stops (']' :: s) := stops_cons (by decide)

theorem stops_brace (s : List Char) : Stops ('\x7d' :: s) := stops_cons (by decide)

/-- A text of fixed characters is read in one step. -/
theorem Reads.of_step {text : List Char} {tree : Tree}
    (starts : ∃ c s, text = c :: s ∧ isSpace c = false ∧ c ≠ ']')
    (h : ∀ fuel rest, readTree (fuel + 1) (text ++ rest) = some (tree, rest)) :
    Reads text tree := by
  refine ⟨starts, fun fuel rest hfuel _ => ?_⟩
  obtain ⟨c, s, rfl, -⟩ := starts
  cases fuel with
  | zero => simp at hfuel
  | succ fuel => exact h fuel rest

theorem Reads.number {n : Int} : Reads (intText n) (.number (numeralOf n)) := by
  -- an integer starts with its sign or with a digit
  have hcons : ∃ c s, intText n = c :: s ∧ (c.isDigit = true ∨ c = '-') := by
    unfold intText
    by_cases hn : n < 0
    · exact ⟨'-', decimalText n.natAbs, if_pos hn, Or.inr rfl⟩
    · obtain ⟨c, s, htext, hc⟩ := decimalText_cons n.natAbs
      exact ⟨c, s, by rw [if_neg hn, htext], Or.inl hc⟩
  obtain ⟨c, s, htext, hc⟩ := hcons
  refine ⟨⟨c, s, htext, ?_, ?_⟩, ?_⟩
  · rcases hc with hc | rfl
    · exact isSpace_of_isDigit hc
    · decide
  · rintro rfl
    rcases hc with hc | hc <;> exact absurd hc (by decide)
  · intro fuel rest hfuel hrest
    cases fuel with
    | zero => rw [htext] at hfuel; simp at hfuel
    | succ fuel =>
      have hread := readNumeral_intText n hrest
      rw [htext, List.cons_append] at hread ⊢
      rw [readTree_number fuel hc, hread, Option.map_some]

theorem Reads.string {s : String} {pieces : List Piece}
    (h : ∀ rest, readPieces (escape s.toList ++ '"' :: rest) = some (pieces, rest)) :
    Reads (quoted s) (.string pieces) := by
  refine ⟨⟨'"', _, rfl, by decide, by decide⟩, ?_⟩
  intro fuel rest hfuel _
  cases fuel with
  | zero => simp [quoted] at hfuel
  | succ fuel =>
    have hsplit : quoted s ++ rest = '"' :: (escape s.toList ++ '"' :: rest) := by simp [quoted]
    rw [hsplit, readTree_string, h, Option.map_some]

theorem Reads.array {text : List Char} {items : List Tree} (h : ReadsItems text items) :
    Reads ('[' :: text) (.array items) := by
  refine ⟨⟨'[', text, rfl, by decide, by decide⟩, ?_⟩
  intro fuel rest hfuel _
  cases fuel with
  | zero => simp at hfuel
  | succ fuel =>
    have hread := h.read fuel rest (by simpa using hfuel)
    obtain ⟨c, s, rfl, hspace, hc⟩ := h.starts
    rw [List.cons_append, List.cons_append] at *
    rw [readTree_array fuel hspace hc, hread, Option.map_some]

theorem Reads.object {text : List Char} {fields : List (List Piece × Tree)}
    (h : ReadsFields text fields) : Reads ('\x7b' :: text) (.object fields) := by
  refine ⟨⟨'\x7b', text, rfl, by decide, by decide⟩, ?_⟩
  intro fuel rest hfuel _
  cases fuel with
  | zero => simp at hfuel
  | succ fuel =>
    have hread := h.read fuel rest (by simpa using hfuel)
    obtain ⟨s, rfl⟩ := h.starts
    rw [List.cons_append, List.cons_append] at *
    rw [readTree_object fuel, hread, Option.map_some]

theorem ReadsItems.last {text : List Char} {tree : Tree} (h : Reads text tree) :
    ReadsItems (text ++ [']']) [tree] := by
  refine ⟨?_, ?_⟩
  · obtain ⟨c, s, rfl, hc⟩ := h.starts
    exact ⟨c, s ++ [']'], rfl, hc⟩
  · intro fuel rest hfuel
    rw [List.length_append, List.length_singleton] at hfuel
    cases fuel with
    | zero => omega
    | succ fuel =>
      have hread := h.read fuel (']' :: rest) (by omega) (stops_bracket rest)
      rw [List.append_assoc, List.singleton_append, readItems, hread]
      rfl

theorem ReadsItems.cons {text more : List Char} {tree : Tree} {items : List Tree}
    (h : Reads text tree) (hmore : ReadsItems more items) :
    ReadsItems (text ++ ',' :: more) (tree :: items) := by
  refine ⟨?_, ?_⟩
  · obtain ⟨c, s, rfl, hc⟩ := h.starts
    exact ⟨c, s ++ ',' :: more, rfl, hc⟩
  · intro fuel rest hfuel
    rw [List.length_append, List.length_cons] at hfuel
    cases fuel with
    | zero => omega
    | succ fuel =>
      have hread := h.read fuel (',' :: (more ++ rest)) (by omega) (stops_comma _)
      have hitems := hmore.read fuel rest (by omega)
      rw [List.append_assoc, List.cons_append, readItems, hread]
      simp [skipSpace_cons (show isSpace ',' = false by decide), hitems]

theorem ReadsFields.last {key text : List Char} {pieces : List Piece} {tree : Tree}
    (hkey : ∀ rest, readPieces (key ++ '"' :: rest) = some (pieces, rest)) (h : Reads text tree) :
    ReadsFields ('"' :: key ++ '"' :: ':' :: text ++ ['\x7d']) [(pieces, tree)] := by
  refine ⟨⟨key ++ '"' :: ':' :: text ++ ['\x7d'], by simp⟩, ?_⟩
  intro fuel rest hfuel
  simp only [List.length_append, List.length_cons, List.length_nil] at hfuel
  cases fuel with
  | zero => omega
  | succ fuel =>
    have hread := h.read fuel ('\x7d' :: rest) (by omega) (stops_brace rest)
    have hsplit : '"' :: key ++ '"' :: ':' :: text ++ ['\x7d'] ++ rest =
        '"' :: (key ++ '"' :: ':' :: (text ++ '\x7d' :: rest)) := by simp
    rw [hsplit, readFields, skipSpace_cons (by decide)]
    simp [hkey, skipSpace_cons (show isSpace ':' = false by decide), hread,
      skipSpace_cons (show isSpace '\x7d' = false by decide)]

theorem ReadsFields.cons {key text more : List Char} {pieces : List Piece} {tree : Tree}
    {fields : List (List Piece × Tree)}
    (hkey : ∀ rest, readPieces (key ++ '"' :: rest) = some (pieces, rest)) (h : Reads text tree)
    (hmore : ReadsFields more fields) :
    ReadsFields ('"' :: key ++ '"' :: ':' :: text ++ ',' :: more) ((pieces, tree) :: fields) := by
  refine ⟨⟨key ++ '"' :: ':' :: text ++ ',' :: more, by simp⟩, ?_⟩
  intro fuel rest hfuel
  simp only [List.length_append, List.length_cons] at hfuel
  cases fuel with
  | zero => omega
  | succ fuel =>
    have hread := h.read fuel (',' :: (more ++ rest)) (by omega) (stops_comma _)
    have hfields := hmore.read fuel rest (by omega)
    have hsplit : '"' :: key ++ '"' :: ':' :: text ++ ',' :: more ++ rest =
        '"' :: (key ++ '"' :: ':' :: (text ++ ',' :: (more ++ rest))) := by simp
    rw [hsplit, readFields, skipSpace_cons (by decide)]
    simp [hkey, skipSpace_cons (show isSpace ':' = false by decide), hread,
      skipSpace_cons (show isSpace ',' = false by decide), hfields]

/-! ## Every plain value -/

mutual

/-- The text of a plain value is read as a tree that has the canonical value. -/
theorem reads_chars (depth : Nat) : ∀ v, Plain depth v →
    ∃ tree, Reads (chars v) tree ∧ tree.value? depth = some v.canonical
  | .null, _ => by
    refine ⟨.null, Reads.of_step ⟨'n', _, rfl, by decide, by decide⟩ ?_, rfl⟩
    intro fuel rest
    rfl
  | .bool true, _ => by
    refine ⟨.bool true, Reads.of_step ⟨'t', _, rfl, by decide, by decide⟩ ?_, rfl⟩
    intro fuel rest
    rfl
  | .bool false, _ => by
    refine ⟨.bool false, Reads.of_step ⟨'f', _, rfl, by decide, by decide⟩ ?_, rfl⟩
    intro fuel rest
    rfl
  | .number (.int n), h => by
    rw [Plain] at h
    refine ⟨.number (numeralOf n), Reads.number, ?_⟩
    rw [Tree.value?, numeralOf_value? h.1 h.2, Option.map_some, canonical]
  | .number (.float _), h => by
    rw [Plain] at h
    exact h.elim
  | .string s, _ => by
    obtain ⟨pieces, htext, hread⟩ := readPieces_escape s.toList
    refine ⟨.string pieces, Reads.string hread, ?_⟩
    rw [Tree.value?, htext, Option.map_some, String.ofList_toList, canonical]
  | .array [], h => by
    rw [Plain] at h
    refine ⟨.array [], Reads.of_step ⟨'[', _, rfl, by decide, by decide⟩ ?_, ?_⟩
    · intro fuel rest
      rfl
    · rw [Tree.value?, if_neg (by omega)]
      rfl
  | .array (v :: items), h => by
    rw [Plain] at h
    obtain ⟨trees, hreads, hvalues⟩ :=
      reads_charsOfItems (depth - 1) (v :: items) (List.cons_ne_nil _ _) h.2
    refine ⟨.array trees, Reads.array hreads, ?_⟩
    rw [Tree.value?, if_neg (by omega), hvalues]
    rfl
  | .object [], h => by
    rw [Plain] at h
    refine ⟨.object [], Reads.of_step ⟨'\x7b', _, rfl, by decide, by decide⟩ ?_, ?_⟩
    · intro fuel rest
      rfl
    · rw [Tree.value?, if_neg (by omega)]
      rfl
  | .object ((k, v) :: fields), h => by
    rw [Plain] at h
    obtain ⟨trees, hreads, hvalues⟩ :=
      reads_charsOfFields (depth - 1) ((k, v) :: fields) (List.cons_ne_nil _ _) h.2
    refine ⟨.object trees, Reads.object hreads, ?_⟩
    rw [Tree.value?, if_neg (by omega), hvalues]
    rfl

theorem reads_charsOfItems (depth : Nat) : ∀ items, items ≠ [] → PlainItems depth items →
    ∃ trees, ReadsItems (charsOfItems items) trees ∧
      valuesOfItems? depth trees = some (canonicalItems items)
  | [], hne, _ => absurd rfl hne
  | [v], _, h => by
    rw [PlainItems] at h
    obtain ⟨tree, hreads, hvalue⟩ := reads_chars depth v h.1
    refine ⟨[tree], ReadsItems.last hreads, ?_⟩
    simp [valuesOfItems?, hvalue, canonicalItems]
  | v :: w :: items, _, h => by
    rw [PlainItems] at h
    obtain ⟨tree, hreads, hvalue⟩ := reads_chars depth v h.1
    obtain ⟨trees, hitems, hvalues⟩ := reads_charsOfItems depth (w :: items) (List.cons_ne_nil _ _) h.2
    refine ⟨tree :: trees, ReadsItems.cons hreads hitems, ?_⟩
    rw [valuesOfItems?, hvalue, hvalues]
    rfl

theorem reads_charsOfFields (depth : Nat) : ∀ fields, fields ≠ [] → PlainFields depth fields →
    ∃ trees, ReadsFields (charsOfFields fields) trees ∧
      valuesOfFields? depth trees = some (canonicalFields fields)
  | [], hne, _ => absurd rfl hne
  | [(k, v)], _, h => by
    rw [PlainFields] at h
    obtain ⟨tree, hreads, hvalue⟩ := reads_chars depth v h.1
    obtain ⟨pieces, htext, hkey⟩ := readPieces_escape k.toList
    refine ⟨[(pieces, tree)], ?_, ?_⟩
    · have hlast := ReadsFields.last hkey hreads
      simpa [charsOfFields, quoted] using hlast
    · simp [valuesOfFields?, htext, hvalue, canonicalFields]
  | (k, v) :: f :: fields, _, h => by
    rw [PlainFields] at h
    obtain ⟨tree, hreads, hvalue⟩ := reads_chars depth v h.1
    obtain ⟨pieces, htext, hkey⟩ := readPieces_escape k.toList
    obtain ⟨trees, hfields, hvalues⟩ :=
      reads_charsOfFields depth (f :: fields) (List.cons_ne_nil _ _) h.2
    refine ⟨(pieces, tree) :: trees, ?_, ?_⟩
    · have hcons := ReadsFields.cons hkey hreads hfields
      simpa [charsOfFields, quoted] using hcons
    · rw [valuesOfFields?, htext, hvalue, hvalues]
      simp [canonicalFields]

end

theorem Reads.ofChars? {text : List Char} {tree : Tree} (h : Reads text tree) :
    Tree.ofChars? text = some tree := by
  have hread := h.read (text.length + 1) [] (Nat.le_succ _) stops_nil
  rw [List.append_nil] at hread
  unfold Tree.ofChars?
  rw [hread]
  rfl

/-- A plain value that is written and read again is the canonical form of that value. -/
theorem parse?_render {v : Json} (h : Plain maxDepth v) : parse? v.render = some v.canonical := by
  obtain ⟨tree, hreads, hvalue⟩ := reads_chars maxDepth v h
  unfold parse? render
  rw [String.toList_ofList, hreads.ofChars?]
  exact hvalue

/-! ## Looking up a field -/

theorem Fields.get?_cons (k : String) (v : Json) (fields : Fields) (key : String) :
    Fields.get? ((k, v) :: fields) key = if k = key then some v else Fields.get? fields key := by
  unfold Fields.get?
  by_cases h : k = key <;> simp [h]

theorem Fields.get?_append (before after : Fields) (key : String) :
    Fields.get? (before ++ after) key = (Fields.get? before key).or (Fields.get? after key) := by
  unfold Fields.get?
  rw [List.find?_append]
  cases before.find? fun f => f.1 == key <;> rfl

theorem Fields.get?_insert (k : String) (v : Json) (fields : Fields) (key : String) :
    Fields.get? (Fields.insert k v fields) key =
      if k = key then some v else Fields.get? fields key := by
  induction fields with
  | nil => rw [Fields.insert, Fields.get?_cons]
  | cons f fields ih =>
    obtain ⟨k', v'⟩ := f
    rw [Fields.insert, Fields.get?_cons]
    by_cases hlt : k < k'
    · rw [if_pos hlt, Fields.get?_cons, Fields.get?_cons]
    · rw [if_neg hlt]
      by_cases heq : k = k'
      · rw [if_pos heq, Fields.get?_cons, heq]
        by_cases hkey : k' = key
        · rw [if_pos hkey, if_pos hkey]
        · rw [if_neg hkey, if_neg hkey, if_neg hkey]
      · rw [if_neg heq, Fields.get?_cons, ih]
        by_cases hkey : k = key
        · rw [if_pos hkey, if_pos hkey, if_neg (fun h => heq (hkey.trans h.symm))]
        · rw [if_neg hkey, if_neg hkey]

/-- Of the fields with one key, the sorted list has the last. -/
theorem Fields.get?_sorted (fields : Fields) (key : String) :
    Fields.get? (Fields.sorted fields) key = Fields.get? fields.reverse key := by
  -- what is inserted later hides what was there before
  have hfold : ∀ (fields acc : Fields),
      Fields.get? (fields.foldl (fun acc f => Fields.insert f.1 f.2 acc) acc) key =
        (Fields.get? fields.reverse key).or (Fields.get? acc key) := by
    intro fields
    induction fields with
    | nil => intro acc; rfl
    | cons f fields ih =>
      intro acc
      obtain ⟨k, v⟩ := f
      rw [List.foldl_cons, ih, Fields.get?_insert, List.reverse_cons, Fields.get?_append,
        Fields.get?_cons]
      cases Fields.get? fields.reverse key with
      | some w => rfl
      | none =>
        by_cases hkey : k = key
        · rw [if_pos hkey, if_pos hkey]
          rfl
        · rw [if_neg hkey, if_neg hkey]
          rfl
  have h := hfold fields []
  rwa [show Fields.get? [] key = none from rfl, Option.or_none] at h

/-- The fields of an object that was written and read again. -/
def received (fields : Fields) : Fields := Fields.sorted (canonicalFields fields)

theorem parse?_render_object {fields : Fields} (h : Plain maxDepth (.object fields)) :
    parse? (Json.object fields).render = some (.object (received fields)) := by
  rw [parse?_render h, canonical]
  rfl

/-- A received object holds under a key the last value that was written for it. -/
theorem get?_received (fields : Fields) (key : String) :
    Fields.get? (received fields) key = (Fields.get? fields.reverse key).map canonical := by
  rw [received, Fields.get?_sorted, canonicalFields_eq_map, ← List.map_reverse]
  unfold Fields.get?
  rw [List.find?_map, Option.map_map, Option.map_map]
  rfl

end Offload.Json
