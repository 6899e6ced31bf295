import Mathlib.Data.List.Basic
import Offload.Json.Printer
import Offload.Json.Reader

/-!
# Numbers and strings read back

The reader meets the decimal text of an integer and the escaped text of a string inside a longer
text. A numeral has to be followed by a character that cannot continue it; a string ends at its
quote whatever follows.
-/

namespace Offload.Json

open Numeric

/-! ## Decimal digits -/

/-- `digitsFrom` puts the digits of `n` before those it is given, so folding them all comes to folding
the given ones from `n` on. -/
theorem foldl_digitsFrom (fuel n : Nat) (tail : List Nat) (h : n < fuel) :
    (digitsFrom fuel n tail).foldl (fun n d => 10 * n + d) 0 =
      tail.foldl (fun n d => 10 * n + d) n := by
  induction fuel generalizing n tail with
  | zero => omega
  | succ fuel ih =>
    unfold digitsFrom
    by_cases h10 : n < 10
    · rw [if_pos h10, List.foldl_cons, Nat.mul_zero, Nat.zero_add]
    · rw [if_neg h10, ih (n / 10) _ (by omega), List.foldl_cons]
      have hn : 10 * (n / 10) + n % 10 = n := Nat.div_add_mod n 10
      rw [hn]

theorem digitsFrom_lt_ten (fuel n : Nat) (tail : List Nat) (h : n < fuel)
    (htail : ∀ d ∈ tail, d < 10) : ∀ d ∈ digitsFrom fuel n tail, d < 10 := by
  induction fuel generalizing n tail with
  | zero => omega
  | succ fuel ih =>
    unfold digitsFrom
    by_cases h10 : n < 10
    · rw [if_pos h10]
      intro d hd
      rcases List.mem_cons.1 hd with rfl | hd
      · exact h10
      · exact htail d hd
    · rw [if_neg h10]
      apply ih (n / 10) _ (by omega)
      intro d hd
      rcases List.mem_cons.1 hd with rfl | hd
      · exact Nat.mod_lt n (by omega)
      · exact htail d hd

/-- The first digit of a positive number is not zero. -/
theorem digitsFrom_head (fuel n : Nat) (tail : List Nat) (h : n < fuel) (hn : 0 < n) :
    ∃ d ds, digitsFrom fuel n tail = d :: ds ∧ 0 < d := by
  induction fuel generalizing n tail with
  | zero => omega
  | succ fuel ih =>
    unfold digitsFrom
    by_cases h10 : n < 10
    · rw [if_pos h10]
      exact ⟨n, tail, rfl, hn⟩
    · rw [if_neg h10]
      exact ih (n / 10) _ (by omega) (by omega)

theorem natOfDigits_decimalDigits (n : Nat) : natOfDigits (decimalDigits n) = n :=
  foldl_digitsFrom (n + 1) n [] (Nat.lt_succ_self n)

theorem decimalDigits_lt_ten (n : Nat) : ∀ d ∈ decimalDigits n, d < 10 :=
  digitsFrom_lt_ten (n + 1) n [] (Nat.lt_succ_self n) (by simp)

/-- Decimal digits are a zero alone, or they start with another digit. -/
theorem decimalDigits_cases (n : Nat) :
    decimalDigits n = [0] ∨ ∃ d ds, decimalDigits n = d :: ds ∧ 0 < d := by
  rcases Nat.eq_zero_or_pos n with rfl | hn
  · exact Or.inl rfl
  · exact Or.inr (digitsFrom_head (n + 1) n [] (Nat.lt_succ_self n) hn)

theorem isDigit_ofNat {d : Nat} (h : d < 10) : (Char.ofNat (48 + d)).isDigit = true :=
  (by decide : ∀ d < 10, (Char.ofNat (48 + d)).isDigit = true) d h

theorem digitValue_ofNat {d : Nat} (h : d < 10) : digitValue (Char.ofNat (48 + d)) = d :=
  (by decide : ∀ d < 10, digitValue (Char.ofNat (48 + d)) = d) d h

/-! ## A significand of 64 bits -/

theorem le_foldl_digits (n : Nat) (ds : List Nat) :
    n ≤ ds.foldl (fun n d => 10 * n + d) n := by
  induction ds generalizing n with
  | nil => exact Nat.le_refl n
  | cons d ds ih =>
    have h := ih (10 * n + d)
    rw [List.foldl_cons]
    omega

/-- Nothing is left over of a number that has 64 bits. -/
theorem absorb_of_le (n : Nat) (ds : List Nat)
    (h : ds.foldl (fun n d => 10 * n + d) n ≤ maxSignificand) :
    absorb n ds = (ds.foldl (fun n d => 10 * n + d) n, 0) := by
  induction ds generalizing n with
  | nil => rfl
  | cons d ds ih =>
    rw [List.foldl_cons] at h
    have hd : 10 * n + d ≤ maxSignificand := Nat.le_trans (le_foldl_digits _ ds) h
    rw [absorb, if_pos hd, ih _ h, List.foldl_cons]

theorem absorb_decimalDigits {n : Nat} (h : n ≤ maxSignificand) :
    absorb 0 (decimalDigits n) = (n, 0) := by
  have hn : (decimalDigits n).foldl (fun n d => 10 * n + d) 0 = n := natOfDigits_decimalDigits n
  rw [absorb_of_le 0 _ (by rw [hn]; exact h), hn]

/-! ## Numerals -/

/-- What follows a numeral does not continue it. -/
def Stops (rest : List Char) : Prop :=
  ∀ c s, rest = c :: s → c.isDigit = false ∧ c ≠ '.' ∧ c ≠ 'e' ∧ c ≠ 'E'

theorem stops_nil : Stops [] := by
  intro c s h
  cases h

theorem stops_cons {c : Char} {s : List Char}
    (h : c.isDigit = false ∧ c ≠ '.' ∧ c ≠ 'e' ∧ c ≠ 'E') : Stops (c :: s) := by
  intro c' s' h'
  cases h'
  exact h

theorem takeDigits_append {ds : List Nat} {rest : List Char} (h : ∀ d ∈ ds, d < 10)
    (hrest : Stops rest) :
    takeDigits (ds.map (fun d => Char.ofNat (48 + d)) ++ rest) = (ds, rest) := by
  have hdigits : ∀ c ∈ ds.map (fun d => Char.ofNat (48 + d)), c.isDigit = true := by
    intro c hc
    obtain ⟨d, hd, rfl⟩ := List.mem_map.1 hc
    exact isDigit_ofNat (h d hd)
  have htake : rest.takeWhile Char.isDigit = [] := by
    cases rest with
    | nil => rfl
    | cons c s => rw [List.takeWhile_cons, (hrest c s rfl).1, if_neg Bool.false_ne_true]
  have hdrop : rest.dropWhile Char.isDigit = rest := by
    cases rest with
    | nil => rfl
    | cons c s => rw [List.dropWhile_cons, (hrest c s rfl).1, if_neg Bool.false_ne_true]
  have hvalues : (ds.map (fun d => Char.ofNat (48 + d))).map digitValue = ds := by
    rw [List.map_map]
    exact (List.map_congr_left fun d hd => digitValue_ofNat (h d hd)).trans (List.map_id ds)
  unfold takeDigits
  rw [List.takeWhile_append_of_pos hdigits, List.dropWhile_append_of_pos hdigits, htake, hdrop,
    List.append_nil, hvalues]

theorem readWhole_decimalText (n : Nat) {rest : List Char} (hrest : Stops rest) :
    readWhole (decimalText n ++ rest) = some (decimalDigits n, rest) := by
  have htake : takeDigits (decimalText n ++ rest) = (decimalDigits n, rest) :=
    takeDigits_append (decimalDigits_lt_ten n) hrest
  unfold readWhole readDigits
  rcases decimalDigits_cases n with h | ⟨d, ds, h, hd⟩
  · rw [htake, h]
    rfl
  · rw [htake, h]
    cases d with
    | zero => omega
    | succ d => rfl

theorem readFraction_of_stops {rest : List Char} (hrest : Stops rest) :
    readFraction rest = some (none, rest) := by
  unfold readFraction
  split
  · next s => exact absurd rfl (hrest '.' s rfl).2.1
  · rfl

theorem readExponent_of_stops {rest : List Char} (hrest : Stops rest) :
    readExponent rest = some (none, rest) := by
  cases rest with
  | nil => rfl
  | cons c s =>
    have h := hrest c s rfl
    unfold readExponent
    exact if_neg (not_or.2 h.2.2)

theorem readUnsigned_decimalText (negative : Bool) (n : Nat) {rest : List Char}
    (hrest : Stops rest) :
    readUnsigned negative (decimalText n ++ rest) =
      some (⟨negative, decimalDigits n, none, none⟩, rest) := by
  unfold readUnsigned
  simp only [readWhole_decimalText n hrest, readFraction_of_stops hrest,
    readExponent_of_stops hrest, Option.bind_eq_bind, Option.bind_some, Option.pure_def]

/-- The text of a natural number starts with a digit. -/
theorem decimalText_cons (n : Nat) : ∃ c s, decimalText n = c :: s ∧ c.isDigit = true := by
  unfold decimalText
  have hlt := decimalDigits_lt_ten n
  rcases decimalDigits_cases n with h | ⟨d, ds, h, -⟩
  · exact ⟨'0', [], by rw [h]; rfl, by decide⟩
  · rw [h] at hlt ⊢
    exact ⟨_, _, rfl, isDigit_ofNat (hlt d List.mem_cons_self)⟩

/-- The numeral that an integer is written as. -/
def numeralOf (n : Int) : Numeral := ⟨decide (n < 0), decimalDigits n.natAbs, none, none⟩

theorem readNumeral_intText (n : Int) {rest : List Char} (hrest : Stops rest) :
    readNumeral (intText n ++ rest) = some (numeralOf n, rest) := by
  unfold intText numeralOf
  by_cases hn : n < 0
  · rw [if_pos hn, List.cons_append, readNumeral, decide_eq_true hn]
    exact readUnsigned_decimalText true n.natAbs hrest
  · rw [if_neg hn, decide_eq_false hn]
    -- a digit is no minus sign
    have hplain : readNumeral (decimalText n.natAbs ++ rest) =
        readUnsigned false (decimalText n.natAbs ++ rest) := by
      obtain ⟨c, s, hcons, hdigit⟩ := decimalText_cons n.natAbs
      rw [hcons, List.cons_append]
      have hc : c ≠ '-' := by
        rintro rfl
        exact absurd hdigit (by decide)
      simp [readNumeral, hc]
    rw [hplain]
    exact readUnsigned_decimalText false n.natAbs hrest

/-- An integer of 64 bits, signed or unsigned, is read as an integer. -/
theorem numeralOf_value? {n : Int} (hlow : -9223372036854775808 ≤ n)
    (hhigh : n ≤ 18446744073709551615) : (numeralOf n).value? = some (.int n) := by
  have habsorb : absorb 0 (numeralOf n).whole = (n.natAbs, 0) :=
    absorb_decimalDigits (by unfold maxSignificand; omega)
  unfold Numeral.value?
  rw [habsorb]
  show (if !(numeralOf n).negative then _ else _) = _
  by_cases hn : n < 0
  · have hneg : (numeralOf n).negative = true := decide_eq_true hn
    rw [hneg, Bool.not_true, if_neg Bool.false_ne_true, if_pos (by omega)]
    have habs : -(n.natAbs : Int) = n := by omega
    rw [habs]
  · have hneg : (numeralOf n).negative = false := decide_eq_false hn
    rw [hneg, Bool.not_false, if_pos rfl]
    have habs : (n.natAbs : Int) = n := by omega
    rw [habs]

/-! ## Strings -/

/-- Whatever follows it in a string, the piece is the character `c`. -/
def Piece.StandsFor (p : Piece) (c : Char) : Prop :=
  ∀ rest, textOfPieces? (p :: rest) = (textOfPieces? rest).map (c :: ·)

theorem Piece.standsFor_char (c : Char) : (Piece.char c).StandsFor c := by
  intro rest
  rw [textOfPieces?]

/-- A unit below the surrogates is a character by itself. -/
theorem Piece.standsFor_unit {u : Nat} (h : u < 0xD800) :
    (Piece.unit u).StandsFor (Char.ofNat u) := by
  have hlead : isLeading u = false := by
    simp only [isLeading, Bool.and_eq_false_iff, decide_eq_false_iff_not]
    omega
  have htrail : isTrailing u = false := by
    simp only [isTrailing, Bool.and_eq_false_iff, decide_eq_false_iff_not]
    omega
  intro rest
  -- the reader looks at the next piece too, in case the two are a pair
  cases rest with
  | nil => simp [textOfPieces?, hlead, htrail]
  | cons q rest =>
    cases q with
    | char c => simp [textOfPieces?, hlead, htrail]
    | unit v => simp [textOfPieces?, hlead, htrail]

theorem hexValue?_hexDigit {n : Nat} (h : n < 16) : Text.hexValue? (Text.hexDigit n) = some n :=
  (by decide : ∀ n < 16, Text.hexValue? (Text.hexDigit n) = some n) n h

theorem readPieces_simpleEscape {letter c : Char} (hletter : letter ≠ 'u')
    (h : simpleEscape? letter = some c) (s : List Char) :
    readPieces ('\\' :: letter :: s) = (readPieces s).map fun r => (.char c :: r.1, r.2) := by
  rw [readPieces, h]
  · cases readPieces s <;> rfl
  · intro a b c d s' hu
    exact absurd hu hletter

theorem readPieces_control {n : Nat} (h : n < 256) (s : List Char) :
    readPieces ('\\' :: 'u' :: '0' :: '0' :: Text.hexDigit (n / 16) :: Text.hexDigit (n % 16) :: s) =
      (readPieces s).map fun r => (.unit n :: r.1, r.2) := by
  have hzero : Text.hexValue? '0' = some 0 := rfl
  have hunit : unitOfDigits? '0' '0' (Text.hexDigit (n / 16)) (Text.hexDigit (n % 16)) = some n := by
    unfold unitOfDigits?
    simp only [hzero, hexValue?_hexDigit (show n / 16 < 16 by omega),
      hexValue?_hexDigit (show n % 16 < 16 by omega), Option.bind_eq_bind, Option.bind_some,
      Option.pure_def, Option.some.injEq]
    omega
  rw [readPieces, hunit]
  cases readPieces s <;> rfl

theorem readPieces_plain {c : Char} (hquote : c ≠ '"') (hslash : c ≠ '\\') (h : 0x20 ≤ c.toNat)
    (s : List Char) :
    readPieces (c :: s) = (readPieces s).map fun r => (.char c :: r.1, r.2) := by
  have hc : ¬(c = '\\' ∨ c.toNat < 0x20) := not_or.2 ⟨hslash, by omega⟩
  rw [readPieces, if_neg hc]
  · cases readPieces s <;> rfl
  · intro hq
    exact absurd hq hquote
  · intro a b c' d s' hs
    exact absurd hs hslash
  · intro c' s' hs
    exact absurd hs hslash

/-- However the printer writes a character, the reader takes it as one piece that stands for it. -/
theorem readPieces_escapeChar (c : Char) :
    ∃ p : Piece, p.StandsFor c ∧
      ∀ s, readPieces (escapeChar c ++ s) = (readPieces s).map fun r => (p :: r.1, r.2) := by
  -- seven characters have a letter of their own
  have hletter : ∀ letter, letter ≠ 'u' → simpleEscape? letter = some c →
      escapeChar c = ['\\', letter] → ∃ p : Piece, p.StandsFor c ∧
        ∀ s, readPieces (escapeChar c ++ s) = (readPieces s).map fun r => (p :: r.1, r.2) := by
    intro letter hu hescape htext
    refine ⟨.char c, Piece.standsFor_char c, fun s => ?_⟩
    rw [htext]
    exact readPieces_simpleEscape hu hescape s
  by_cases hquote : c = '"'
  · exact hletter '"' (by decide) (by rw [hquote]; rfl) (by rw [hquote]; rfl)
  by_cases hslash : c = '\\'
  · exact hletter '\\' (by decide) (by rw [hslash]; rfl) (by rw [hslash]; rfl)
  by_cases hb : c = '\x08'
  · exact hletter 'b' (by decide) (by rw [hb]; rfl) (by rw [hb]; rfl)
  by_cases hf : c = '\x0c'
  · exact hletter 'f' (by decide) (by rw [hf]; rfl) (by rw [hf]; rfl)
  by_cases hn : c = '\n'
  · exact hletter 'n' (by decide) (by rw [hn]; rfl) (by rw [hn]; rfl)
  by_cases hr : c = '\r'
  · exact hletter 'r' (by decide) (by rw [hr]; rfl) (by rw [hr]; rfl)
  by_cases ht : c = '\t'
  · exact hletter 't' (by decide) (by rw [ht]; rfl) (by rw [ht]; rfl)
  unfold escapeChar
  rw [if_neg hquote, if_neg hslash, if_neg hb, if_neg hf, if_neg hn, if_neg hr, if_neg ht]
  by_cases hcontrol : c.toNat < 0x20
  · rw [if_pos hcontrol]
    refine ⟨.unit c.toNat, ?_, fun s => readPieces_control (by omega) s⟩
    have hc := Piece.standsFor_unit (show c.toNat < 0xD800 by omega)
    rwa [Char.ofNat_toNat] at hc
  · rw [if_neg hcontrol]
    exact ⟨.char c, Piece.standsFor_char c, fun s => readPieces_plain hquote hslash (by omega) s⟩

/-- An escaped text is read up to its quote, and its pieces are that text. -/
theorem readPieces_escape (text : List Char) :
    ∃ pieces, textOfPieces? pieces = some text ∧
      ∀ rest, readPieces (escape text ++ '"' :: rest) = some (pieces, rest) := by
  induction text with
  | nil => exact ⟨[], rfl, fun rest => by rw [escape, List.flatMap_nil, List.nil_append, readPieces]⟩
  | cons c text ih =>
    obtain ⟨pieces, htext, hread⟩ := ih
    obtain ⟨p, hp, hc⟩ := readPieces_escapeChar c
    refine ⟨p :: pieces, by rw [hp, htext, Option.map_some], fun rest => ?_⟩
    have hsplit : escape (c :: text) = escapeChar c ++ escape text := rfl
    rw [hsplit, List.append_assoc, hc, hread rest, Option.map_some]

end Offload.Json
