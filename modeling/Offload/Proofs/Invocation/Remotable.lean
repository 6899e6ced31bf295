import Offload.Proofs.Invocation.Preprocessing
import Mathlib.Data.List.Induction
import Mathlib.Data.List.Nodup
import Mathlib.Data.List.Perm.Basic

/-!
# Which command lines a worker can compile

Whether a command line can be compiled by a worker is decided by its tokens (`Remotable`): no response
file, no option without its value, `-c` and no stronger stop option, nothing from the standard input,
and one operand with a language that a worker takes. Where no option names a language, the order of the
tokens does not matter (`remotable_by_tokens`).

The reading of a command line is followed token by token: what it knows of sources after some tokens is
said by these tokens alone (`Reading.Sourced`), and one more token keeps that.
-/

namespace Offload

namespace Invocation

/-! ## What the tokens of a command line show -/

/-- What the strongest stop option asks for: `-E`, `-M` and `-MM` are stronger than `-S`, and that is
stronger than `-c`. -/
def strongestStop (tokens : List ArgToken) : InvocationMode :=
  if .single "-E" ∈ tokens ∨ .single "-M" ∈ tokens ∨ .single "-MM" ∈ tokens then .preprocess
  else if .single "-S" ∈ tokens then .assemble
  else if .single "-c" ∈ tokens then .compile
  else .link

/-- The language of an operand after some tokens: the last language option names it. The extension
tells it if there is no such option, or if the last one says `none`. -/
def operandLanguage? (before : List ArgToken) (arg : String) : Option Language :=
  match (before.filterMap ArgToken.languageOption?).getLast? with
  | some value => if value = "none" then Language.ofPath? arg else Language.ofOption? value
  | none => Language.ofPath? arg

/-- The source file at a position: an operand that has a language there. -/
def sourceAt? (tokens : List ArgToken) (i : Nat) : Option SourceFile :=
  (tokens[i]?.bind ArgToken.operand?).bind fun arg =>
    (operandLanguage? (tokens.take i) arg).map (⟨arg, ·⟩)

/-- Exactly one operand has a language, which makes it this source file. -/
def OnlySource (tokens : List ArgToken) (source : SourceFile) : Prop :=
  ∃ i, sourceAt? tokens i = some source ∧ ∀ j, j ≠ i → sourceAt? tokens j = none

/-- Tokens of a command line that a worker can compile. -/
structure Remotable (tokens : List ArgToken) : Prop where
  plain : ∀ t ∈ tokens, t.isResponseFile = false
  complete : ∀ t ∈ tokens, t.isDangling = false
  compiles : strongestStop tokens = .compile
  fromFiles : .single "-" ∉ tokens
  source : ∃ source, OnlySource tokens source ∧
    source.language ∈ [Language.c, Language.cxx, Language.objC, Language.objCxx]

/-! ## The strongest stop -/

/-- The mode that a rank stands for. -/
def modeOfRank (rank : Nat) : InvocationMode :=
  if 3 ≤ rank then .preprocess
  else if 2 ≤ rank then .assemble
  else if 1 ≤ rank then .compile
  else .link

namespace Reading

variable (r : Reading) (m : ArgMeaning) (t : ArgToken) (tokens : List ArgToken)

/-- A rank is reached if it was reached before, or a stop reaches it. -/
theorem le_rank_foldl_iff (k : Nat) :
    k ≤ (tokens.foldl token r).rank ↔ k ≤ r.rank ∨ ∃ t ∈ tokens, k ≤ t.meaning.rank := by
  induction tokens generalizing r with
  | nil => simp
  | cons t rest ih =>
    have hmax : k ≤ max r.rank t.meaning.rank ↔ k ≤ r.rank ∨ k ≤ t.meaning.rank := by omega
    rw [List.foldl_cons, ih, token_eq_note, rank_note, hmax, List.exists_mem_cons_iff, or_assoc]

variable {r t}

theorem mode_token (h : r.mode = modeOfRank r.rank) :
    (r.token t).mode = modeOfRank (r.token t).rank := by
  rw [token_eq_note]
  cases hm : t.meaning with
  | stop rank mode =>
    have hmode : ∀ option ∈ stopOptions, option.2.2 = modeOfRank option.2.1 := by decide
    obtain ⟨arg, -, harg⟩ := ArgToken.meaning_eq_stop_iff.mp hm
    unfold note
    dsimp only
    split
    · exact hmode _ harg
    · exact h
  | operand arg =>
    rw [note, operand_eq]
    exact h
  | _ => exact h

theorem mode_foldl (h : r.mode = modeOfRank r.rank) :
    (tokens.foldl token r).mode = modeOfRank (tokens.foldl token r).rank := by
  induction tokens generalizing r with
  | nil => exact h
  | cons t rest ih => exact ih (mode_token h)

end Reading

/-! ## Sources and their languages -/

/-- A reading after some tokens: which language is forced, and which sources were found. -/
structure Reading.Sourced (tokens : List ArgToken) (r : Reading) : Prop where
  forced : r.forced = (tokens.filterMap ArgToken.languageOption?).getLast?.bind forcedBy
  sources : r.sources = (List.range tokens.length).filterMap (sourceAt? tokens)

section Sources

variable {tokens : List ArgToken} {r : Reading} {t : ArgToken}

/-- One more token leaves the sources at the other positions as they are. -/
theorem sourceAt?_append {i : Nat} (h : i < tokens.length) :
    sourceAt? (tokens ++ [t]) i = sourceAt? tokens i := by
  unfold sourceAt?
  rw [List.getElem?_append_left h, List.take_append_of_le_length (Nat.le_of_lt h)]

theorem sourceAt?_last : sourceAt? (tokens ++ [t]) tokens.length =
    t.operand?.bind fun arg => (operandLanguage? tokens arg).map (⟨arg, ·⟩) := by
  unfold sourceAt?
  rw [List.getElem?_concat_length, List.take_left]
  rfl

theorem sources_append : (List.range (tokens ++ [t]).length).filterMap (sourceAt? (tokens ++ [t])) =
    (List.range tokens.length).filterMap (sourceAt? tokens) ++
      (sourceAt? (tokens ++ [t]) tokens.length).toList := by
  rw [List.length_append, List.length_singleton, List.range_succ, List.filterMap_append]
  congr 1
  refine List.filterMap_congr fun i hi => ?_
  exact sourceAt?_append (List.mem_range.mp hi)

namespace Reading

namespace Sourced

/-- The language of an operand is that which the last language option left behind. -/
theorem source? (h : r.Sourced tokens) (arg : String) :
    r.source? arg = (operandLanguage? tokens arg).map (⟨arg, ·⟩) := by
  unfold Reading.source? operandLanguage?
  rw [h.forced]
  cases (tokens.filterMap ArgToken.languageOption?).getLast? with
  | none => rfl
  | some value =>
    simp only [Option.bind_some, forcedBy]
    split <;> rfl

theorem token (h : r.Sourced tokens) (t : ArgToken) : (r.token t).Sourced (tokens ++ [t]) := by
  constructor
  · rw [forced_token, h.forced, List.filterMap_append]
    cases hlanguage : t.languageOption? <;> simp [hlanguage]
  · rw [sources_token, sources_append, ← h.sources, sourceAt?_last]
    congr 3
    funext arg
    exact h.source? arg

theorem foldl (tokens : List ArgToken) : (tokens.foldl Reading.token .start).Sourced tokens := by
  induction tokens using List.reverseRecOn with
  | nil => exact ⟨rfl, rfl⟩
  | append_singleton tokens t ih =>
    rw [List.foldl_append]
    exact ih.token t

end Sourced

end Reading

end Sources

/-! ## What the whole command line shows -/

section Line

variable (argv0 : String) (line : List String)

/-- A stop of this rank or a higher one is among the tokens. -/
theorem exists_rank_iff {tokens : List ArgToken} {k : Nat} (hk : 0 < k) :
    (∃ t ∈ tokens, k ≤ t.meaning.rank) ↔
      ∃ option ∈ stopOptions, k ≤ option.2.1 ∧ .single option.1 ∈ tokens := by
  constructor
  · rintro ⟨t, ht, hle⟩
    cases hm : t.meaning with
    | stop rank mode =>
      obtain ⟨arg, rfl, harg⟩ := ArgToken.meaning_eq_stop_iff.mp hm
      rw [hm] at hle
      exact ⟨_, harg, hle, ht⟩
    | _ =>
      rw [hm] at hle
      exact absurd (Nat.lt_of_lt_of_le hk hle) (Nat.lt_irrefl 0)
  · rintro ⟨⟨arg, rank, mode⟩, harg, hle, ht⟩
    refine ⟨.single arg, ht, ?_⟩
    rw [ArgToken.meaning_eq_stop_iff.mpr ⟨arg, rfl, harg⟩]
    exact hle

/-- The strongest stop option decides what a reading takes for the mode. -/
theorem mode_reading : (reading line).mode = strongestStop (ArgToken.ofArgs line) := by
  have hrank : ∀ k, 0 < k → (k ≤ (reading line).rank ↔
      ∃ option ∈ stopOptions, k ≤ option.2.1 ∧ .single option.1 ∈ ArgToken.ofArgs line) := by
    intro k hk
    have hstart : ¬ k ≤ Reading.start.rank := Nat.not_le.mpr hk
    rw [← exists_rank_iff hk, reading, Reading.le_rank_foldl_iff, or_iff_right hstart]
  have hmode : (reading line).mode = modeOfRank (reading line).rank :=
    Reading.mode_foldl _ (by decide)
  have hthree := hrank 3 (by decide)
  have htwo := hrank 2 (by decide)
  have hone := hrank 1 (by decide)
  simp only [stopOptions, List.exists_mem_cons_iff, List.not_mem_nil, false_and, exists_false,
    Nat.reduceLeDiff, true_and, or_false] at hthree htwo hone
  rw [hmode, modeOfRank, strongestStop]
  simp only [hthree, htwo, hone]
  -- each condition leaves out what the ones before it have ruled out
  split
  · rfl
  · rename_i hpreprocess
    simp only [not_or] at hpreprocess
    simp only [hpreprocess, false_or]
    split
    · rfl
    · rename_i hassemble
      simp only [hassemble, false_or]

/-- A command line can be judged unless it has a response file or an option without its value. -/
theorem invalid_reading_iff : (reading line).invalid = false ↔
    (∀ t ∈ ArgToken.ofArgs line, t.isResponseFile = false) ∧
      ∀ t ∈ ArgToken.ofArgs line, t.isDangling = false := by
  rw [reading, Reading.invalid_foldl, ← forall₂_and]
  simp [Reading.start, ArgToken.meaning_eq_invalid_iff]

theorem stdin_reading_iff :
    (reading line).stdin = true ↔ .single "-" ∈ ArgToken.ofArgs line := by
  rw [reading, Reading.stdin_foldl]
  simp [Reading.start, ArgToken.meaning_eq_stdin_iff]

theorem sources_reading : (reading line).sources =
    (List.range (ArgToken.ofArgs line).length).filterMap (sourceAt? (ArgToken.ofArgs line)) :=
  (Reading.Sourced.foldl (ArgToken.ofArgs line)).sources

end Line

/-! ## What a worker can compile -/

theorem isRemotable_iff {language : Language} : language.isRemotable = true ↔
    language ∈ [Language.c, Language.cxx, Language.objC, Language.objCxx] := by
  cases language <;> decide

/-- One element has a value, and only one. -/
theorem filterMap_eq_singleton_iff {α β : Type} {f : α → Option β} {items : List α} {b : β}
    (h : items.Nodup) :
    items.filterMap f = [b] ↔ ∃ a ∈ items, f a = some b ∧ ∀ c ∈ items, c ≠ a → f c = none := by
  constructor
  · intro hone
    obtain ⟨before, a, after, rfl, hbefore, ha, hafter⟩ := List.filterMap_eq_cons_iff.mp hone
    refine ⟨a, by simp, ha, fun c hc hne => ?_⟩
    rcases List.mem_append.mp hc with hc | hc
    · exact hbefore c hc
    · exact List.filterMap_eq_nil_iff.mp hafter c ((List.mem_cons.mp hc).resolve_left hne)
  · rintro ⟨a, hmem, ha, hother⟩
    obtain ⟨before, after, rfl⟩ := List.append_of_mem hmem
    have hne : ∀ c, c ∈ before ∨ c ∈ after → c ≠ a := by
      rintro c hc rfl
      exact (List.nodup_middle.mp h).notMem (List.mem_append.mpr hc)
    have hbefore : before.filterMap f = [] := List.filterMap_eq_nil_iff.mpr fun c hc =>
      hother c (List.mem_append_left _ hc) (hne c (.inl hc))
    have hafter : after.filterMap f = [] := List.filterMap_eq_nil_iff.mpr fun c hc =>
      hother c (List.mem_append_right _ (List.mem_cons_of_mem _ hc)) (hne c (.inr hc))
    rw [List.filterMap_append, List.filterMap_cons_some ha, hbefore, hafter]
    rfl

theorem onlySource_iff {tokens : List ArgToken} {source : SourceFile} : OnlySource tokens source ↔
    (List.range tokens.length).filterMap (sourceAt? tokens) = [source] := by
  -- there is nothing behind the last token
  have hrange : ∀ i, tokens.length ≤ i → sourceAt? tokens i = none := by
    intro i hi
    rw [sourceAt?, List.getElem?_eq_none hi]
    rfl
  rw [filterMap_eq_singleton_iff List.nodup_range]
  constructor
  · rintro ⟨i, hsource, hother⟩
    refine ⟨i, List.mem_range.mpr (Nat.lt_of_not_le fun hi => ?_), hsource, fun j _ => hother j⟩
    simp [hrange i hi] at hsource
  · rintro ⟨i, -, hsource, hother⟩
    refine ⟨i, hsource, fun j hne => ?_⟩
    by_cases hj : j < tokens.length
    · exact hother j (List.mem_range.mpr hj) hne
    · exact hrange j (Nat.le_of_not_lt hj)

/-- A worker can compile a command line exactly if its tokens are remotable. -/
theorem localReason?_parse_eq_none_iff (argv0 : String) (line : List String) :
    (parse argv0 line).localReason? = none ↔ Remotable (ArgToken.ofArgs line) := by
  rw [localReason?_eq_none_iff, parse_eq]
  dsimp only
  simp only [sources_reading, ← onlySource_iff, isRemotable_iff]
  constructor
  · rintro ⟨hmode, hstdin, hsource⟩
    cases hinvalid : (reading line).invalid with
    | true => simp [hinvalid] at hmode
    | false =>
      obtain ⟨hplain, hcomplete⟩ := (invalid_reading_iff line).mp hinvalid
      refine ⟨hplain, hcomplete, ?_, ?_, hsource⟩
      · rw [← mode_reading]
        simpa [hinvalid] using hmode
      · rw [← stdin_reading_iff]
        simp [hstdin]
  · rintro ⟨hplain, hcomplete, hcompiles, hfiles, hsource⟩
    have hinvalid := (invalid_reading_iff line).mpr ⟨hplain, hcomplete⟩
    refine ⟨?_, ?_, hsource⟩
    · rw [hinvalid, mode_reading, hcompiles]
      rfl
    · rw [← stdin_reading_iff] at hfiles
      simpa using hfiles

/-! ## The order of tokens -/

/-- Invocations that differ in the order of their sources at most. -/
structure SameInAnyOrder (inv other : Invocation) : Prop where
  mode : other.mode = inv.mode
  stdin : other.stdin = inv.stdin
  sources : other.sources.Perm inv.sources
  remotable : other.localReason? = none ↔ inv.localReason? = none

section Order

variable {tokens : List ArgToken}

/-- The source file that an operand is by its extension. -/
def sourceByExtension? (t : ArgToken) : Option SourceFile :=
  t.operand?.bind fun arg => (Language.ofPath? arg).map (⟨arg, ·⟩)

/-- Without language options only the extension of an operand counts, and not its position. -/
theorem sources_of_no_languageOption (h : ∀ t ∈ tokens, t.languageOption? = none) :
    (List.range tokens.length).filterMap (sourceAt? tokens)
      = tokens.filterMap sourceByExtension? := by
  induction tokens using List.reverseRecOn with
  | nil => rfl
  | append_singleton tokens t ih =>
    have hbefore : ∀ s ∈ tokens, s.languageOption? = none :=
      fun s hs => h s (List.mem_append_left _ hs)
    have hlanguage : ∀ arg, operandLanguage? tokens arg = Language.ofPath? arg := by
      intro arg
      rw [operandLanguage?, List.filterMap_eq_nil_iff.mpr hbefore]
      rfl
    rw [sources_append, ih hbefore, sourceAt?_last, List.filterMap_append]
    simp only [hlanguage]
    congr 1

theorem strongestStop_of_perm {other : List ArgToken} (h : other.Perm tokens) :
    strongestStop other = strongestStop tokens := by
  simp only [strongestStop, h.mem_iff]

/-- A worker can compile the one exactly if it can compile the other. -/
theorem localReason?_of_perm {inv other : Invocation} (hmode : other.mode = inv.mode)
    (hstdin : other.stdin = inv.stdin) (hsources : other.sources.Perm inv.sources) :
    other.localReason? = none ↔ inv.localReason? = none := by
  have hsingle : ∀ source, other.sources = [source] ↔ inv.sources = [source] := fun source =>
    ⟨fun h => (List.singleton_perm.mp (h ▸ hsources)).symm,
      fun h => List.perm_singleton.mp (h ▸ hsources)⟩
  simp only [localReason?_eq_none_iff, hmode, hstdin, hsingle]

theorem sameInAnyOrder_of_perm (argv0 : String) {line other : List String}
    (hperm : (ArgToken.ofArgs other).Perm (ArgToken.ofArgs line))
    (hlanguage : ∀ t ∈ ArgToken.ofArgs line, t.languageOption? = none) :
    SameInAnyOrder (parse argv0 line) (parse argv0 other) := by
  have hinvalid : (reading other).invalid = (reading line).invalid := by
    rw [reading, reading, Reading.invalid_foldl, Reading.invalid_foldl, hperm.any_eq]
  have hmode : (parse argv0 other).mode = (parse argv0 line).mode := by
    simp only [parse_eq, hinvalid, mode_reading, strongestStop_of_perm hperm]
  have hstdin : (parse argv0 other).stdin = (parse argv0 line).stdin := by
    simp only [parse_eq]
    rw [Bool.eq_iff_iff, stdin_reading_iff, stdin_reading_iff, hperm.mem_iff]
  have hsources : (parse argv0 other).sources.Perm (parse argv0 line).sources := by
    simp only [parse_eq, sources_reading]
    rw [sources_of_no_languageOption hlanguage,
      sources_of_no_languageOption fun t ht => hlanguage t (hperm.mem_iff.mp ht)]
    exact hperm.filterMap _
  exact ⟨hmode, hstdin, hsources, localReason?_of_perm hmode hstdin hsources⟩

end Order

/-- Whether a worker can compile a command line is decided by its tokens. If none of them names a
language and none lacks a value, then they may be put into any order: what is asked of the compiler
stays the same. -/
theorem remotable_by_tokens (argv0 : String) (line : List String) :
    ((parse argv0 line).localReason? = none ↔ Remotable (ArgToken.ofArgs line)) ∧
      ∀ tokens, tokens.Perm (ArgToken.ofArgs line) →
        (∀ t ∈ ArgToken.ofArgs line, t.languageOption? = none ∧ t.isDangling = false) →
        ArgToken.ofArgs (tokens.flatMap ArgToken.args) = tokens ∧
          SameInAnyOrder (parse argv0 line) (parse argv0 (tokens.flatMap ArgToken.args)) := by
  refine ⟨localReason?_parse_eq_none_iff argv0 line, fun tokens hperm h => ?_⟩
  have hclosed : ∀ t ∈ ArgToken.ofArgs line, t.Closed := by
    rcases ArgToken.closed_or_dangling line with ⟨option, hdangling⟩ | hclosed
    · exact absurd (h _ hdangling).2 (by simp [ArgToken.isDangling])
    · exact hclosed.1
  have htokens : ArgToken.ofArgs (tokens.flatMap ArgToken.args) = tokens :=
    ArgToken.ofArgs_flatMap_args tokens fun t ht => hclosed t (hperm.mem_iff.mp ht)
  refine ⟨htokens, sameInAnyOrder_of_perm argv0 ?_ fun t ht => (h t ht).1⟩
  rw [htokens]
  exact hperm

/-- The tokens of a compile, from the last to the first. -/
theorem remotable_by_tokens_reversed :
    let line := ["-c", "-I", "@inc", "a.c", "-o", "-"]
    let reversed := ["-o", "-", "a.c", "-I", "@inc", "-c"]
    (parse "gcc" line).localReason? = none ∧ ArgToken.ofArgs reversed = (ArgToken.ofArgs line).reverse ∧
      SameInAnyOrder (parse "gcc" line) (parse "gcc" reversed) := by
  have h := remotable_by_tokens "gcc" ["-c", "-I", "@inc", "a.c", "-o", "-"]
  exact ⟨by decide, by decide, (h.2 _ (List.reverse_perm _) (by decide)).2⟩

end Invocation

end Offload
