import Offload.Proofs.Invocation.Tokens

/-!
# The command line of the preprocessor

The preprocessor is run with the arguments of a compile, less `-c` and the output file. These are
looked for argument by argument, while the command line was read by tokens. Both agree exactly when no
option has a value that looks like `-c` or like an output file (`preprocessArgs_iff`); then the command
line of the preprocessor asks for the same source in the same language. A value of that look is lost.
-/

namespace Offload

namespace Invocation

/-! ## What is left out -/

/-- An argument that would be left out, if it were read by itself. -/
def looksLikeOutput (arg : String) : Bool := arg = "-c" || Text.startsWith "-o" arg

end Invocation

open Invocation

/-- The compiler is to make an object file, or where to. -/
def ArgMeaning.isOutput : ArgMeaning → Bool
  | .stop _ .compile | .output _ => true
  | _ => false

theorem ArgMeaning.isOutput_ofArg (arg : String) : (ofArg arg).isOutput = looksLikeOutput arg := by
  rw [Bool.eq_iff_iff]
  constructor
  · intro h
    cases hmeaning : ofArg arg with
    | stop rank mode =>
      rw [hmeaning] at h
      obtain rfl : mode = .compile := by cases mode <;> simp [isOutput] at h ⊢
      simp [looksLikeOutput, (compile_of_mem_stopOptions (ofArg_eq_stop_iff.mp hmeaning)).1]
    | output file => simp [looksLikeOutput, ofArg_eq_output hmeaning]
    | _ => simp [hmeaning, isOutput] at h
  · intro h
    by_cases hc : arg = "-c"
    · subst hc
      rfl
    · obtain ⟨file, hfile⟩ := ofArg_attached (by simpa [looksLikeOutput, hc] using h)
      rw [hfile]
      rfl

theorem ArgMeaning.isOutput_ofOption (option value : String) :
    (ofOption option value).isOutput = (option = "-o" : Bool) := by
  unfold ofOption
  by_cases ho : option = "-o"
  · simp [ho, isOutput]
  · by_cases hx : option = "-x" <;> simp [ho, hx, isOutput]

namespace Invocation

/-- The tokens that say neither `-c` nor `-o`. -/
def keptTokens (tokens : List ArgToken) : List ArgToken :=
  tokens.filter fun t => !t.meaning.isOutput

/-- A token whose option, unless it is `-o`, has a value that does not look like an output. -/
def hasPlainValue : ArgToken → Bool
  | .pair option value => option = "-o" || !looksLikeOutput value
  | _ => true

/-- No option but `-o` has a value that looks like `-c` or like an output file. -/
def PlainValues (tokens : List ArgToken) : Prop := ∀ t ∈ tokens, hasPlainValue t = true

/-- An argument that is not a separate `-o` is left out or not by itself. -/
theorem withoutOutput_cons {arg : String} (hne : arg ≠ "-o") (rest : List String) :
    withoutOutput (arg :: rest)
      = if looksLikeOutput arg then withoutOutput rest else arg :: withoutOutput rest := by
  have hstep : withoutOutput (arg :: rest) = if arg = "-c" then withoutOutput rest
      else if Text.startsWith "-o" arg then withoutOutput rest else arg :: withoutOutput rest := by
    rw [withoutOutput.eq_def]
    dsimp only
    rw [if_neg hne]
  rw [hstep, looksLikeOutput]
  by_cases hc : arg = "-c" <;> simp [hc]

theorem withoutOutput_kept {arg : String} (h : looksLikeOutput arg = false) (rest : List String) :
    withoutOutput (arg :: rest) = arg :: withoutOutput rest := by
  have hne : arg ≠ "-o" := by
    rintro rfl
    exact absurd h (by decide)
  rw [withoutOutput_cons hne, h]
  rfl

theorem withoutOutput_output (value : String) (rest : List String) :
    withoutOutput ("-o" :: value :: rest) = withoutOutput rest := by
  rw [withoutOutput, if_neg (by decide), if_pos rfl]

/-- What looks like an output is left out wherever it stands. -/
theorem looksLikeOutput_of_mem {line : List String} {arg : String} (h : arg ∈ withoutOutput line) :
    looksLikeOutput arg = false := by
  fun_induction withoutOutput line with
  | case1 => simp at h
  | case2 rest ih => exact ih h
  | case3 => simp at h
  | case4 value rest _ ih => exact ih h
  | case5 other rest hc hne ho ih => exact ih h
  | case6 other rest hc hne ho ih =>
    rcases List.mem_cons.mp h with rfl | h
    · simp [looksLikeOutput, hc, ho]
    · exact ih h

/-- Of the options with a value, only `-o` looks like an output. -/
theorem looksLikeOutput_of_takesValue {option : String} (h : takesValue option = true)
    (hne : option ≠ "-o") : looksLikeOutput option = false := by
  have hall : ∀ o ∈ valueOptions, o ≠ "-o" → looksLikeOutput o = false := by decide
  exact hall option (by simpa [takesValue] using h) hne

/-- With plain values, the arguments of the tokens that are no output are left. -/
theorem withoutOutput_of_plainValues (tokens : List ArgToken) (hclosed : ∀ t ∈ tokens, t.Closed)
    (h : PlainValues tokens) :
    withoutOutput (tokens.flatMap ArgToken.args) = (keptTokens tokens).flatMap ArgToken.args := by
  unfold keptTokens
  induction tokens with
  | nil => rfl
  | cons t rest ih =>
    obtain ⟨ht, hrest⟩ := List.forall_mem_cons.mp hclosed
    obtain ⟨hvalue, hvalues⟩ := List.forall_mem_cons.mp h
    have htail := ih hrest hvalues
    rw [List.flatMap_cons]
    cases t with
    | pair option value =>
      have hmeaning := ArgMeaning.isOutput_ofOption option value
      change withoutOutput (option :: value :: rest.flatMap ArgToken.args) = _
      by_cases hne : option = "-o"
      · subst hne
        rw [withoutOutput_output, htail, List.filter_cons_of_neg (by simp [ArgToken.meaning, hmeaning])]
      · have hlooks : looksLikeOutput value = false := by simpa [hasPlainValue, hne] using hvalue
        rw [withoutOutput_kept (looksLikeOutput_of_takesValue ht hne), withoutOutput_kept hlooks,
          htail, List.filter_cons_of_pos (by simp [ArgToken.meaning, hmeaning, hne])]
        rfl
    | single arg =>
      have hmeaning := ArgMeaning.isOutput_ofArg arg
      -- a closed single argument takes no value, as `-o` would
      have hne : arg ≠ "-o" := by
        rintro rfl
        exact absurd (show takesValue "-o" = false from ht) (by decide)
      change withoutOutput (arg :: rest.flatMap ArgToken.args) = _
      rw [withoutOutput_cons hne, htail]
      cases hlooks : looksLikeOutput arg with
      | true => rw [List.filter_cons_of_neg (by simp [ArgToken.meaning, hmeaning, hlooks])]; rfl
      | false => rw [List.filter_cons_of_pos (by simp [ArgToken.meaning, hmeaning, hlooks])]; rfl
    | dangling option => exact ht.elim

/-- Exactly the arguments of the tokens that are an output are left out, if and only if the values of
the other options are plain. -/
theorem withoutOutput_eq_iff (tokens : List ArgToken) (hclosed : ∀ t ∈ tokens, t.Closed) :
    withoutOutput (tokens.flatMap ArgToken.args) = (keptTokens tokens).flatMap ArgToken.args ↔
      PlainValues tokens := by
  refine ⟨fun heq t hmem => ?_, withoutOutput_of_plainValues tokens hclosed⟩
  cases t with
  | pair option value =>
    by_cases hne : option = "-o"
    · simp [hasPlainValue, hne]
    · -- a value of that look would not be left, but its token is kept
      have hleft : value ∈ withoutOutput (tokens.flatMap ArgToken.args) := by
        rw [heq, List.mem_flatMap]
        refine ⟨.pair option value, List.mem_filter.mpr ⟨hmem, ?_⟩, ?_⟩
        · simp [ArgToken.meaning, ArgMeaning.isOutput_ofOption, hne]
        · simp [ArgToken.args]
      simp [hasPlainValue, looksLikeOutput_of_mem hleft]
  | single arg => rfl
  | dangling option => rfl

/-! ## The same source -/

/-- A reading that has noted the same, but no output. -/
structure Reading.Without (r kept : Reading) : Prop where
  sources : kept.sources = r.sources
  stdin : kept.stdin = r.stdin
  forced : kept.forced = r.forced
  invalid : kept.invalid = r.invalid
  output : kept.output = none
  rank : kept.rank ≤ r.rank

namespace Reading.Without

variable {r kept : Reading} {m : ArgMeaning}

/-- An output is passed over. -/
theorem passOver (h : r.Without kept) (hm : m.isOutput = true) : (r.note m).Without kept := by
  obtain ⟨hsources, hstdin, hforced, hinvalid, houtput, hrank⟩ := h
  cases m with
  -- a stop raises the rank or leaves it, so the other reading stays behind
  | stop rank mode =>
    unfold note
    dsimp only
    split
    · exact ⟨hsources, hstdin, hforced, hinvalid, houtput, by show kept.rank ≤ rank; omega⟩
    · exact ⟨hsources, hstdin, hforced, hinvalid, houtput, hrank⟩
  | output file => exact ⟨hsources, hstdin, hforced, hinvalid, houtput, hrank⟩
  | _ => simp [ArgMeaning.isOutput] at hm

/-- Anything else is noted by both. -/
theorem note (h : r.Without kept) (hm : m.isOutput = false) : (r.note m).Without (kept.note m) := by
  obtain ⟨hsources, hstdin, hforced, hinvalid, houtput, hrank⟩ := h
  cases m with
  | stop rank mode =>
    unfold Reading.note
    dsimp only
    -- the one that passes over outputs is behind in rank, so it notes at least the same stops
    split <;> split
    · exact ⟨hsources, hstdin, hforced, hinvalid, houtput, Nat.le_refl _⟩
    · exact absurd hrank (by omega)
    · exact ⟨hsources, hstdin, hforced, hinvalid, houtput, by show rank ≤ r.rank; omega⟩
    · exact ⟨hsources, hstdin, hforced, hinvalid, houtput, hrank⟩
  | output file => simp [ArgMeaning.isOutput] at hm
  | language value => exact ⟨hsources, hstdin, rfl, hinvalid, houtput, hrank⟩
  | stdin => exact ⟨hsources, rfl, hforced, hinvalid, houtput, hrank⟩
  | operand arg =>
    show (r.operand arg).Without (kept.operand arg)
    unfold operand
    rw [hforced]
    split
    · exact ⟨by rw [hsources], hstdin, rfl, hinvalid, houtput, hrank⟩
    · exact ⟨hsources, hstdin, hforced, hinvalid, houtput, hrank⟩
  | invalid => exact ⟨hsources, hstdin, hforced, rfl, houtput, hrank⟩
  | nothing => exact ⟨hsources, hstdin, hforced, hinvalid, houtput, hrank⟩

theorem foldl (h : r.Without kept) (tokens : List ArgToken) :
    (tokens.foldl Reading.token r).Without ((keptTokens tokens).foldl Reading.token kept) := by
  unfold keptTokens
  induction tokens generalizing r kept with
  | nil => exact h
  | cons t rest ih =>
    cases hm : t.meaning.isOutput with
    | true =>
      rw [List.filter_cons_of_neg (by simp [hm]), List.foldl_cons, token_eq_note]
      exact ih (h.passOver hm)
    | false =>
      rw [List.filter_cons_of_pos (by simp [hm]), List.foldl_cons, List.foldl_cons, token_eq_note,
        token_eq_note]
      exact ih (h.note hm)

end Reading.Without

/-- The rank of a compile is the lowest of a stop. -/
def Reading.Ranked (r : Reading) : Prop := r.mode = .compile → r.rank = 1

theorem Reading.Ranked.token {r : Reading} (h : r.Ranked) (t : ArgToken) : (r.token t).Ranked := by
  rw [token_eq_note]
  cases hm : t.meaning with
  | stop rank mode =>
    show (if r.rank < rank then { r with rank, mode } else r).Ranked
    split
    · rintro rfl
      exact ArgToken.rank_of_meaning hm
    · exact h
  | operand arg =>
    show (r.operand arg).Ranked
    unfold operand
    split <;> exact h
  | _ => exact h

theorem Reading.Ranked.foldl {r : Reading} (h : r.Ranked) (tokens : List ArgToken) :
    (tokens.foldl Reading.token r).Ranked := by
  induction tokens generalizing r with
  | nil => exact h
  | cons t rest ih => exact ih (h.token t)

/-- An option that lacks its value makes a command line invalid. -/
theorem Reading.invalid_of_dangling {tokens : List ArgToken} {option : String}
    (h : .dangling option ∈ tokens) (r : Reading) :
    (tokens.foldl Reading.token r).invalid = true := by
  rw [Reading.invalid_foldl, Bool.or_eq_true, List.any_eq_true]
  exact .inr ⟨_, h, by simp [ArgToken.meaning]⟩

/-- The reading of a command line. -/
def reading (line : List String) : Reading := (ArgToken.ofArgs line).foldl Reading.token .start

/-- The tokens of an invocation that compiles are closed. -/
theorem closed_of_valid {line : List String} (h : (reading line).invalid = false) :
    (∀ t ∈ ArgToken.ofArgs line, t.Closed) ∧
      (ArgToken.ofArgs line).flatMap ArgToken.args = line := by
  rcases ArgToken.closed_or_dangling line with ⟨option, hdangling⟩ | hclosed
  · have hinvalid : (reading line).invalid = true := Reading.invalid_of_dangling hdangling .start
    rw [h] at hinvalid
    exact absurd hinvalid (by decide)
  · exact hclosed

/-- What a worker can do: one source, in a language that it takes, is compiled to an object file. -/
theorem localReason?_eq_none_iff {inv : Invocation} : inv.localReason? = none ↔
    inv.mode = .compile ∧ inv.stdin = false ∧
      ∃ source, inv.sources = [source] ∧ source.language.isRemotable = true := by
  unfold localReason?
  split
  · rename_i hmode
    simp [hmode]
  rename_i hmode
  split
  · rename_i hstdin
    simp [hstdin]
  rename_i hstdin
  simp only [ne_eq, not_not, Bool.not_eq_true] at hmode hstdin
  simp only [hmode, hstdin, true_and]
  split
  · rename_i hsources
    simp [hsources]
  · rename_i source hsources
    simp [hsources]
  · rename_i hmany
    simp only [reduceCtorEq, false_iff]
    rintro ⟨source, hsources, -⟩
    exact hmany source hsources

theorem of_localReason?_none {inv : Invocation} (h : inv.localReason? = none) :
    inv.mode = .compile ∧ inv.stdin = false ∧ ∃ source, inv.sources = [source] := by
  obtain ⟨hmode, hstdin, source, hsource, -⟩ := localReason?_eq_none_iff.mp h
  exact ⟨hmode, hstdin, source, hsource⟩

/-- The arguments that are left, and then `-E`, are read as the tokens that are kept, and then `-E`. -/
theorem ofArgs_kept (tokens : List ArgToken) (hclosed : ∀ t ∈ tokens, t.Closed) :
    ArgToken.ofArgs ((keptTokens tokens).flatMap ArgToken.args ++ ["-E"])
      = keptTokens tokens ++ [ArgToken.single "-E"] := by
  have hflat : (keptTokens tokens).flatMap ArgToken.args ++ ["-E"]
      = (keptTokens tokens ++ [ArgToken.single "-E"]).flatMap ArgToken.args := by
    rw [List.flatMap_append]
    rfl
  rw [hflat]
  apply ArgToken.ofArgs_flatMap_args
  intro t ht
  rcases List.mem_append.mp ht with hkept | hlast
  · exact hclosed t (List.mem_of_mem_filter hkept)
  · obtain rfl := List.mem_singleton.mp hlast
    show takesValue "-E" = false
    decide

/-- How an invocation is made of the reading of its command line. -/
theorem parse_eq (argv0 : String) (line : List String) :
    parse argv0 line =
      { argv0, args := line
        mode := if (reading line).invalid then .invalid else (reading line).mode
        sources := (reading line).sources
        output := (reading line).output
        stdin := (reading line).stdin } := rfl

/-- A reading that compiles is valid, and no stop but `-c` was read. -/
theorem reading_of_compile {argv0 : String} {line : List String}
    (h : (parse argv0 line).mode = .compile) :
    (reading line).invalid = false ∧ (reading line).rank = 1 := by
  rw [parse_eq] at h
  dsimp only at h
  cases hinvalid : (reading line).invalid with
  | true => simp [hinvalid] at h
  | false =>
    have hranked : (reading line).Ranked :=
      Reading.Ranked.foldl (r := .start) (by simp [Reading.Ranked, Reading.start]) _
    exact ⟨rfl, hranked (by simpa [hinvalid] using h)⟩

/-- With plain values, the preprocessor is asked for the source of the compile. -/
theorem parse_preprocessArgs {argv0 : String} {line : List String}
    (h : (parse argv0 line).mode = .compile) (hplain : PlainValues (ArgToken.ofArgs line)) :
    parse argv0 (parse argv0 line).preprocessArgs =
      { parse argv0 line with
        args := (parse argv0 line).preprocessArgs, mode := .preprocess, output := none } := by
  obtain ⟨hvalid, hrank⟩ := reading_of_compile h
  obtain ⟨hclosed, hargs⟩ := closed_of_valid hvalid
  have hleft : (parse argv0 line).preprocessArgs
      = (keptTokens (ArgToken.ofArgs line)).flatMap ArgToken.args ++ ["-E"] := by
    show withoutOutput line ++ ["-E"] = _
    rw [← withoutOutput_of_plainValues _ hclosed hplain, hargs]
  let kept := (keptTokens (ArgToken.ofArgs line)).foldl Reading.token .start
  have hwithout : (reading line).Without kept :=
    Reading.Without.foldl ⟨rfl, rfl, rfl, rfl, rfl, Nat.le_refl _⟩ _
  -- no stop but `-c` was read, so `-E` decides
  have hlast : reading (parse argv0 line).preprocessArgs
      = { kept with rank := 3, mode := .preprocess } := by
    have hlow : kept.rank < 3 := by
      have hle := hwithout.rank
      omega
    unfold reading
    rw [hleft, ofArgs_kept _ hclosed, List.foldl_append]
    show (if kept.rank < 3 then { kept with rank := 3, mode := .preprocess } else kept) = _
    rw [if_pos hlow]
  rw [parse_eq argv0 (parse argv0 line).preprocessArgs, hlast]
  simp only [hwithout.invalid, hvalid, hwithout.sources, hwithout.output, hwithout.stdin]
  rfl

/-- The command line of the preprocessor is that of the compile, less exactly what was read as `-c`
and as output files, if and only if no other option has a value that looks like these; and then it
asks for the same source in the same language and for no output file. -/
theorem preprocessArgs_iff (argv0 : String) (line : List String)
    (h : (parse argv0 line).localReason? = none) :
    let inv := parse argv0 line
    let tokens := ArgToken.ofArgs line
    (inv.preprocessArgs = (keptTokens tokens).flatMap ArgToken.args ++ ["-E"] ↔
        PlainValues tokens) ∧
      (PlainValues tokens → ∃ source, inv.sources = [source] ∧ parse argv0 inv.preprocessArgs =
        ⟨argv0, inv.preprocessArgs, .preprocess, [source], none, inv.stdin⟩) := by
  intro inv tokens
  obtain ⟨hmode, hstdin, source, hsource⟩ := of_localReason?_none h
  obtain ⟨hclosed, hargs⟩ := closed_of_valid (reading_of_compile hmode).1
  refine ⟨?_, fun hplain => ⟨source, hsource, ?_⟩⟩
  · rw [← withoutOutput_eq_iff tokens hclosed, hargs]
    exact List.append_left_inj _
  · rw [parse_preprocessArgs hmode hplain]
    show Invocation.mk argv0 _ _ inv.sources none inv.stdin = _
    rw [hsource]

/-- An output file may look like anything, since it is left out with its option. -/
theorem preprocessArgs_iff_outputs :
    let inv := parse "gcc" ["-I", "out", "-c", "-o", "-c", "-oa.o", "a.c"]
    inv.preprocessArgs = ["-I", "out", "a.c", "-E"] ∧ ∃ source, inv.sources = [source] ∧
      parse "gcc" inv.preprocessArgs =
        ⟨"gcc", inv.preprocessArgs, .preprocess, [source], none, inv.stdin⟩ := by
  have h := preprocessArgs_iff "gcc" ["-I", "out", "-c", "-o", "-c", "-oa.o", "a.c"] (by decide)
  have hplain : PlainValues (ArgToken.ofArgs ["-I", "out", "-c", "-o", "-c", "-oa.o", "a.c"]) := by
    unfold PlainValues
    decide
  exact ⟨h.1.mpr hplain, h.2 hplain⟩

/-- The value of an option that looks like an output file is lost to the preprocessor. What follows
takes its place: here `-E`, so that the compiler is asked for a program. -/
theorem preprocessArgs_lose_value :
    let inv := parse "clang" ["-c", "a.c", "-Xclang", "-opaque-pointers"]
    inv.localReason? = none ∧ inv.preprocessArgs = ["a.c", "-Xclang", "-E"] ∧
      (parse "clang" inv.preprocessArgs).mode = .link := by
  decide

end Invocation

end Offload
