import Offload.Invocation
import Mathlib.Data.List.Basic

/-!
# What the tokens of a command line mean

To read a token is to find out what it means (`ArgToken.meaning`) and to note that
(`Reading.token_eq_note`). The tests on the text of an argument are all in the first part
(`ArgMeaning.LooksLike`), so that no later proof about a reading looks at them again. What a token
leaves in a reading is said field by field. Tokens that lack nothing are read back from their arguments
(`ArgToken.ofArgs_flatMap_args`).
-/

namespace Offload

/-! ## Meanings -/

/-- What a token says about an invocation. -/
inductive ArgMeaning where
  /-- the compiler stops early -/
  | stop (rank : Nat) (mode : InvocationMode)
  | output (file : String)
  /-- the value of `-x` -/
  | language (value : String)
  | stdin
  | operand (arg : String)
  /-- the command line cannot be judged -/
  | invalid
  | nothing
deriving DecidableEq, Repr

namespace ArgMeaning

/-- What an option means with its value. -/
def ofOption (option value : String) : ArgMeaning :=
  if option = "-o" then .output value
  else if option = "-x" then .language value
  else .nothing

/-- What an argument means that does not stop the compiler. -/
def ofPlainArg (arg : String) : ArgMeaning :=
  if Text.startsWith "@" arg then .invalid
  else if arg = "-" then .stdin
  else
    match Text.stringAfter? "-o" arg, Text.stringAfter? "-x" arg with
    | some file, _ => .output file
    | none, some value => .language value
    | none, none => if Text.startsWith "-" arg then .nothing else .operand arg

/-- What an argument means by itself. -/
def ofArg (arg : String) : ArgMeaning :=
  match stopOption? arg with
  | some (rank, mode) => .stop rank mode
  | none => ofPlainArg arg

end ArgMeaning

/-- What a token means. -/
def ArgToken.meaning : ArgToken → ArgMeaning
  | .pair option value => .ofOption option value
  | .single arg => .ofArg arg
  | .dangling _ => .invalid

namespace Invocation

/-- Notes what a token means. -/
def Reading.note (r : Reading) : ArgMeaning → Reading
  | .stop rank mode => if r.rank < rank then { r with rank, mode } else r
  | .output file => { r with output := some file }
  | .language value => { r with forced := forcedBy value }
  | .stdin => { r with stdin := true }
  | .operand arg => r.operand arg
  | .invalid => { r with invalid := true }
  | .nothing => r

/-- To read a token is to note what it means. -/
theorem Reading.token_eq_note (r : Reading) (t : ArgToken) : r.token t = r.note t.meaning := by
  cases t with
  | pair option value =>
    show r.pair option value = r.note (.ofOption option value)
    unfold Reading.pair ArgMeaning.ofOption
    split
    · rfl
    · split <;> rfl
  | single arg =>
    show r.single arg = r.note (.ofArg arg)
    unfold Reading.single ArgMeaning.ofArg ArgMeaning.ofPlainArg
    cases stopOption? arg with
    | some stop => rfl
    | none =>
      dsimp only
      split
      · rfl
      split
      · rfl
      cases Text.stringAfter? "-o" arg with
      | some file => rfl
      | none =>
        cases Text.stringAfter? "-x" arg with
        | some value => rfl
        | none =>
          dsimp only
          split <;> rfl
  | dangling option => rfl

end Invocation

/-! ## Arguments by their text -/

section Text

variable {start start' arg value : String}

theorem stringAfter?_isSome (start arg : String) :
    (Text.stringAfter? start arg).isSome = Text.startsWith start arg := by
  unfold Text.stringAfter? Text.after? Text.startsWith
  cases start.toList.isPrefixOf arg.toList <;> rfl

theorem stringAfter?_eq_none (h : Text.startsWith start arg = false) :
    Text.stringAfter? start arg = none := by
  rw [← Option.not_isSome_iff_eq_none, stringAfter?_isSome, h]
  decide

theorem startsWith_trans (h : Text.startsWith start start' = true)
    (h' : Text.startsWith start' arg = true) : Text.startsWith start arg = true :=
  List.isPrefixOf_iff_prefix.mpr
    ((List.isPrefixOf_iff_prefix.mp h).trans (List.isPrefixOf_iff_prefix.mp h'))

/-- Of two beginnings of one argument, the longer begins with the shorter. -/
theorem startsWith_of_both (h : Text.startsWith start arg = true)
    (h' : Text.startsWith start' arg = true)
    (hle : start.toList.length ≤ start'.toList.length) : Text.startsWith start start' = true :=
  List.isPrefixOf_iff_prefix.mpr (List.prefix_of_prefix_length_le
    (List.isPrefixOf_iff_prefix.mp h) (List.isPrefixOf_iff_prefix.mp h') hle)

/-- The options that stop the compiler, with their ranks. -/
def stopOptions : List (String × Nat × InvocationMode) :=
  [("-E", 3, .preprocess), ("-M", 3, .preprocess), ("-MM", 3, .preprocess), ("-S", 2, .assemble),
   ("-c", 1, .compile)]

theorem stopOption?_eq_some_iff {stop : Nat × InvocationMode} :
    stopOption? arg = some stop ↔ (arg, stop) ∈ stopOptions := by
  constructor
  · intro h
    unfold stopOption? at h
    split at h
    · rename_i hpreprocess
      obtain rfl := Option.some.inj h
      rcases hpreprocess with rfl | rfl | rfl <;> decide
    split at h
    · rename_i hassemble
      obtain rfl := Option.some.inj h
      subst hassemble
      decide
    split at h
    · rename_i hcompile
      obtain rfl := Option.some.inj h
      subst hcompile
      decide
    · simp at h
  · intro h
    have hall : ∀ option ∈ stopOptions, stopOption? option.1 = some option.2 := by decide
    exact hall (arg, stop) h

theorem stopOption?_eq_none (h : ∀ option ∈ stopOptions, option.1 ≠ arg) :
    stopOption? arg = none := by
  rw [Option.eq_none_iff_forall_ne_some]
  intro stop hstop
  exact h _ (stopOption?_eq_some_iff.mp hstop) rfl

/-- An argument stops nothing if it begins as no stop option does. -/
theorem stopOption?_of_startsWith (h : Text.startsWith start arg = true)
    (hstops : ∀ option ∈ stopOptions, Text.startsWith start option.1 = false) :
    stopOption? arg = none := by
  refine stopOption?_eq_none ?_
  rintro option hoption rfl
  rw [hstops option hoption] at h
  exact absurd h (by decide)

/-- Of the options that stop the compiler, only `-c` asks for an object file. -/
theorem compile_of_mem_stopOptions {rank : Nat} (h : (arg, rank, .compile) ∈ stopOptions) :
    arg = "-c" ∧ rank = 1 := by
  have hall : ∀ option ∈ stopOptions, option.2.2 = .compile → option.1 = "-c" ∧ option.2.1 = 1 := by
    decide
  exact hall _ h rfl

/-- An argument that begins with `-o` stops nothing. -/
theorem stopOption?_attached (h : Text.startsWith "-o" arg = true) : stopOption? arg = none :=
  stopOption?_of_startsWith h (by decide)

namespace ArgMeaning

/-- What an argument looks like that means something. -/
inductive LooksLike (arg : String) : ArgMeaning → Prop
  | stop (rank : Nat) (mode : InvocationMode) (h : (arg, rank, mode) ∈ stopOptions) :
    LooksLike arg (.stop rank mode)
  | invalid (h : Text.startsWith "@" arg = true) : LooksLike arg .invalid
  | stdin (h : arg = "-") : LooksLike arg .stdin
  | output (file : String) (h : Text.stringAfter? "-o" arg = some file) :
    LooksLike arg (.output file)
  | language (value : String) (h : Text.stringAfter? "-x" arg = some value) :
    LooksLike arg (.language value)
  | nothing : LooksLike arg .nothing
  | operand (hdash : Text.startsWith "-" arg = false) (hfile : Text.startsWith "@" arg = false) :
    LooksLike arg (.operand arg)

theorem looksLike_ofArg (arg : String) : LooksLike arg (ofArg arg) := by
  unfold ofArg
  cases hstop : stopOption? arg with
  | some stop => exact .stop stop.1 stop.2 (stopOption?_eq_some_iff.mp hstop)
  | none =>
    dsimp only
    unfold ofPlainArg
    split
    · rename_i hfile
      exact .invalid hfile
    rename_i hfile
    split
    · rename_i hstdin
      exact .stdin hstdin
    split
    · rename_i houtput
      exact .output _ houtput
    · rename_i hlanguage
      exact .language _ hlanguage
    · split
      · exact .nothing
      · rename_i hdash
        exact .operand (by simpa using hdash) (by simpa using hfile)

theorem ofArg_eq_stop_iff {rank : Nat} {mode : InvocationMode} :
    ofArg arg = .stop rank mode ↔ (arg, rank, mode) ∈ stopOptions := by
  constructor
  · intro h
    have hlooks := looksLike_ofArg arg
    rw [h] at hlooks
    cases hlooks with
    | stop _ _ h => exact h
  · intro h
    rw [ofArg, stopOption?_eq_some_iff.mpr h]

/-- An argument that begins with `-o` names the output file, whatever follows. -/
theorem ofArg_attached (h : Text.startsWith "-o" arg = true) : ∃ file, ofArg arg = .output file := by
  obtain ⟨rest, hrest⟩ := List.isPrefixOf_iff_prefix.mp h
  have hat : Text.startsWith "@" arg = false := by
    unfold Text.startsWith
    rw [← hrest]
    rfl
  have hstdin : arg ≠ "-" := by
    rintro rfl
    exact absurd h (by decide)
  obtain ⟨file, hfile⟩ : ∃ file, Text.stringAfter? "-o" arg = some file :=
    Option.isSome_iff_exists.mp ((stringAfter?_isSome "-o" arg).trans h)
  refine ⟨file, ?_⟩
  rw [ofArg, stopOption?_attached h]
  dsimp only
  rw [ofPlainArg, if_neg (by simp [hat]), if_neg hstdin, hfile]

theorem ofArg_eq_output {file : String} (h : ofArg arg = .output file) :
    Text.startsWith "-o" arg = true := by
  have hlooks := looksLike_ofArg arg
  rw [h] at hlooks
  cases hlooks with
  | output _ h =>
    rw [← stringAfter?_isSome, h]
    rfl

theorem ofArg_eq_stdin_iff : ofArg arg = .stdin ↔ arg = "-" := by
  constructor
  · intro h
    have hlooks := looksLike_ofArg arg
    rw [h] at hlooks
    cases hlooks with
    | stdin h => exact h
  · rintro rfl
    rfl

theorem ofArg_eq_invalid_iff : ofArg arg = .invalid ↔ Text.startsWith "@" arg = true := by
  constructor
  · intro h
    have hlooks := looksLike_ofArg arg
    rw [h] at hlooks
    cases hlooks with
    | invalid h => exact h
  · intro h
    rw [ofArg, stopOption?_of_startsWith h (by decide)]
    exact if_pos h

theorem ofArg_eq_operand_iff {a : String} : ofArg arg = .operand a ↔
    a = arg ∧ Text.startsWith "-" arg = false ∧ Text.startsWith "@" arg = false := by
  constructor
  · intro h
    have hlooks := looksLike_ofArg arg
    rw [h] at hlooks
    cases hlooks with
    | operand hdash hfile => exact ⟨rfl, hdash, hfile⟩
  · rintro ⟨rfl, hdash, hfile⟩
    -- whatever else has a meaning begins with a dash
    have hstop : ∀ option ∈ stopOptions, option.1 ≠ a := by
      rintro option hoption rfl
      have hall : ∀ option ∈ stopOptions, Text.startsWith "-" option.1 = true := by decide
      simp [hall option hoption] at hdash
    have hstdin : a ≠ "-" := by
      rintro rfl
      exact absurd hdash (by decide)
    have hattached : ∀ start, Text.startsWith "-" start = true →
        Text.stringAfter? start a = none := by
      intro start hstart
      refine stringAfter?_eq_none (Bool.eq_false_iff.mpr fun hbegins => ?_)
      simp [startsWith_trans hstart hbegins] at hdash
    rw [ofArg, stopOption?_eq_none hstop]
    dsimp only
    rw [ofPlainArg, if_neg (by simp [hfile]), if_neg hstdin, hattached "-o" (by decide),
      hattached "-x" (by decide)]
    exact if_neg (by simp [hdash])

theorem ofArg_eq_language_iff : ofArg arg = .language value ↔
    Text.stringAfter? "-x" arg = some value := by
  constructor
  · intro h
    have hlooks := looksLike_ofArg arg
    rw [h] at hlooks
    cases hlooks with
    | language _ h => exact h
  · intro h
    have hx : Text.startsWith "-x" arg = true := by
      rw [← stringAfter?_isSome, h]
      rfl
    have hstdin : arg ≠ "-" := by
      rintro rfl
      exact absurd hx (by decide)
    have hother : ∀ start, start.toList.length ≤ 2 → Text.startsWith start "-x" = false →
        Text.startsWith start arg = false := by
      intro start hle hno
      refine Bool.eq_false_iff.mpr fun hbegins => ?_
      simp [startsWith_of_both hbegins hx hle] at hno
    rw [ofArg, stopOption?_of_startsWith hx (by decide)]
    dsimp only
    rw [ofPlainArg, if_neg (by simp [hother "@" (by decide) (by decide)]), if_neg hstdin,
      stringAfter?_eq_none (hother "-o" (by decide) (by decide)), h]

theorem ofOption_cases (option value : String) :
    ofOption option value = .output value ∨ ofOption option value = .language value ∨
      ofOption option value = .nothing := by
  unfold ofOption
  split
  · exact .inl rfl
  · split
    · exact .inr (.inl rfl)
    · exact .inr (.inr rfl)

theorem ofOption_ne_stop (option value : String) (rank : Nat) (mode : InvocationMode) :
    ofOption option value ≠ .stop rank mode := by
  rcases ofOption_cases option value with h | h | h <;> simp [h]

end ArgMeaning

end Text

/-! ## Tokens by their text -/

namespace ArgToken

/-- An argument that stands for the contents of a file. -/
def isResponseFile : ArgToken → Bool
  | single arg => Text.startsWith "@" arg
  | _ => false

/-- An option that lacks its value. -/
def isDangling : ArgToken → Bool
  | dangling _ => true
  | _ => false

/-- The value of a language option, which is the next argument or attached. -/
def languageOption? : ArgToken → Option String
  | pair option value => if option = "-x" then some value else none
  | single arg => Text.stringAfter? "-x" arg
  | dangling _ => none

/-- An argument that is neither an option nor a response file. -/
def operand? : ArgToken → Option String
  | single arg => if Text.startsWith "-" arg || Text.startsWith "@" arg then none else some arg
  | _ => none

variable {t : ArgToken}

theorem meaning_eq_stop_iff {rank : Nat} {mode : InvocationMode} :
    t.meaning = .stop rank mode ↔ ∃ arg, t = .single arg ∧ (arg, rank, mode) ∈ stopOptions := by
  cases t with
  | pair option value => simp [meaning, ArgMeaning.ofOption_ne_stop]
  | single arg => simp [meaning, ArgMeaning.ofArg_eq_stop_iff]
  | dangling option => simp [meaning]

/-- Only `-c` asks for an object file, and every other stop has a higher rank. -/
theorem rank_of_meaning {rank : Nat} (h : t.meaning = .stop rank .compile) : rank = 1 := by
  obtain ⟨arg, -, harg⟩ := meaning_eq_stop_iff.mp h
  exact (compile_of_mem_stopOptions harg).2

theorem meaning_eq_stdin_iff : t.meaning = .stdin ↔ t = .single "-" := by
  cases t with
  | pair option value =>
    rcases ArgMeaning.ofOption_cases option value with h | h | h <;> simp [meaning, h]
  | single arg => simp [meaning, ArgMeaning.ofArg_eq_stdin_iff]
  | dangling option => simp [meaning]

theorem meaning_eq_invalid_iff :
    t.meaning = .invalid ↔ t.isResponseFile = true ∨ t.isDangling = true := by
  cases t with
  | pair option value =>
    rcases ArgMeaning.ofOption_cases option value with h | h | h <;>
      simp [meaning, h, isResponseFile, isDangling]
  | single arg => simp [meaning, ArgMeaning.ofArg_eq_invalid_iff, isResponseFile, isDangling]
  | dangling option => simp [meaning, isDangling]

theorem meaning_eq_language_iff {value : String} :
    t.meaning = .language value ↔ t.languageOption? = some value := by
  cases t with
  | pair option other =>
    simp only [meaning, ArgMeaning.ofOption, languageOption?]
    split
    · rename_i houtput
      simp [houtput]
    · split <;> simp
  | single arg => simp [meaning, ArgMeaning.ofArg_eq_language_iff, languageOption?]
  | dangling option => simp [meaning, languageOption?]

theorem meaning_eq_operand_iff {arg : String} :
    t.meaning = .operand arg ↔ t.operand? = some arg := by
  cases t with
  | pair option value =>
    rcases ArgMeaning.ofOption_cases option value with h | h | h <;> simp [meaning, h, operand?]
  | single other =>
    simp only [meaning, ArgMeaning.ofArg_eq_operand_iff, operand?]
    split
    · rename_i h
      simp only [reduceCtorEq, iff_false, not_and]
      rintro - hdash hfile
      simp [hdash, hfile] at h
    · rename_i h
      simp only [Bool.or_eq_true, not_or, Bool.not_eq_true] at h
      simp [h, eq_comm]
  | dangling option => simp [meaning, operand?]

theorem languageOption?_eq_none (h : ∀ value, t.meaning ≠ .language value) :
    t.languageOption? = none :=
  Option.eq_none_iff_forall_ne_some.mpr fun value hvalue =>
    h value (meaning_eq_language_iff.mpr hvalue)

theorem operand?_eq_none (h : ∀ arg, t.meaning ≠ .operand arg) : t.operand? = none :=
  Option.eq_none_iff_forall_ne_some.mpr fun arg harg => h arg (meaning_eq_operand_iff.mpr harg)

end ArgToken

/-! ## What a token leaves in a reading -/

/-- The rank of a stop; anything else has none. -/
def ArgMeaning.rank : ArgMeaning → Nat
  | .stop rank _ => rank
  | _ => 0

namespace Invocation.Reading

variable (r : Reading) (m : ArgMeaning) (t : ArgToken)

/-- The source file that an operand is at this point. -/
def source? (arg : String) : Option SourceFile :=
  (r.forced.getD (Language.ofPath? arg)).map (⟨arg, ·⟩)

theorem operand_eq (arg : String) :
    r.operand arg = { r with sources := r.sources ++ (r.source? arg).toList } := by
  unfold operand source?
  cases r.forced.getD (Language.ofPath? arg) with
  | some language => rfl
  | none =>
    show r = { r with sources := r.sources ++ [] }
    rw [List.append_nil]

theorem invalid_note : (r.note m).invalid = (r.invalid || decide (m = .invalid)) := by
  cases m with
  | stop rank mode =>
    unfold note
    dsimp only
    split <;> simp
  | operand arg => simp [note, operand_eq]
  | _ => simp [note]

/-- One token that cannot be judged makes a command line invalid. -/
theorem invalid_foldl (tokens : List ArgToken) :
    (tokens.foldl token r).invalid = (r.invalid || tokens.any fun t => t.meaning = .invalid) := by
  induction tokens generalizing r with
  | nil => simp
  | cons t rest ih => rw [List.foldl_cons, ih, token_eq_note, invalid_note, List.any_cons, Bool.or_assoc]

theorem stdin_note : (r.note m).stdin = (r.stdin || decide (m = .stdin)) := by
  cases m with
  | stop rank mode =>
    unfold note
    dsimp only
    split <;> simp
  | operand arg => simp [note, operand_eq]
  | _ => simp [note]

theorem stdin_foldl (tokens : List ArgToken) :
    (tokens.foldl token r).stdin = (r.stdin || tokens.any fun t => t.meaning = .stdin) := by
  induction tokens generalizing r with
  | nil => simp
  | cons t rest ih => rw [List.foldl_cons, ih, token_eq_note, stdin_note, List.any_cons, Bool.or_assoc]

theorem rank_note : (r.note m).rank = max r.rank m.rank := by
  cases m with
  | stop rank mode =>
    unfold note ArgMeaning.rank
    dsimp only
    split
    · show rank = max r.rank rank
      omega
    · omega
  | operand arg => simp [note, operand_eq, ArgMeaning.rank]
  | _ => simp [note, ArgMeaning.rank]

theorem forced_token :
    (r.token t).forced = (t.languageOption?.map forcedBy).getD r.forced := by
  rw [token_eq_note]
  cases hm : t.meaning with
  | language value =>
    rw [ArgToken.meaning_eq_language_iff.mp hm]
    rfl
  | stop rank mode =>
    rw [ArgToken.languageOption?_eq_none (by simp [hm])]
    unfold note
    dsimp only
    split <;> rfl
  | operand arg =>
    rw [ArgToken.languageOption?_eq_none (by simp [hm]), note, operand_eq]
    rfl
  | _ =>
    rw [ArgToken.languageOption?_eq_none (by simp [hm])]
    rfl

theorem sources_token :
    (r.token t).sources = r.sources ++ (t.operand?.bind r.source?).toList := by
  rw [token_eq_note]
  cases hm : t.meaning with
  | operand arg =>
    rw [ArgToken.meaning_eq_operand_iff.mp hm, note, operand_eq]
    rfl
  | stop rank mode =>
    rw [ArgToken.operand?_eq_none (by simp [hm])]
    unfold note
    dsimp only
    split <;> exact (List.append_nil _).symm
  | _ =>
    rw [ArgToken.operand?_eq_none (by simp [hm])]
    exact (List.append_nil _).symm

end Invocation.Reading

/-! ## Tokens and their arguments -/

namespace ArgToken

/-- The arguments of a token. -/
def args : ArgToken → List String
  | pair option value => [option, value]
  | single arg => [arg]
  | dangling option => [option]

/-- A token that a command line can hold short of its end. -/
def Closed : ArgToken → Prop
  | pair option _ => takesValue option = true
  | single arg => takesValue arg = false
  | dangling _ => False

theorem ofArgs_single {arg : String} (h : takesValue arg = false) (rest : List String) :
    ofArgs (arg :: rest) = .single arg :: ofArgs rest := by
  cases rest with
  | nil => simp [ofArgs, h]
  | cons next rest => simp [ofArgs, h]

theorem ofArgs_pair {option : String} (h : takesValue option = true) (value : String)
    (rest : List String) : ofArgs (option :: value :: rest) = .pair option value :: ofArgs rest := by
  simp [ofArgs, h]

/-- The arguments of closed tokens are read as these tokens. -/
theorem ofArgs_flatMap_args (tokens : List ArgToken) (h : ∀ t ∈ tokens, t.Closed) :
    ofArgs (tokens.flatMap args) = tokens := by
  induction tokens with
  | nil => rfl
  | cons t rest ih =>
    have ht : t.Closed := h t List.mem_cons_self
    have hrest := ih fun other hother => h other (List.mem_cons_of_mem _ hother)
    cases t with
    | pair option value =>
      show ofArgs (option :: value :: rest.flatMap args) = _
      rw [ofArgs_pair ht, hrest]
    | single arg =>
      show ofArgs (arg :: rest.flatMap args) = _
      rw [ofArgs_single ht, hrest]
    | dangling option => exact ht.elim

/-- A command line is closed tokens, and their arguments, unless its last option lacks a value. -/
theorem closed_or_dangling (line : List String) :
    (∃ option, .dangling option ∈ ofArgs line) ∨
      (∀ t ∈ ofArgs line, t.Closed) ∧ (ofArgs line).flatMap args = line := by
  fun_induction ofArgs line with
  | case1 => exact .inr ⟨by simp, rfl⟩
  | case2 arg harg => exact .inl ⟨arg, List.mem_singleton_self _⟩
  | case3 arg harg => exact .inr ⟨by simpa [Closed] using harg, rfl⟩
  | case4 arg next rest harg ih =>
    refine ih.imp (fun ⟨option, h⟩ => ⟨option, List.mem_cons_of_mem _ h⟩) fun ⟨hclosed, hargs⟩ => ?_
    refine ⟨List.forall_mem_cons.mpr ⟨harg, hclosed⟩, ?_⟩
    rw [List.flatMap_cons, hargs]
    rfl
  | case5 arg next rest harg ih =>
    refine ih.imp (fun ⟨option, h⟩ => ⟨option, List.mem_cons_of_mem _ h⟩) fun ⟨hclosed, hargs⟩ => ?_
    refine ⟨List.forall_mem_cons.mpr ⟨by simpa [Closed] using harg, hclosed⟩, ?_⟩
    rw [List.flatMap_cons, hargs]
    rfl

end ArgToken

end Offload
