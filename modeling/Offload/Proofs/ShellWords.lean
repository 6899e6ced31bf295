import Offload.Proofs.LoggedLine

/-!
# Reading a logged line back

In a line as a shell reads it, unquoted spaces separate words, single quotes make everything up to the
next one literal, and an unquoted backslash makes the character after it literal (`ShellWords.words?`).
Read so, the line for a command line gives its masked arguments, the empty ones and those with blanks
and quotes among them, exactly if no masked argument without blanks contains a quote or a backslash
(`words?_ofArgs_iff`). So the line of such a command line hides the values of credentials and loses
nothing else (`ofArgs_eq_iff`).

An argument that is read back is the word of its own piece of the line (`readAll_quote`). Any other is
read short of a character there (`exists_inside_readAll_quote`), and what follows does not make up for
it: the next character is a space, which ends the word or goes into it (`Inside.words?_space_ne`).
-/

namespace Offload

namespace ShellWords

/-! ## The words of a line -/

/-- Where in a line a reader is, with what it has read of the word there. -/
inductive Place
  | between
  | unquoted (word : List Char)
  | quoted (word : List Char)
  | escaped (word : List Char)

/-- What has been read of a word. -/
def Place.word : Place → List Char
  | .between => []
  | .unquoted w | .quoted w | .escaped w => w

/-- The place behind an unquoted character that is not a space. -/
def Place.behind (w : List Char) (c : Char) : Place :=
  if c = '\'' then .quoted w else if c = '\\' then .escaped w else .unquoted (w ++ [c])

/-- A reader of a line, with the words that have ended. -/
structure Reader where
  ended : List (List Char)
  place : Place

namespace Reader

/-- Reading one character. -/
def read (r : Reader) (c : Char) : Reader :=
  match r.place with
  | .between => if c = ' ' then r else ⟨r.ended, .behind [] c⟩
  | .unquoted w => if c = ' ' then ⟨r.ended ++ [w], .between⟩ else ⟨r.ended, .behind w c⟩
  | .quoted w => if c = '\'' then ⟨r.ended, .unquoted w⟩ else ⟨r.ended, .quoted (w ++ [c])⟩
  | .escaped w => ⟨r.ended, .unquoted (w ++ [c])⟩

/-- Reading a text. -/
def readAll (r : Reader) (text : List Char) : Reader := text.foldl read r

/-- The words at the end of the line; `none` if quotes or a backslash ask for more. -/
def words? (r : Reader) : Option (List (List Char)) :=
  match r.place with
  | .between => some r.ended
  | .unquoted w => some (r.ended ++ [w])
  | .quoted _ | .escaped _ => none

end Reader

/-- The words of a line. -/
def words? (line : List Char) : Option (List (List Char)) :=
  (Reader.readAll ⟨[], .between⟩ line).words?

/-! ## Reading on -/

namespace Reader

variable {r : Reader} {ws vs : List (List Char)} {w text : List Char} {c : Char} {n : Nat}

theorem readAll_cons (r : Reader) (c : Char) (text : List Char) :
    r.readAll (c :: text) = (r.read c).readAll text := rfl

theorem readAll_append (r : Reader) (text more : List Char) :
    r.readAll (text ++ more) = (r.readAll text).readAll more :=
  List.foldl_append

/-- In a word, a space may end it and a quote or a backslash may leave it as it is; any other step adds
the character to it. -/
theorem read_cases (hplace : r.place ≠ .between) (c : Char) :
    (c = ' ' ∧ r.read c = ⟨r.ended ++ [r.place.word], .between⟩) ∨
      ∃ p, r.read c = ⟨r.ended, p⟩ ∧ p ≠ .between ∧
        ((c = '\'' ∨ c = '\\') ∧ p.word = r.place.word ∨ p.word = r.place.word ++ [c]) := by
  obtain ⟨ended, place⟩ := r
  cases place with
  | between => exact absurd rfl hplace
  | unquoted w =>
    by_cases hc : c = ' '
    · exact .inl ⟨hc, if_pos hc⟩
    · refine .inr ⟨.behind w c, if_neg hc, ?_⟩
      unfold Place.behind
      split
      case isTrue hquote => exact ⟨nofun, .inl ⟨.inl hquote, rfl⟩⟩
      case isFalse =>
        split
        case isTrue hbackslash => exact ⟨nofun, .inl ⟨.inr hbackslash, rfl⟩⟩
        case isFalse => exact ⟨nofun, .inr rfl⟩
  | quoted w =>
    by_cases hc : c = '\''
    · exact .inr ⟨.unquoted w, if_pos hc, nofun, .inl ⟨.inl hc, rfl⟩⟩
    · exact .inr ⟨.quoted (w ++ [c]), if_neg hc, nofun, .inr rfl⟩
  | escaped w => exact .inr ⟨.unquoted (w ++ [c]), rfl, nofun, .inr rfl⟩

/-- Words that have ended are not changed. -/
theorem ended_read (r : Reader) (c : Char) : r.ended <+: (r.read c).ended := by
  by_cases hplace : r.place = .between
  · unfold read
    rw [hplace]
    dsimp only
    split <;> exact List.prefix_rfl
  · obtain ⟨-, hread⟩ | ⟨p, hread, -⟩ := read_cases hplace c
    · rw [hread]
      exact List.prefix_append r.ended [r.place.word]
    · simp [hread]

theorem ended_readAll (r : Reader) (text : List Char) : r.ended <+: (r.readAll text).ended := by
  induction text generalizing r with
  | nil => exact List.prefix_rfl
  | cons c text ih => exact (ended_read r c).trans (ih (r.read c))

/-- The end of the line ends the word. -/
theorem eq_of_words? (hplace : r.place ≠ .between) (h : r.words? = some vs) :
    vs = r.ended ++ [r.place.word] := by
  obtain ⟨ended, place⟩ := r
  cases place with
  | between => exact absurd rfl hplace
  | unquoted w => exact (Option.some.inj h).symm
  | quoted w => cases h
  | escaped w => cases h

theorem ended_words? (h : r.words? = some vs) : r.ended <+: vs := by
  by_cases hplace : r.place = .between
  · unfold words? at h
    rw [hplace] at h
    obtain rfl := Option.some.inj h
    exact List.prefix_rfl
  · rw [eq_of_words? hplace h]
    exact List.prefix_append r.ended [r.place.word]

/-- What has been read of a word begins the word that the line has in its place. -/
theorem words?_readAll (hplace : r.place ≠ .between) (h : (r.readAll text).words? = some vs) :
    ∃ tail more, vs = r.ended ++ (r.place.word ++ tail) :: more := by
  induction text generalizing r with
  | nil =>
    refine ⟨[], [], ?_⟩
    rw [List.append_nil]
    exact eq_of_words? hplace h
  | cons c text ih =>
    rw [readAll_cons] at h
    obtain ⟨-, hread⟩ | ⟨p, hread, hp, hword⟩ := read_cases hplace c
    · rw [hread] at h
      obtain ⟨more, rfl⟩ := (ended_readAll _ text).trans (ended_words? h)
      refine ⟨[], more, ?_⟩
      rw [List.append_nil, List.append_assoc]
      rfl
    · rw [hread] at h
      obtain ⟨tail, more, rfl⟩ := ih hp h
      obtain ⟨-, hword⟩ | hword := hword
      · exact ⟨tail, more, by rw [hword]⟩
      · refine ⟨c :: tail, more, ?_⟩
        rw [hword, List.append_assoc]
        rfl

/-! ## A text without spaces -/

theorem readAll_between (hne : text ≠ []) (hspace : ' ' ∉ text) (ws : List (List Char)) :
    readAll ⟨ws, .between⟩ text = readAll ⟨ws, .unquoted []⟩ text := by
  cases text with
  | nil => exact absurd rfl hne
  | cons c text =>
    have hc : c ≠ ' ' := fun h => hspace (h ▸ List.mem_cons_self)
    rw [readAll_cons, readAll_cons]
    congr 1
    exact (if_neg hc).trans (if_neg hc).symm

theorem read_unquoted (hspace : c ≠ ' ') (hquote : c ≠ '\'') (hbackslash : c ≠ '\\')
    (ws : List (List Char)) (w : List Char) :
    read ⟨ws, .unquoted w⟩ c = ⟨ws, .unquoted (w ++ [c])⟩ := by
  unfold read Place.behind
  dsimp only
  rw [if_neg hspace, if_neg hquote, if_neg hbackslash]

/-- A text with nothing to escape stands for itself. -/
theorem readAll_unquoted (hspace : ' ' ∉ text) (hquote : '\'' ∉ text) (hbackslash : '\\' ∉ text)
    (ws : List (List Char)) (w : List Char) :
    readAll ⟨ws, .unquoted w⟩ text = ⟨ws, .unquoted (w ++ text)⟩ := by
  induction text generalizing w with
  | nil => rw [List.append_nil]; rfl
  | cons c text ih =>
    rw [List.mem_cons, not_or] at hspace hquote hbackslash
    rw [readAll_cons,
      read_unquoted (Ne.symm hspace.1) (Ne.symm hquote.1) (Ne.symm hbackslash.1),
      ih hspace.2 hquote.2 hbackslash.2, List.append_assoc]
    rfl

/-- A reader in the word after `ws`, of which it has read `n` characters at most. -/
structure Inside (ws : List (List Char)) (n : Nat) (r : Reader) : Prop where
  ended : r.ended = ws
  place : r.place ≠ .between
  length : r.place.word.length ≤ n

theorem Inside.read (h : r.Inside ws n) (hc : c ≠ ' ') : (r.read c).Inside ws (n + 1) := by
  obtain ⟨hspace, -⟩ | ⟨p, hread, hp, hword⟩ := read_cases h.place c
  · exact absurd hspace hc
  · rw [hread]
    refine ⟨h.ended, hp, ?_⟩
    have hlength := h.length
    obtain ⟨-, hword⟩ | hword := hword
    · simp only [hword]
      omega
    · simp only [hword, List.length_append, List.length_singleton]
      omega

theorem Inside.readAll (h : r.Inside ws n) (hspace : ' ' ∉ text) :
    (r.readAll text).Inside ws (n + text.length) := by
  induction text generalizing r n with
  | nil => exact h
  | cons c text ih =>
    rw [List.mem_cons, not_or] at hspace
    rw [readAll_cons, List.length_cons, Nat.add_comm text.length 1, ← Nat.add_assoc]
    exact ih (h.read (Ne.symm hspace.1)) hspace.2

/-- A text with a quote or a backslash in it is read short of a character. -/
theorem exists_inside_readAll (hspace : ' ' ∉ text) (hlost : '\'' ∈ text ∨ '\\' ∈ text)
    (ws : List (List Char)) (w : List Char) :
    ∃ n < w.length + text.length, (readAll ⟨ws, .unquoted w⟩ text).Inside ws n := by
  induction text generalizing w with
  | nil => simp at hlost
  | cons c text ih =>
    rw [List.mem_cons, not_or] at hspace
    rw [readAll_cons]
    by_cases hc : c = '\'' ∨ c = '\\'
    · -- the first one adds nothing to the word
      have hinside : (read ⟨ws, .unquoted w⟩ c).Inside ws w.length := by
        obtain rfl | rfl := hc
        · exact ⟨rfl, nofun, Nat.le_refl _⟩
        · exact ⟨rfl, nofun, Nat.le_refl _⟩
      exact ⟨_, by rw [List.length_cons]; omega, hinside.readAll hspace.2⟩
    · rw [not_or] at hc
      have hlater : '\'' ∈ text ∨ '\\' ∈ text := by
        simpa [Ne.symm hc.1, Ne.symm hc.2] using hlost
      rw [read_unquoted (Ne.symm hspace.1) hc.1 hc.2]
      obtain ⟨n, hn, hinside⟩ := ih hspace.2 hlater (w ++ [c])
      refine ⟨n, ?_, hinside⟩
      rw [List.length_append, List.length_singleton] at hn
      rw [List.length_cons]
      omega

theorem Inside.word_ne (h : r.Inside ws n) (hn : n < text.length) : r.place.word ≠ text := by
  intro hword
  have hlength := h.length
  rw [hword] at hlength
  omega

/-- A word that is shorter than a text does not become the text at the end of the line. -/
theorem Inside.words?_ne (h : r.Inside ws n) (hn : n < text.length) (more : List (List Char)) :
    r.words? ≠ some (ws ++ text :: more) := by
  intro hwords
  have heq := eq_of_words? h.place hwords
  rw [h.ended, List.append_cancel_left_eq, List.cons.injEq] at heq
  exact h.word_ne hn heq.1.symm

/-- A word that is shorter than a text without spaces does not become the text behind a space. -/
theorem Inside.words?_space_ne (h : r.Inside ws n) (hn : n < text.length) (hspace : ' ' ∉ text)
    (rest : List Char) (more : List (List Char)) :
    (r.readAll (' ' :: rest)).words? ≠ some (ws ++ text :: more) := by
  intro hwords
  rw [readAll_cons] at hwords
  obtain ⟨-, hread⟩ | ⟨p, hread, hp, ⟨hescape, -⟩ | hword⟩ := read_cases h.place ' '
  · rw [hread, h.ended] at hwords
    obtain ⟨tail, heq⟩ := (ended_readAll _ rest).trans (ended_words? hwords)
    rw [List.append_assoc, List.append_cancel_left_eq, List.singleton_append,
      List.cons.injEq] at heq
    exact h.word_ne hn heq.1
  · exact absurd hescape (by decide)
  · -- in quotes or behind a backslash, the space goes into the word
    rw [hread, h.ended] at hwords
    obtain ⟨tail, others, heq⟩ := words?_readAll (r := ⟨ws, p⟩) hp hwords
    rw [List.append_cancel_left_eq, List.cons.injEq] at heq
    rw [heq.1, hword] at hspace
    simp at hspace

end Reader

end ShellWords

/-! ## The words of a logged line -/

namespace LoggedLine

open ShellWords

/-- An argument that has nothing to escape, or has blanks and so stands in quotes. -/
def Legible (arg : List Char) : Prop :=
  (∀ c ∈ arg, Text.isBlank c = false) → '\'' ∉ arg ∧ '\\' ∉ arg

variable {arg : List Char}

/-- An empty argument and one with blanks stand between quotes; any other is its own word. -/
theorem quote_cases (arg : List Char) :
    (arg = [] ∨ ∃ c ∈ arg, Text.isBlank c = true) ∧
        quote arg = '\'' :: arg.flatMap quoteInside ++ ['\''] ∨
      arg ≠ [] ∧ (∀ c ∈ arg, Text.isBlank c = false) ∧ quote arg = arg := by
  unfold quote
  split
  case isTrue hempty =>
    rw [List.isEmpty_iff] at hempty
    subst hempty
    exact .inl ⟨.inl rfl, rfl⟩
  case isFalse hne =>
    rw [List.isEmpty_iff] at hne
    split
    case isTrue hblank => exact .inl ⟨.inr (List.any_eq_true.mp hblank), rfl⟩
    case isFalse hblank => exact .inr ⟨hne, by simpa using hblank, rfl⟩

theorem space_notMem (hblank : ∀ c ∈ arg, Text.isBlank c = false) : ' ' ∉ arg := by
  intro hmem
  exact absurd (hblank ' ' hmem) (by decide)

/-- Between quotes a character is what it is quoted as. -/
theorem readAll_quoteInside (ws : List (List Char)) (w : List Char) (c : Char) :
    Reader.readAll ⟨ws, .quoted w⟩ (quoteInside c) = ⟨ws, .quoted (w ++ [c])⟩ := by
  unfold quoteInside
  split
  case isTrue hc =>
    subst hc
    rfl
  case isFalse hc =>
    show Reader.read ⟨ws, .quoted w⟩ c = _
    exact if_neg hc

theorem readAll_flatMap_quoteInside (ws : List (List Char)) (w text : List Char) :
    Reader.readAll ⟨ws, .quoted w⟩ (text.flatMap quoteInside) = ⟨ws, .quoted (w ++ text)⟩ := by
  induction text generalizing w with
  | nil => rw [List.append_nil]; rfl
  | cons c text ih =>
    rw [List.flatMap_cons, Reader.readAll_append, readAll_quoteInside, ih, List.append_assoc]
    rfl

/-- The word of a legible argument is the argument. -/
theorem readAll_quote (h : Legible arg) (ws : List (List Char)) :
    Reader.readAll ⟨ws, .between⟩ (quote arg) = ⟨ws, .unquoted arg⟩ := by
  obtain ⟨-, hquote⟩ | ⟨hne, hblank, hquote⟩ := quote_cases arg
  · rw [hquote, Reader.readAll_append]
    show Reader.readAll (Reader.readAll ⟨ws, .quoted []⟩ (arg.flatMap quoteInside)) ['\''] = _
    rw [readAll_flatMap_quoteInside]
    rfl
  · obtain ⟨hquotes, hbackslash⟩ := h hblank
    have hspace := space_notMem hblank
    rw [hquote, Reader.readAll_between hne hspace,
      Reader.readAll_unquoted hspace hquotes hbackslash]
    rfl

/-- The word of any other argument is short of a character. -/
theorem exists_inside_readAll_quote (h : ¬Legible arg) (ws : List (List Char)) :
    ' ' ∉ arg ∧ ∃ n < arg.length, (Reader.readAll ⟨ws, .between⟩ (quote arg)).Inside ws n := by
  rw [Legible, Classical.not_imp, not_and_or, Classical.not_not, Classical.not_not] at h
  obtain ⟨hblank, hlost⟩ := h
  have hspace := space_notMem hblank
  refine ⟨hspace, ?_⟩
  obtain ⟨rfl | ⟨c, hc, hc'⟩, -⟩ | ⟨hne, -, hquote⟩ := quote_cases arg
  · simp at hlost
  · exact absurd (hblank c hc) (by simp [hc'])
  · rw [hquote, Reader.readAll_between hne hspace]
    obtain ⟨n, hn, hinside⟩ := Reader.exists_inside_readAll hspace hlost ws []
    exact ⟨n, by simpa using hn, hinside⟩

theorem joinWords_cons_cons (w v : List Char) (rest : List (List Char)) :
    joinWords (w :: v :: rest) = w ++ ' ' :: joinWords (v :: rest) := rfl

/-- The words of arguments with spaces between them are the arguments exactly if all are legible. -/
theorem words?_joinWords_iff (args ws : List (List Char)) :
    (Reader.readAll ⟨ws, .between⟩ (joinWords (args.map quote))).words? = some (ws ++ args) ↔
      ∀ arg ∈ args, Legible arg := by
  induction args generalizing ws with
  | nil => simp [joinWords, Reader.readAll, Reader.words?]
  | cons arg args ih =>
    by_cases h : Legible arg
    · rw [List.forall_mem_cons, and_iff_right h]
      cases args with
      | nil =>
        refine iff_of_true ?_ nofun
        rw [List.map_singleton, joinWords, readAll_quote h]
        rfl
      | cons next args =>
        rw [List.append_cons, ← ih (ws ++ [arg]), List.map_cons, List.map_cons,
          joinWords_cons_cons, Reader.readAll_append, readAll_quote h, Reader.readAll_cons]
        rfl
    · -- where this argument should stand another word stands, whatever the other arguments are
      refine iff_of_false ?_ fun hall => h (hall arg List.mem_cons_self)
      obtain ⟨hspace, n, hn, hinside⟩ := exists_inside_readAll_quote h ws
      cases args with
      | nil => exact hinside.words?_ne hn []
      | cons next args =>
        rw [List.map_cons, List.map_cons, joinWords_cons_cons, Reader.readAll_append]
        exact hinside.words?_space_ne hn hspace _ _

theorem toList_ofArgs (args : List String) :
    (ofArgs args).toList = joinWords ((mask (args.map String.toList)).map quote) :=
  String.toList_ofList

/-- A logged line is read back as the masked arguments exactly if all of them are legible. -/
theorem words?_ofArgs_iff (args : List String) :
    words? (ofArgs args).toList = some (mask (args.map String.toList)) ↔
      ∀ arg ∈ mask (args.map String.toList), Legible arg := by
  rw [toList_ofArgs]
  exact words?_joinWords_iff _ []

/-- An empty argument, one with blanks, one with blanks and a quote, and a quote that is hidden. -/
example : words? (ofArgs ["cc", "", "-DMSG=a  b", "it\x27s here", "-D", "Token=it\x27s"]).toList =
    some (["cc", "", "-DMSG=a  b", "it\x27s here", "-D", "Token=***"].map String.toList) := by decide

/-- The line of legible arguments hides the values of credentials and nothing else. -/
theorem ofArgs_eq_iff {xs ys : List String} (hxs : ∀ arg ∈ mask (xs.map String.toList), Legible arg)
    (hys : ∀ arg ∈ mask (ys.map String.toList), Legible arg) :
    ofArgs xs = ofArgs ys ↔ AgreeButForSecrets (xs.map String.toList) (ys.map String.toList) := by
  constructor
  · intro h
    have hxs' := (words?_joinWords_iff (mask (xs.map String.toList)) []).mpr hxs
    have hys' := (words?_joinWords_iff (mask (ys.map String.toList)) []).mpr hys
    rw [← toList_ofArgs] at hxs' hys'
    rw [h, hys'] at hxs'
    exact agreeButForSecrets_of_mask (Option.some.inj hxs').symm
  · intro h
    rw [ofArgs, ofArgs, h.mask_eq]

/-- With quotes in arguments without blanks, two arguments have the line of one. -/
example : ofArgs ["\x27a", "b\x27"] = ofArgs ["a b"] := by decide

end LoggedLine

end Offload
