import Offload.Path
import Mathlib.Tactic.Common

/-!
# File names and their extensions

A file name is a path of one component. Its extension is cut off at the last dot, unless that dot is
at the front.
-/

namespace Offload

namespace Text

variable {sep : Char} {s before after : List Char}

theorem cutAt?_eq_none_iff : cutAt? sep s = none ↔ sep ∉ s := by
  induction s with
  | nil => simp [cutAt?]
  | cons c rest ih =>
    rw [cutAt?]
    split
    case isTrue hc => simp [hc]
    case isFalse hc =>
      rw [Option.map_eq_none_iff, ih, List.mem_cons, not_or, and_iff_right (Ne.symm hc)]

theorem cutAt?_append (h : sep ∉ before) :
    cutAt? sep (before ++ sep :: after) = some (before, after) := by
  induction before with
  | nil => rw [List.nil_append, cutAt?, if_pos rfl]
  | cons c rest ih =>
    rw [List.mem_cons, not_or] at h
    rw [List.cons_append, cutAt?, if_neg (Ne.symm h.1), ih h.2]
    rfl

theorem cutAt?_eq_some_iff :
    cutAt? sep s = some (before, after) ↔ s = before ++ sep :: after ∧ sep ∉ before := by
  constructor
  · intro h
    by_cases hs : sep ∈ s
    · obtain ⟨front, back, rfl, hfront⟩ := List.eq_append_cons_of_mem hs
      rw [cutAt?_append hfront] at h
      cases h
      exact ⟨rfl, hfront⟩
    · rw [cutAt?_eq_none_iff.mpr hs] at h
      cases h
  · rintro ⟨rfl, h⟩
    exact cutAt?_append h

theorem splitAt_of_notMem (h : sep ∉ s) : splitAt sep s = [s] := by
  induction s with
  | nil => rfl
  | cons c rest ih =>
    rw [List.mem_cons, not_or] at h
    rw [splitAt, if_neg (Ne.symm h.1), ih h.2]

theorem splitAt_ne_nil (sep : Char) (s : List Char) : splitAt sep s ≠ [] := by
  cases s with
  | nil => exact List.cons_ne_nil _ _
  | cons c rest =>
    rw [splitAt]
    split
    · exact List.cons_ne_nil _ _
    · split <;> exact List.cons_ne_nil _ _

/-- A separator ends a piece. -/
theorem splitAt_append (sep : Char) (s t : List Char) :
    splitAt sep (s ++ sep :: t) = splitAt sep s ++ splitAt sep t := by
  induction s with
  | nil =>
    rw [List.nil_append, splitAt, splitAt, if_pos rfl]
    rfl
  | cons c rest ih =>
    rw [List.cons_append, splitAt, splitAt, ih]
    by_cases hc : c = sep
    · rw [if_pos hc, if_pos hc, List.cons_append]
    · rw [if_neg hc, if_neg hc]
      obtain ⟨first, others, hpieces⟩ := List.exists_cons_of_ne_nil (splitAt_ne_nil sep rest)
      rw [hpieces]
      rfl

/-- No piece has a separator in it. -/
theorem notMem_of_mem_splitAt {piece : List Char} (h : piece ∈ splitAt sep s) : sep ∉ piece := by
  induction s generalizing piece with
  | nil =>
    rw [List.mem_singleton.mp h]
    exact List.not_mem_nil
  | cons c rest ih =>
    rw [splitAt] at h
    split at h
    case isTrue hc =>
      obtain rfl | hpiece := List.mem_cons.mp h
      · exact List.not_mem_nil
      · exact ih hpiece
    case isFalse hc =>
      -- the first piece of the rest takes the character in front of it
      cases hpieces : splitAt sep rest with
      | nil =>
        rw [hpieces, List.mem_singleton] at h
        rw [h, List.mem_singleton]
        exact Ne.symm hc
      | cons first others =>
        rw [hpieces] at h ih
        obtain rfl | hpiece := List.mem_cons.mp h
        · rw [List.mem_cons, not_or]
          exact ⟨Ne.symm hc, ih List.mem_cons_self⟩
        · exact ih (List.mem_cons_of_mem first hpiece)

end Text

namespace Path

variable {path name stem ext : List Char}

/-! ## Joined paths -/

theorem parts_append (base path : List Char) :
    parts (base ++ '/' :: path) = parts base ++ parts path := by
  rw [parts, Text.splitAt_append, List.filter_append, parts, parts]

theorem parts_of_bare (hne : name ≠ []) (h : '/' ∉ name) : parts name = [name] := by
  rw [parts, Text.splitAt_of_notMem h]
  simp [hne]

/-- What is appended to a path without a slash at its end is appended to its last part. -/
theorem exists_last_part (hne : path ≠ []) (hslash : path.getLast? ≠ some '/') :
    ∃ front last, last ≠ [] ∧
      ∀ more, '/' ∉ more → parts (path ++ more) = front ++ [last ++ more] := by
  have hbare : ∀ {last more : List Char}, last ≠ [] → '/' ∉ last → '/' ∉ more →
      parts (last ++ more) = [last ++ more] := fun hlast hnone hmore =>
    parts_of_bare (by simp [hlast]) (by simp [hnone, hmore])
  cases hcut : Text.cutAt? '/' path.reverse with
  | none =>
    have hnone : '/' ∉ path := by simpa using Text.cutAt?_eq_none_iff.mp hcut
    exact ⟨[], path, hne, fun more hmore => hbare hne hnone hmore⟩
  | some cut =>
    obtain ⟨hpath, hnone⟩ := Text.cutAt?_eq_some_iff.mp hcut
    rw [List.reverse_eq_iff, List.reverse_append, List.reverse_cons] at hpath
    have hlast : cut.1.reverse ≠ [] := by
      intro hnil
      rw [hpath, hnil] at hslash
      simp at hslash
    refine ⟨parts cut.2.reverse, cut.1.reverse, hlast, fun more hmore => ?_⟩
    rw [hpath, List.append_assoc, List.append_assoc, List.singleton_append, parts_append,
      hbare hlast (by simpa using hnone) hmore]

theorem isAbsolute_append (hname : isAbsolute name = false) :
    isAbsolute (path ++ name) = isAbsolute path := by
  cases path with
  | nil => exact hname
  | cons c rest => rfl

/-- A name is one more part of a path that it is joined to. -/
theorem parts_join (hname : isAbsolute name = false) :
    parts (join path name) = parts path ++ parts name := by
  rw [join, hname, if_neg Bool.false_ne_true]
  split
  case isTrue hbase =>
    rw [Bool.or_eq_true, List.isEmpty_iff, beq_iff_eq] at hbase
    rcases hbase with rfl | hslash
    · rfl
    · obtain ⟨front, rfl⟩ := List.getLast?_eq_some_iff.mp hslash
      rw [List.append_assoc, List.singleton_append, parts_append, parts_append,
        show parts [] = [] from rfl, List.append_nil]
  case isFalse => exact parts_append path name

theorem isAbsolute_join (hname : isAbsolute name = false) :
    isAbsolute (join path name) = isAbsolute path := by
  rw [join, hname, if_neg Bool.false_ne_true]
  split
  case isTrue => exact isAbsolute_append hname
  case isFalse hbase =>
    rw [Bool.or_eq_true, not_or, List.isEmpty_iff] at hbase
    obtain ⟨c, rest, rfl⟩ := List.exists_cons_of_ne_nil hbase.1
    rfl

/-- The parts of a path that was put together from names are these names. -/
theorem parts_intercalate {names : List (List Char)} (h : ∀ name ∈ names, name ≠ [] ∧ '/' ∉ name) :
    parts (['/'].intercalate names) = names := by
  induction names with
  | nil => rfl
  | cons name names ih =>
    obtain ⟨⟨hne, hbare⟩, hnames⟩ := List.forall_mem_cons.mp h
    have hname : parts name = [name] := parts_of_bare hne hbare
    cases names with
    | nil => simpa using hname
    | cons next names =>
      rw [List.intercalate_cons_cons, List.append_assoc, List.singleton_append, parts_append, hname,
        ih hnames, List.singleton_append]

theorem isAbsolute_intercalate {names : List (List Char)}
    (h : ∀ name ∈ names, name ≠ [] ∧ '/' ∉ name) : isAbsolute (['/'].intercalate names) = false := by
  cases names with
  | nil => rfl
  | cons name names =>
    obtain ⟨hne, hbare⟩ := h name List.mem_cons_self
    obtain ⟨c, rest, rfl⟩ := List.exists_cons_of_ne_nil hne
    rw [List.mem_cons, not_or] at hbare
    cases names <;> simpa [isAbsolute] using Ne.symm hbare.1

/-- A part is some text without a slash. -/
theorem bare_of_mem_parts (h : name ∈ parts path) : name ≠ [] ∧ '/' ∉ name := by
  obtain ⟨hpiece, hname⟩ := List.mem_filter.mp h
  exact ⟨by simpa using hname, Text.notMem_of_mem_splitAt hpiece⟩

/-- The components are the parts but for lone dots. -/
theorem components_eq (path : List Char) :
    ∃ front, (front = [] ∨ front = [['.']]) ∧
      components path = front ++ (parts path).filter (· ≠ ['.']) := by
  unfold components
  cases parts path with
  | nil => exact ⟨[], .inl rfl, rfl⟩
  | cons first rest =>
    dsimp only
    by_cases hdot : first = ['.']
    · split
      · exact ⟨[], .inl rfl, by simp [hdot]⟩
      · exact ⟨[['.']], .inr rfl, by simp [hdot]⟩
    · rw [if_neg fun h => hdot h.1]
      exact ⟨[], .inl rfl, by simp [hdot]⟩

/-! ## File names -/

theorem isAbsolute_of_bare (h : '/' ∉ name) : isAbsolute name = false := by
  cases name with
  | nil => rfl
  | cons c rest =>
    rw [List.mem_cons, not_or] at h
    simpa [isAbsolute] using Ne.symm h.1

theorem components_of_bare (h : '/' ∉ name) :
    components name = if name = [] then [] else [name] := by
  unfold components parts
  rw [Text.splitAt_of_notMem h, isAbsolute_of_bare h]
  cases name with
  | nil => rfl
  | cons c rest => simp

/-- A text without a slash is no path of several components. -/
theorem hasSeveralComponents_of_bare (h : '/' ∉ name) : hasSeveralComponents name = false := by
  rw [hasSeveralComponents, isAbsolute_of_bare h, components_of_bare h]
  split <;> rfl

/-- A component is some text without a slash. -/
theorem bare_of_mem_components (h : name ∈ components path) : name ≠ [] ∧ '/' ∉ name := by
  obtain ⟨front, hfront, hcomponents⟩ := components_eq path
  rw [hcomponents, List.mem_append] at h
  rcases h with h | h
  · rcases hfront with rfl | rfl
    · cases h
    · rw [List.mem_singleton.mp h]
      decide
  · exact bare_of_mem_parts (List.mem_filter.mp h).1

/-- A file name is some text without a slash, and not one of the names that lead to a directory. -/
theorem bare_of_fileName? (h : fileName? path = some name) :
    name ≠ [] ∧ '/' ∉ name ∧ name ≠ ['.'] ∧ name ≠ ['.', '.'] := by
  obtain ⟨hlast, hdots⟩ := Option.filter_eq_some_iff.mp h
  obtain ⟨hne, hbare⟩ := bare_of_mem_components (List.mem_of_getLast? hlast)
  exact ⟨hne, hbare, by simpa using hdots⟩

theorem fileName?_of_bare (hne : name ≠ []) (h : '/' ∉ name) :
    fileName? name = if name = ['.'] ∨ name = ['.', '.'] then none else some name := by
  rw [fileName?, components_of_bare h, if_neg hne, List.getLast?_singleton]
  split
  case isTrue hdots =>
    obtain rfl | rfl := hdots <;> rfl
  case isFalse hdots =>
    rw [not_or] at hdots
    simp [Option.filter, hdots]

/-! ## Extensions -/

theorem cutAtLastDot?_eq_none_iff : cutAtLastDot? name = none ↔ '.' ∉ name := by
  rw [cutAtLastDot?, Option.map_eq_none_iff, Text.cutAt?_eq_none_iff, List.mem_reverse]

theorem cutAtLastDot?_eq_some_iff :
    cutAtLastDot? name = some (stem, ext) ↔ name = stem ++ '.' :: ext ∧ '.' ∉ ext := by
  have hreverse : name.reverse = ext.reverse ++ '.' :: stem.reverse ↔ name = stem ++ '.' :: ext := by
    rw [List.reverse_eq_iff]
    simp
  calc cutAtLastDot? name = some (stem, ext)
      ↔ Text.cutAt? '.' name.reverse = some (ext.reverse, stem.reverse) := by
        rw [cutAtLastDot?, Option.map_eq_some_iff]
        constructor
        · rintro ⟨⟨after, before⟩, hcut, hswap⟩
          rw [Prod.mk.injEq] at hswap
          rw [hcut, ← hswap.1, ← hswap.2, List.reverse_reverse, List.reverse_reverse]
        · intro hcut
          exact ⟨_, hcut, by rw [List.reverse_reverse, List.reverse_reverse]⟩
    _ ↔ name = stem ++ '.' :: ext ∧ '.' ∉ ext := by
        rw [Text.cutAt?_eq_some_iff, hreverse, List.mem_reverse]

/-- The extension is what follows the last dot. -/
theorem stem_append (hstem : stem ≠ []) (hext : '.' ∉ ext) (hdots : stem ++ '.' :: ext ≠ ['.', '.']) :
    Path.stem (stem ++ '.' :: ext) = stem := by
  rw [Path.stem, splitExtension, if_neg hdots, cutAtLastDot?_eq_some_iff.mpr ⟨rfl, hext⟩]
  cases stem with
  | nil => exact absurd rfl hstem
  | cons c rest => rfl

/-- A name keeps all of itself, or is cut at a dot that is not at its front. -/
theorem stem_cases (name : List Char) :
    Path.stem name = name ∧ (name = ['.', '.'] ∨ '.' ∉ name.tail) ∨
      ∃ ext, name = Path.stem name ++ '.' :: ext ∧ '.' ∈ name.tail ∧ name ≠ ['.', '.'] := by
  unfold Path.stem splitExtension
  split
  case isTrue hdots => exact .inl ⟨rfl, .inl hdots⟩
  case isFalse hdots =>
    cases hcut : cutAtLastDot? name with
    | none =>
      have hname := cutAtLastDot?_eq_none_iff.mp hcut
      exact .inl ⟨rfl, .inr fun htail => hname (List.mem_of_mem_tail htail)⟩
    | some cut =>
      obtain ⟨before, after⟩ := cut
      obtain ⟨rfl, hafter⟩ := cutAtLastDot?_eq_some_iff.mp hcut
      cases before with
      | nil => exact .inl ⟨rfl, .inr hafter⟩
      | cons c rest => exact .inr ⟨after, rfl, by simp, hdots⟩

theorem stem_isPrefix (name : List Char) : Path.stem name <+: name := by
  rcases stem_cases name with ⟨hstem, -⟩ | ⟨ext, hname, -⟩
  · exact ⟨[], by rw [List.append_nil, hstem]⟩
  · exact ⟨_, hname.symm⟩

/-- A name without an extension has no dot but at its front. -/
theorem stem_eq_self_iff : Path.stem name = name ↔ name = ['.', '.'] ∨ '.' ∉ name.tail := by
  rcases stem_cases name with ⟨hstem, hplain⟩ | ⟨ext, hname, htail, hdots⟩
  · exact iff_of_true hstem hplain
  · refine iff_of_false (fun hstem => ?_) fun h => h.elim hdots fun hplain => hplain htail
    rw [hstem] at hname
    simp at hname

end Path

end Offload
