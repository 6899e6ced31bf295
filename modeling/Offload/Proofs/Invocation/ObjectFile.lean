import Offload.Invocation
import Offload.Proofs.Path

/-!
# The name of the object file

Without an output file, the object file of `STEM.EXT` is to be `STEM.o` in the working directory. It is
so exactly when the stem has no extension of its own (`objectOutput?_eq_stem_iff`): what is left of the
source's name gets the extension of object files in the place of a second one. So `main.test.c` and
`main.bench.c` are both compiled to `main.o`.
-/

namespace Offload

namespace Invocation

/-- The only source file of the invocation is named `STEM.EXT`, and it names no output file. -/
structure CompilesStem (inv : Invocation) (stem : List Char) : Prop where
  output : inv.output = none
  source : ∃ path ext, inv.sourceFile? = some path ∧
    Path.fileName? path.toList = some (stem ++ '.' :: ext) ∧ '.' ∉ ext
  stem : stem ≠ []

/-- The names that lead to a directory: they get no extension. -/
def IsDots (stem : List Char) : Prop := stem = ['.'] ∨ stem = ['.', '.']

instance (stem : List Char) : Decidable (IsDots stem) := inferInstanceAs (Decidable (_ ∨ _))

/-- A stem without an extension: it has no dot but at its front. -/
def PlainStem (stem : List Char) : Prop := ¬ IsDots stem ∧ '.' ∉ stem.tail

instance (stem : List Char) : Decidable (PlainStem stem) := inferInstanceAs (Decidable (_ ∧ _))

variable {stem stem' : List Char} {inv inv' : Invocation}

theorem plainStem_iff : PlainStem stem ↔ ¬ IsDots stem ∧ Path.stem stem = stem := by
  refine and_congr_right fun hdots => ?_
  rw [Path.stem_eq_self_iff, or_iff_right fun h => hdots (.inr h)]

/-- The extension of object files takes the place of the stem's own. -/
theorem withObjectExtension_of_bare (hne : stem ≠ []) (hbare : '/' ∉ stem) :
    withObjectExtension stem = if IsDots stem then stem else Path.stem stem ++ ['.', 'o'] := by
  have hname : Path.fileName? stem = if IsDots stem then none else some stem :=
    Path.fileName?_of_bare hne hbare
  rw [withObjectExtension, hname]
  by_cases hdots : IsDots stem
  · rw [if_pos hdots, if_pos hdots]
  · rw [if_neg hdots, if_neg hdots]

theorem bare_withObjectExtension (hne : stem ≠ []) (hbare : '/' ∉ stem) :
    '/' ∉ withObjectExtension stem := by
  rw [withObjectExtension_of_bare hne hbare]
  split
  case isTrue => exact hbare
  case isFalse =>
    rw [List.mem_append, not_or]
    exact ⟨fun hmem => hbare ((Path.stem_isPrefix stem).subset hmem), by decide⟩

theorem withObjectExtension_eq_iff (hne : stem ≠ []) (hbare : '/' ∉ stem) :
    withObjectExtension stem = stem ++ ['.', 'o'] ↔ PlainStem stem := by
  rw [withObjectExtension_of_bare hne hbare, plainStem_iff]
  split
  case isTrue hdots => simp [hdots]
  case isFalse hdots => rw [List.append_left_inj, and_iff_right hdots]

/-- The names of directories are the names of no other stem's object file. -/
theorem IsDots.ne_append (h : IsDots stem) (name : List Char) : stem ≠ name ++ ['.', 'o'] := by
  intro heq
  have hlast := congrArg List.getLast? heq
  obtain rfl | rfl := h <;> simp at hlast

theorem withObjectExtension_inj_iff (hne : stem ≠ []) (hbare : '/' ∉ stem) (hne' : stem' ≠ [])
    (hbare' : '/' ∉ stem') : withObjectExtension stem = withObjectExtension stem' ↔
      stem = stem' ∨ ¬ IsDots stem ∧ ¬ IsDots stem' ∧ Path.stem stem = Path.stem stem' := by
  rw [withObjectExtension_of_bare hne hbare, withObjectExtension_of_bare hne' hbare']
  by_cases h : IsDots stem <;> by_cases h' : IsDots stem'
  -- a name that leads to a directory does not end in the extension of object files
  · simp [h, h']
  · have hstem : stem ≠ stem' := fun heq => h' (heq ▸ h)
    simp [h, h', hstem, h.ne_append]
  · have hstem : stem ≠ stem' := fun heq => h (heq ▸ h')
    simp [h, h', hstem, (h'.ne_append _).symm]
  · rw [if_neg h, if_neg h', List.append_left_inj]
    constructor
    · exact fun heq => .inr ⟨h, h', heq⟩
    · rintro (rfl | ⟨-, -, heq⟩)
      · rfl
      · exact heq

namespace CompilesStem

theorem bare (h : inv.CompilesStem stem) : '/' ∉ stem := by
  obtain ⟨path, ext, -, hname, -⟩ := h.source
  obtain ⟨-, hbare, -⟩ := Path.bare_of_fileName? hname
  exact fun hstem => hbare (List.mem_append_left _ hstem)

theorem objectOutput?_eq (h : inv.CompilesStem stem) :
    inv.objectOutput? = some (String.ofList (withObjectExtension stem)) := by
  obtain ⟨path, ext, hpath, hname, hext⟩ := h.source
  obtain ⟨-, -, -, hdots⟩ := Path.bare_of_fileName? hname
  rw [objectOutput?, h.output, hpath]
  show (Path.fileName? path.toList).bind _ = _
  rw [hname, Option.bind_some, Path.stem_append h.stem hext hdots]
  rfl

end CompilesStem

theorem objectOutput?_eq_some_iff (h : inv.CompilesStem stem) (name : List Char) :
    inv.objectOutput? = some (String.ofList name) ↔ withObjectExtension stem = name := by
  rw [h.objectOutput?_eq, Option.some_inj, String.ofList_inj]

/-- The object file of `STEM.EXT` goes to the working directory. It is `STEM.o` exactly when the stem has
no extension of its own: that is lost. So two sources have the same object file exactly when their stems
are the same up to such an extension, and never if both stems have none. -/
theorem objectOutput?_eq_stem_iff (h : inv.CompilesStem stem) (h' : inv'.CompilesStem stem') :
    (∃ name, inv.objectOutput? = some (String.ofList name) ∧ '/' ∉ name ∧
        name = if IsDots stem then stem else Path.stem stem ++ ['.', 'o']) ∧
      (inv.objectOutput? = some (String.ofList (stem ++ ['.', 'o'])) ↔ PlainStem stem) ∧
      (inv.objectOutput? = inv'.objectOutput? ↔
        stem = stem' ∨ ¬ IsDots stem ∧ ¬ IsDots stem' ∧ Path.stem stem = Path.stem stem') ∧
      (PlainStem stem → PlainStem stem' → stem ≠ stem' →
        inv.objectOutput? ≠ inv'.objectOutput?) := by
  have hshared : inv.objectOutput? = inv'.objectOutput? ↔
      stem = stem' ∨ ¬ IsDots stem ∧ ¬ IsDots stem' ∧ Path.stem stem = Path.stem stem' := by
    rw [h'.objectOutput?_eq, objectOutput?_eq_some_iff h]
    exact withObjectExtension_inj_iff h.stem h.bare h'.stem h'.bare
  refine ⟨⟨_, h.objectOutput?_eq, ?_, ?_⟩, ?_, hshared, fun hplain hplain' hne heq => ?_⟩
  · exact bare_withObjectExtension h.stem h.bare
  · exact withObjectExtension_of_bare h.stem h.bare
  · rw [objectOutput?_eq_some_iff h]
    exact withObjectExtension_eq_iff h.stem h.bare
  · obtain heq | ⟨-, -, heq⟩ := hshared.mp heq
    · exact hne heq
    · rw [(plainStem_iff.mp hplain).2, (plainStem_iff.mp hplain').2] at heq
      exact hne heq

/-- A dot at the front is no extension, and a name of dots alone is not taken for a plain stem. -/
theorem objectOutput?_eq_stem_iff_hidden :
    let hidden := parse "gcc" ["-c", "src/.hidden.c"]
    let dotted := parse "gcc" ["-c", "src/...c"]
    hidden.objectOutput? = some ".hidden.o" ∧ dotted.objectOutput? ≠ some "...o" ∧
      hidden.objectOutput? ≠ dotted.objectOutput? := by
  have hhidden : (parse "gcc" ["-c", "src/.hidden.c"]).CompilesStem ".hidden".toList :=
    ⟨by decide, ⟨"src/.hidden.c", ['c'], by decide⟩, by decide⟩
  have hdotted : (parse "gcc" ["-c", "src/...c"]).CompilesStem "..".toList :=
    ⟨by decide, ⟨"src/...c", ['c'], by decide⟩, by decide⟩
  exact ⟨(objectOutput?_eq_stem_iff hhidden hdotted).2.1.mpr (by decide),
    fun h => absurd ((objectOutput?_eq_stem_iff hdotted hhidden).2.1.mp h) (by decide),
    fun h => absurd ((objectOutput?_eq_stem_iff hhidden hdotted).2.2.1.mp h) (by decide)⟩

/-- The extension of a stem is lost, and with it the difference between two object files. -/
theorem objectOutput?_drops_inner_extension :
    (parse "gcc" ["-c", "main.test.c"]).objectOutput? = some "main.o" ∧
      (parse "gcc" ["-c", "main.bench.c"]).objectOutput? = some "main.o" := by
  decide

end Invocation

end Offload
