import Offload.LoggedLine
import Offload.Proofs.Path

/-!
# What a logged line gives away

The line for a command line depends on the value of no define whose name looks like a credential:
neither its text nor its length shows, nor whether it needs quotes, and it changes nothing in how the
arguments after it are read. And nothing else is hidden: two command lines whose masked arguments agree
differ in such values alone (`ofArgs_hides_secrets`).

A masked argument depends on the argument and on whether a define is expected in its place
(`getElem?_mask`). So it is enough to know what masking hides of one argument, and that the places in
which defines are expected do not depend on what is hidden.
-/

namespace Offload

namespace Text

/-- A text stands in another one if it is an infix of it. -/
theorem occursIn_iff {needle s : List Char} : occursIn needle s = true ↔ needle <:+: s := by
  induction s with
  | nil => simp [occursIn, List.isEmpty_iff]
  | cons c rest ih =>
    rw [occursIn, Bool.or_eq_true, List.isPrefixOf_iff_prefix, ih]
    exact List.infix_cons_iff.symm

theorem after?_eq_some_iff {start s rest : List Char} :
    after? start s = some rest ↔ s = start ++ rest := by
  unfold after?
  constructor
  · intro h
    split at h
    · rename_i hstart
      obtain ⟨tail, rfl⟩ := List.isPrefixOf_iff_prefix.mp hstart
      rw [List.drop_left] at h
      rw [Option.some.inj h]
    · cases h
  · rintro rfl
    have hstart : start.isPrefixOf (start ++ rest) = true :=
      List.isPrefixOf_iff_prefix.mpr (List.prefix_append start rest)
    rw [if_pos hstart, List.drop_left]

theorem after?_eq_none_iff {start s : List Char} :
    after? start s = none ↔ ∀ rest, s ≠ start ++ rest := by
  constructor
  · intro h rest hs
    rw [after?_eq_some_iff.mpr hs] at h
    cases h
  · intro h
    cases hafter : after? start s with
    | none => rfl
    | some rest => exact absurd (after?_eq_some_iff.mp hafter) (h rest)

end Text

namespace LoggedLine

/-! ## Secrets -/

/-- A name that contains a marker in some letter case. -/
def NamesCredential (name : List Char) : Prop :=
  ∃ marker ∈ sensitiveMarkers, ∃ part, part <:+: name ∧ part.map Char.toUpper = marker.toList

/-- Two defines of a credential, which agree in its name. -/
structure SameCredential (x y : List Char) : Prop where
  defines : ∃ name v w, '=' ∉ name ∧ NamesCredential name ∧
    x = name ++ '=' :: v ∧ y = name ++ '=' :: w

/-- Whether the argument at a position is taken as a define, because a separate `-D` came just before.
The first argument says whether the one at position 0 is. -/
def expectsDefine (expected : Bool) (args : List (List Char)) : Nat → Bool
  | 0 => expected
  | i + 1 => !expectsDefine expected args i && decide (args[i]? = some defineOption)

/-- At a position two command lines hold defines of the same credential, attached to their option in
both or separate from it in both. -/
inductive HidesAt (xs ys : List (List Char)) (i : Nat) : Prop
  | attached (x y : List Char) (hx : xs[i]? = some (defineOption ++ x))
    (hy : ys[i]? = some (defineOption ++ y)) (h : SameCredential x y)
  | separate (x y : List Char) (hx : xs[i]? = some x) (hy : ys[i]? = some y)
    (hxs : expectsDefine false xs i = true) (hys : expectsDefine false ys i = true)
    (h : SameCredential x y)

/-- Command lines of one length that differ at most in the values of credentials. -/
structure AgreeButForSecrets (xs ys : List (List Char)) : Prop where
  length : xs.length = ys.length
  agree : ∀ i < xs.length, xs[i]? = ys[i]? ∨ HidesAt xs ys i

theorem namesCredential_iff {name : List Char} : isSensitive name = true ↔ NamesCredential name := by
  unfold isSensitive NamesCredential
  rw [List.any_eq_true]
  constructor
  · rintro ⟨marker, hmarker, hoccurs⟩
    obtain ⟨before, after, hsplit⟩ := Text.occursIn_iff.mp hoccurs
    -- the marker was found in the upper-case name, at the place where the name has its variant
    obtain ⟨front, back, rfl, hfront, -⟩ := List.map_eq_append_iff.mp hsplit.symm
    obtain ⟨before', part, rfl, -, hpart⟩ := List.map_eq_append_iff.mp hfront
    exact ⟨marker, hmarker, part, ⟨before', back, rfl⟩, hpart⟩
  · rintro ⟨marker, hmarker, part, hinfix, hpart⟩
    refine ⟨marker, hmarker, Text.occursIn_iff.mpr ?_⟩
    rw [← hpart]
    exact hinfix.map Char.toUpper

/-! ## One argument -/

section Define

variable {name v x y : List Char}

theorem maskDefine_secret (hname : '=' ∉ name) (hsecret : NamesCredential name) :
    maskDefine (name ++ '=' :: v) = name ++ '=' :: hidden := by
  rw [maskDefine, Text.cutAt?_append hname]
  exact if_pos (namesCredential_iff.mpr hsecret)

/-- A define hides its value if it defines a credential, and else is shown as it is. -/
theorem maskDefine_cases (x : List Char) :
    (∃ name v, '=' ∉ name ∧ NamesCredential name ∧ x = name ++ '=' :: v) ∨ maskDefine x = x := by
  by_cases hsplit : ∃ name v, Text.cutAt? '=' x = some (name, v)
  · obtain ⟨name, v, hcut⟩ := hsplit
    obtain ⟨rfl, hname⟩ := Text.cutAt?_eq_some_iff.mp hcut
    by_cases hsecret : NamesCredential name
    · exact .inl ⟨name, v, hname, hsecret, rfl⟩
    · right
      rw [maskDefine, hcut]
      exact if_neg fun h => hsecret (namesCredential_iff.mp h)
  · right
    have hnone : Text.cutAt? '=' x = none := by
      rw [Option.eq_none_iff_forall_ne_some]
      intro ⟨name, v⟩ hcut
      exact hsplit ⟨name, v, hcut⟩
    rw [maskDefine, hnone]

/-- The name of a define is what stands before the first `=`. -/
theorem define_inj {name' w : List Char} (hname : '=' ∉ name) (hname' : '=' ∉ name')
    (h : name ++ '=' :: v = name' ++ '=' :: w) : name = name' := by
  have hcut : Text.cutAt? '=' (name ++ '=' :: v) = some (name, v) := Text.cutAt?_append hname
  rw [h, Text.cutAt?_append hname'] at hcut
  exact (Prod.mk.inj (Option.some.inj hcut)).1.symm

/-- Of a define nothing is hidden but the value of a credential. -/
theorem maskDefine_eq_iff : maskDefine x = maskDefine y ↔ x = y ∨ SameCredential x y := by
  constructor
  · intro h
    obtain ⟨name, v, hname, hsecret, rfl⟩ | hx := maskDefine_cases x
    · rw [maskDefine_secret hname hsecret] at h
      right
      obtain ⟨name', w, hname', hsecret', rfl⟩ | hy := maskDefine_cases y
      · rw [maskDefine_secret hname' hsecret'] at h
        obtain rfl := define_inj hname hname' h
        exact ⟨name, v, w, hname, hsecret, rfl, rfl⟩
      · -- the other one is shown as it is, and looks hidden
        rw [hy] at h
        exact ⟨name, v, hidden, hname, hsecret, rfl, h.symm⟩
    · rw [hx] at h
      obtain ⟨name', w, hname', hsecret', rfl⟩ | hy := maskDefine_cases y
      · rw [maskDefine_secret hname' hsecret'] at h
        exact .inr ⟨name', hidden, w, hname', hsecret', h, rfl⟩
      · rw [hy] at h
        exact .inl h
  · rintro (rfl | ⟨name, v, w, hname, hsecret, rfl, rfl⟩)
    · rfl
    · rw [maskDefine_secret hname hsecret, maskDefine_secret hname hsecret]

theorem maskAttached_append (x : List Char) :
    maskAttached (defineOption ++ x) = defineOption ++ maskDefine x := by
  rw [maskAttached, Text.after?_eq_some_iff.mpr rfl]

/-- An attached define is masked behind its option; anything else is shown as it is. -/
theorem maskAttached_cases (x : List Char) :
    (∃ define, x = defineOption ++ define) ∨
      (∀ define, x ≠ defineOption ++ define) ∧ maskAttached x = x := by
  by_cases h : ∃ define, x = defineOption ++ define
  · exact .inl h
  · have hother : ∀ define, x ≠ defineOption ++ define := fun define hx => h ⟨define, hx⟩
    refine .inr ⟨hother, ?_⟩
    rw [maskAttached, Text.after?_eq_none_iff.mpr hother]

/-- Of an argument that is not expected to be a define, nothing is hidden but the value of a
credential that is attached to its option. -/
theorem maskAttached_eq_iff : maskAttached x = maskAttached y ↔
    x = y ∨ ∃ x' y', x = defineOption ++ x' ∧ y = defineOption ++ y' ∧ SameCredential x' y' := by
  constructor
  · intro h
    obtain ⟨x', rfl⟩ | ⟨hx, hsame⟩ := maskAttached_cases x
    · rw [maskAttached_append] at h
      obtain ⟨y', rfl⟩ | ⟨hy, hsame⟩ := maskAttached_cases y
      · rw [maskAttached_append] at h
        obtain rfl | hcredential := maskDefine_eq_iff.mp (List.append_cancel_left h)
        · exact .inl rfl
        · exact .inr ⟨x', y', rfl, rfl, hcredential⟩
      · rw [hsame] at h
        exact absurd h.symm (hy _)
    · rw [hsame] at h
      obtain ⟨y', rfl⟩ | ⟨hy, hsame'⟩ := maskAttached_cases y
      · rw [maskAttached_append] at h
        exact absurd h (hx _)
      · rw [hsame'] at h
        exact .inl h
  · rintro (rfl | ⟨x', y', rfl, rfl, h⟩)
    · rfl
    · rw [maskAttached_append, maskAttached_append, maskDefine_eq_iff.mpr (.inr h)]

/-- The define of a credential is not the option `-D`. -/
theorem SameCredential.ne_option (h : SameCredential x y) : x ≠ defineOption ∧ y ≠ defineOption := by
  obtain ⟨name, v, w, -, -, rfl, rfl⟩ := h
  have hequals (value : List Char) : name ++ '=' :: value ≠ defineOption := by
    intro heq
    have hmem : '=' ∈ name ++ '=' :: value := by simp
    rw [heq] at hmem
    exact absurd hmem (by decide)
  exact ⟨hequals v, hequals w⟩

theorem SameCredential.append_ne_option (h : SameCredential x y) :
    defineOption ++ x ≠ defineOption ∧ defineOption ++ y ≠ defineOption := by
  obtain ⟨name, v, w, -, -, rfl, rfl⟩ := h
  simp [defineOption]

end Define

/-! ## The arguments in their places -/

section Positions

variable {xs ys : List (List Char)}

/-- Masking an argument, by whether a define is expected. -/
def maskAt (expected : Bool) (arg : List Char) : List Char :=
  if expected then maskDefine arg else maskAttached arg

theorem expectsDefine_cons (expected : Bool) (x : List Char) (rest : List (List Char)) (i : Nat) :
    expectsDefine expected (x :: rest) (i + 1)
      = expectsDefine (!expected && decide (x = defineOption)) rest i := by
  induction i with
  | zero => simp [expectsDefine]
  | succ i ih =>
    rw [expectsDefine, ih, expectsDefine]
    rfl

/-- An argument is masked by itself and by whether a define is expected in its place. -/
theorem getElem?_maskFrom (expected : Bool) (args : List (List Char)) (i : Nat) :
    (maskFrom expected args)[i]? = args[i]?.map (maskAt (expectsDefine expected args i)) := by
  induction args generalizing expected i with
  | nil => cases expected <;> simp [maskFrom]
  | cons arg rest ih =>
    cases i with
    | zero =>
      cases expected with
      | true => rfl
      | false =>
        rw [maskFrom]
        split
        · rename_i hoption
          subst hoption
          rfl
        · rfl
    | succ i =>
      rw [expectsDefine_cons, List.getElem?_cons_succ]
      cases expected with
      | true => exact ih false i
      | false =>
        rw [maskFrom]
        split
        · rename_i hoption
          rw [List.getElem?_cons_succ, ih, decide_eq_true hoption]
          rfl
        · rename_i hother
          rw [List.getElem?_cons_succ, ih, decide_eq_false hother]
          rfl

theorem getElem?_mask (args : List (List Char)) (i : Nat) :
    (mask args)[i]? = args[i]?.map (maskAt (expectsDefine false args i)) :=
  getElem?_maskFrom false args i

theorem length_mask (args : List (List Char)) : (mask args).length = args.length := by
  apply Nat.le_antisymm
  · rw [← List.getElem?_eq_none_iff, getElem?_mask, List.getElem?_eq_none (Nat.le_refl _)]
    rfl
  · rw [← List.getElem?_eq_none_iff, ← Option.map_eq_none_iff, ← getElem?_mask]
    exact List.getElem?_eq_none (Nat.le_refl _)

/-- What is hidden is not the option that a define is expected after. -/
theorem HidesAt.ne_option {i : Nat} (h : HidesAt xs ys i) :
    xs[i]? ≠ some defineOption ∧ ys[i]? ≠ some defineOption := by
  cases h with
  | attached x y hx hy h =>
    rw [hx, hy, ne_eq, ne_eq, Option.some_inj, Option.some_inj]
    exact h.append_ne_option
  | separate x y hx hy hxs hys h =>
    rw [hx, hy, ne_eq, ne_eq, Option.some_inj, Option.some_inj]
    exact h.ne_option

/-- Secrets do not decide where defines are expected. -/
theorem AgreeButForSecrets.expectsDefine_eq (h : AgreeButForSecrets xs ys) (i : Nat)
    (hi : i ≤ xs.length) : expectsDefine false xs i = expectsDefine false ys i := by
  induction i with
  | zero => rfl
  | succ i ih =>
    rw [expectsDefine, expectsDefine, ih (by omega)]
    congr 1
    rw [decide_eq_decide]
    obtain hsame | hhides := h.agree i hi
    · rw [hsame]
    · exact iff_of_false hhides.ne_option.1 hhides.ne_option.2

theorem AgreeButForSecrets.mask_eq (h : AgreeButForSecrets xs ys) : mask xs = mask ys := by
  apply List.ext_getElem?
  intro i
  rw [getElem?_mask, getElem?_mask]
  by_cases hi : i < xs.length
  · rw [← h.expectsDefine_eq i (by omega)]
    obtain hsame | hhides := h.agree i hi
    · rw [hsame]
    · cases hhides with
      | attached x y hx hy hcredential =>
        rw [hx, hy, Option.map_some, Option.map_some, Option.some_inj]
        -- where a define is expected, the option is a part of its name
        cases expectsDefine false xs i with
        | false => exact maskAttached_eq_iff.mpr (.inr ⟨x, y, rfl, rfl, hcredential⟩)
        | true =>
          obtain ⟨name, v, w, hname, ⟨marker, hmarker, part, hpart, hupper⟩, rfl, rfl⟩ := hcredential
          have hmem : '=' ∉ defineOption ++ name := by simpa [defineOption] using hname
          have hinfix : part <:+: defineOption ++ name :=
            hpart.trans (List.suffix_append defineOption name).isInfix
          refine maskDefine_eq_iff.mpr (.inr ⟨defineOption ++ name, v, w, hmem,
            ⟨marker, hmarker, part, hinfix, hupper⟩, ?_, ?_⟩) <;> rw [List.append_assoc]
      | separate x y hx hy hxs hys hcredential =>
        rw [hx, hy, hxs]
        exact congrArg some (maskDefine_eq_iff.mpr (.inr hcredential))
  · rw [List.getElem?_eq_none (by omega), List.getElem?_eq_none (by rw [← h.length]; omega)]
    rfl

/-- Where the masked arguments agree, the places in which defines are expected do so as well. -/
theorem expectsDefine_eq_of_mask (h : mask xs = mask ys) (i : Nat) :
    expectsDefine false xs i = expectsDefine false ys i := by
  induction i with
  | zero => rfl
  | succ i ih =>
    have hmasked := congrArg (fun args => args[i]?) h
    simp only [getElem?_mask, ← ih] at hmasked
    rw [expectsDefine, expectsDefine, ← ih]
    cases hexpected : expectsDefine false xs i with
    | true => rfl
    | false =>
      rw [hexpected] at hmasked
      congr 1
      rw [decide_eq_decide]
      cases hx : xs[i]? with
      | none =>
        rw [hx, Option.map_none, eq_comm, Option.map_eq_none_iff] at hmasked
        rw [hmasked]
      | some x =>
        rw [hx, Option.map_some, eq_comm, Option.map_eq_some_iff] at hmasked
        obtain ⟨y, hy, hsame⟩ := hmasked
        rw [hy]
        obtain rfl | ⟨x', y', rfl, rfl, hcredential⟩ := maskAttached_eq_iff.mp hsame.symm
        · rfl
        · rw [Option.some_inj, Option.some_inj]
          exact iff_of_false hcredential.append_ne_option.1 hcredential.append_ne_option.2

theorem agreeButForSecrets_of_mask (h : mask xs = mask ys) : AgreeButForSecrets xs ys where
  length := by rw [← length_mask xs, h, length_mask]
  agree i hi := by
    have hlength : xs.length = ys.length := by rw [← length_mask xs, h, length_mask]
    have hexpected := expectsDefine_eq_of_mask h i
    have hmasked := congrArg (fun args => args[i]?) h
    simp only [getElem?_mask, ← hexpected] at hmasked
    have hi' : i < ys.length := by rw [← hlength]; exact hi
    obtain ⟨x, hx⟩ : ∃ x, xs[i]? = some x := ⟨_, List.getElem?_eq_getElem hi⟩
    obtain ⟨y, hy⟩ : ∃ y, ys[i]? = some y := ⟨_, List.getElem?_eq_getElem hi'⟩
    rw [hx, hy, Option.map_some, Option.map_some, Option.some_inj] at hmasked
    cases hdefine : expectsDefine false xs i with
    | true =>
      rw [hdefine] at hmasked hexpected
      obtain rfl | hcredential := maskDefine_eq_iff.mp hmasked
      · exact .inl (hx.trans hy.symm)
      · exact .inr (.separate x y hx hy hdefine hexpected.symm hcredential)
    | false =>
      rw [hdefine] at hmasked
      obtain rfl | ⟨x', y', rfl, rfl, hcredential⟩ := maskAttached_eq_iff.mp hmasked
      · exact .inl (hx.trans hy.symm)
      · exact .inr (.attached x' y' hx hy hcredential)

end Positions

/-! ## The line -/

/-- Command lines that differ in the values of credentials alone are logged as the same line. Nothing
else is hidden: only such command lines agree in their masked arguments. -/
theorem ofArgs_hides_secrets (xs ys : List String) :
    (AgreeButForSecrets (xs.map String.toList) (ys.map String.toList) → ofArgs xs = ofArgs ys) ∧
      (mask (xs.map String.toList) = mask (ys.map String.toList) ↔
        AgreeButForSecrets (xs.map String.toList) (ys.map String.toList)) := by
  refine ⟨fun h => ?_, agreeButForSecrets_of_mask, fun h => h.mask_eq⟩
  rw [ofArgs, ofArgs, h.mask_eq]

/-- A key with blanks and a token with a quote, against values without either: the places of the
defines and the quotes of the line are the same. -/
theorem ofArgs_hides_secrets_quoted :
    ofArgs ["cc", "-DApi_Key=a b = c", "-D", "X token=\x27", "-D", "-D"] =
      ofArgs ["cc", "-DApi_Key=", "-D", "X token=-D", "-D", "-D"] := by
  have hkey : SameCredential "Api_Key=a b = c".toList "Api_Key=".toList :=
    ⟨"Api_Key".toList, "a b = c".toList, [], by decide, ⟨"API_KEY", by decide, "Api_Key".toList,
      List.infix_rfl, by decide⟩, by decide, by decide⟩
  have htoken : SameCredential "X token=\x27".toList "X token=-D".toList :=
    ⟨"X token".toList, "\x27".toList, "-D".toList, by decide, ⟨"TOKEN", by decide, "token".toList,
      ⟨"X ".toList, [], by decide⟩, by decide⟩, by decide, by decide⟩
  apply (ofArgs_hides_secrets _ _).1
  refine ⟨rfl, fun i hi => ?_⟩
  match i, hi with
  | 0, _ | 2, _ | 4, _ | 5, _ => exact .inl rfl
  | 1, _ => exact .inr (.attached _ _ (by decide) (by decide) hkey)
  | 3, _ => exact .inr (.separate _ _ rfl rfl (by decide) (by decide) htoken)

end LoggedLine

end Offload
