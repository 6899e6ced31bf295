import Offload.Config.Client
import Mathlib.Data.List.DropRight

/-!
# The scheduler's endpoint as an address

Every endpoint has a scheme and a slash after it. Configured as the scheduler's address it is its own
endpoint exactly if it does not end in a blank. Blanks are cut off before slashes, so that a blank in
front of the last slashes stays; if the address has a path before that blank, no other path is added and
the blank ends the endpoint (`HidesBlank`).
-/

namespace Offload

namespace Endpoint

/-! ## The first occurrence -/

section First

variable {needle s rest : List Char} {c : Char}

theorem afterFirst?_cons (needle : List Char) (c : Char) (s : List Char) :
    afterFirst? needle (c :: s) =
      if needle <+: c :: s then some ((c :: s).drop needle.length) else afterFirst? needle s := by
  simp only [afterFirst?, List.isPrefixOf_iff_prefix]

/-- What stands before the first occurrence is no longer than what stands before any. -/
theorem afterFirst?_eq_some (hne : needle ≠ []) (h : afterFirst? needle s = some rest) :
    ∃ before, s = before ++ needle ++ rest ∧
      ∀ front back, s = front ++ needle ++ back → before.length ≤ front.length := by
  induction s with
  | nil =>
    rw [afterFirst?, if_neg (by simpa using hne)] at h
    cases h
  | cons c s ih =>
    rw [afterFirst?_cons] at h
    split at h
    case isTrue hstart =>
      obtain ⟨tail, htail⟩ := hstart
      rw [← htail, List.drop_left] at h
      cases h
      exact ⟨[], htail.symm, fun front back _ => Nat.zero_le _⟩
    case isFalse hstart =>
      obtain ⟨before, rfl, hfirst⟩ := ih h
      refine ⟨c :: before, rfl, fun front back hsplit => ?_⟩
      cases front with
      | nil => exact absurd ⟨back, hsplit.symm⟩ hstart
      | cons d front =>
        rw [List.cons_append, List.cons_append, List.cons.injEq] at hsplit
        exact Nat.succ_le_succ (hfirst front back hsplit.2)

/-- More text behind does not move the first occurrence. -/
theorem afterFirst?_append (hne : needle ≠ []) (h : afterFirst? needle s = some rest)
    (more : List Char) : afterFirst? needle (s ++ more) = some (rest ++ more) := by
  induction s with
  | nil =>
    rw [afterFirst?, if_neg (by simpa using hne)] at h
    cases h
  | cons c s ih =>
    rw [afterFirst?_cons] at h
    show afterFirst? needle (c :: (s ++ more)) = _
    rw [afterFirst?_cons, ← List.cons_append]
    split at h
    case isTrue hstart =>
      cases h
      rw [if_pos (hstart.trans (List.prefix_append (c :: s) more)),
        List.drop_append_of_le_length hstart.length_le]
    case isFalse hstart =>
      -- the occurrence that there is leaves no room for one that ends in the added text
      have hlength : needle.length ≤ (c :: s).length := by
        obtain ⟨before, hs, -⟩ := afterFirst?_eq_some hne h
        rw [hs]
        simp only [List.length_cons, List.length_append]
        omega
      rw [if_neg fun hlong => hstart ?_, ih h]
      exact List.prefix_of_prefix_length_le hlong (List.prefix_append (c :: s) more) hlength

/-- A character that the needle does not contain takes part in no occurrence. -/
theorem afterFirst?_concat (hne : needle ≠ []) (hc : c ∉ needle) (s : List Char) :
    afterFirst? needle (s ++ [c]) = (afterFirst? needle s).map (· ++ [c]) := by
  have hbegins : ∀ t : List Char, needle <+: t ++ [c] ↔ needle <+: t := by
    intro t
    rw [List.prefix_concat_iff, or_iff_right]
    rintro rfl
    exact hc (List.mem_append_right _ List.mem_cons_self)
  induction s with
  | nil =>
    rw [List.nil_append, afterFirst?_cons, ← List.nil_append [c], if_neg]
    · simp [afterFirst?, hne]
    · rw [hbegins, List.prefix_nil]
      exact hne
  | cons d s ih =>
    rw [List.cons_append, afterFirst?_cons, afterFirst?_cons, ← List.cons_append]
    by_cases hstart : needle <+: d :: s
    · rw [if_pos hstart, if_pos ((hbegins (d :: s)).mpr hstart),
        List.drop_append_of_le_length hstart.length_le]
      rfl
    · rw [if_neg hstart, if_neg (mt (hbegins (d :: s)).mp hstart)]
      exact ih

theorem afterFirst?_cons_of_notMem (hc : c ∉ needle) (hne : needle ≠ []) (s : List Char) :
    afterFirst? needle (c :: s) = afterFirst? needle s := by
  rw [afterFirst?_cons, if_neg]
  intro hstart
  cases needle with
  | nil => exact hne rfl
  | cons d needle =>
    rw [List.cons_prefix_cons] at hstart
    exact hc (hstart.1 ▸ List.mem_cons_self)

end First

/-! ## Paths -/

/-- The address has a slash after its scheme, or anywhere if it names no scheme. -/
def HasPath (address : List Char) : Prop :=
  '/' ∈ (afterFirst? schemeEnd address).getD address

instance (address : List Char) : Decidable (HasPath address) := inferInstanceAs (Decidable (_ ∈ _))

section Blank

variable {c : Char}

theorem blank_notMem_scheme (hc : Text.isBlank c = true) : c ∉ "ws://".toList := by
  intro hmem
  have hall : "ws://".toList.all (fun c => !Text.isBlank c) = true := by decide
  have hnot := List.all_eq_true.mp hall c hmem
  rw [hc] at hnot
  cases hnot

theorem blank_notMem_schemeEnd (hc : Text.isBlank c = true) : c ∉ schemeEnd :=
  fun hmem => blank_notMem_scheme hc (List.mem_append_right ['w', 's'] hmem)

theorem blank_ne_slash (hc : Text.isBlank c = true) : c ≠ '/' := by
  rintro rfl
  exact absurd hc (by decide)

/-- Blanks make no path, neither behind an address nor before it. -/
theorem hasPath_concat_blank (hc : Text.isBlank c = true) (s : List Char) :
    HasPath (s ++ [c]) ↔ HasPath s := by
  have hslash : '/' ≠ c := (blank_ne_slash hc).symm
  rw [HasPath, HasPath, afterFirst?_concat (by decide) (blank_notMem_schemeEnd hc)]
  cases afterFirst? schemeEnd s with
  | none => simp [hslash]
  | some rest => simp [hslash]

theorem hasPath_blanks_append {lead : List Char} (hlead : ∀ c ∈ lead, Text.isBlank c = true)
    (s : List Char) : HasPath (lead ++ s) ↔ HasPath s := by
  induction lead with
  | nil => rfl
  | cons c lead ih =>
    rw [List.forall_mem_cons] at hlead
    rw [← ih hlead.2, HasPath, HasPath, List.cons_append,
      afterFirst?_cons_of_notMem (blank_notMem_schemeEnd hlead.1) (by decide)]
    have hslash : '/' ≠ c := (blank_ne_slash hlead.1).symm
    cases afterFirst? schemeEnd (lead ++ s) with
    | none => simp [hslash]
    | some rest => rfl

theorem hasPath_dropWhile (s : List Char) : HasPath (s.dropWhile Text.isBlank) ↔ HasPath s := by
  have hlead : ∀ c ∈ s.takeWhile Text.isBlank, Text.isBlank c = true :=
    fun c hc => List.mem_takeWhile_imp hc
  rw [← hasPath_blanks_append hlead, List.takeWhile_append_dropWhile]

end Blank

/-! ## What is cut off -/

/-- The last character is a blank. -/
def EndsInBlank (s : List Char) : Prop := ∃ c ∈ s.getLast?, Text.isBlank c = true

theorem EndsInBlank.exists_concat {s : List Char} (h : EndsInBlank s) :
    ∃ front blank, s = front ++ [blank] ∧ Text.isBlank blank = true := by
  obtain ⟨c, hc, hblank⟩ := h
  obtain ⟨front, rfl⟩ := List.getLast?_eq_some_iff.mp hc
  exact ⟨front, c, rfl, hblank⟩

theorem dropEndWhile_eq_self {p : Char → Bool} {s : List Char}
    (h : ∀ c ∈ s.getLast?, p c = false) : Text.dropEndWhile p s = s := by
  refine List.rdropWhile_eq_self_iff.mpr fun hs hp => ?_
  rw [h _ (List.getLast?_eq_some_getLast hs)] at hp
  cases hp

theorem getLast_dropEndWhile (p : Char → Bool) (s : List Char) :
    ∀ c ∈ (Text.dropEndWhile p s).getLast?, p c = false := by
  intro c hc
  obtain ⟨hs, rfl⟩ := List.mem_getLast?_eq_getLast hc
  exact Bool.eq_false_iff.mpr (List.rdropWhile_last_not p s hs)

theorem dropEndWhile_append {p : Char → Bool} {t : List Char} (ht : ∀ c ∈ t, p c = true)
    (s : List Char) : Text.dropEndWhile p (s ++ t) = Text.dropEndWhile p s := by
  rw [Text.dropEndWhile, List.reverse_append,
    List.dropWhile_append_of_pos fun c hc => ht c (List.mem_reverse.mp hc), Text.dropEndWhile]

theorem dropWhile_eq_self {s : List Char} (h : ∀ c ∈ s.head?, Text.isBlank c = false) :
    s.dropWhile Text.isBlank = s := by
  cases s with
  | nil => rfl
  | cons c s =>
    rw [List.dropWhile_cons, h c rfl]
    rfl

theorem trimmed_eq_self {s : List Char} (hhead : ∀ c ∈ s.head?, Text.isBlank c = false)
    (hblank : ¬ EndsInBlank s) (hslash : '/' ∉ s.getLast?) : trimmed s = s := by
  have hend : ∀ c ∈ s.getLast?, Text.isBlank c = false :=
    fun c hc => Bool.eq_false_iff.mpr fun h => hblank ⟨c, hc, h⟩
  rw [trimmed, Text.trim, dropWhile_eq_self hhead, dropEndWhile_eq_self hend, dropEndWhile_eq_self]
  intro c hc
  refine beq_eq_false_iff_ne.mpr ?_
  rintro rfl
  exact hslash hc

theorem trimmed_prefix (address : List Char) :
    trimmed address <+: address.dropWhile Text.isBlank :=
  (List.rdropWhile_prefix _ _).trans (List.rdropWhile_prefix _ _)

theorem head_trimmed (address : List Char) :
    ∀ c ∈ (trimmed address).head?, Text.isBlank c = false := by
  intro c hc
  obtain ⟨rest, hrest⟩ := trimmed_prefix address
  have hnot := List.head?_dropWhile_not Text.isBlank address
  rw [← hrest, List.head?_append, Option.mem_def.mp hc] at hnot
  exact hnot

theorem getLast_trimmed (address : List Char) : '/' ∉ (trimmed address).getLast? := by
  intro h
  exact absurd (getLast_dropEndWhile _ _ _ h) (by decide)

/-- Blanks go from both ends first, slashes from the right end then. -/
theorem exists_cut (address : List Char) :
    ∃ lead slashes tail, address = lead ++ trimmed address ++ slashes ++ tail ∧
      (∀ c ∈ lead, Text.isBlank c = true) ∧ (∀ c ∈ slashes, c = '/') ∧
      (∀ c ∈ tail, Text.isBlank c = true) ∧ ¬ EndsInBlank (trimmed address ++ slashes) := by
  have hslashes : trimmed address ++ (Text.trim address).rtakeWhile (· == '/') = Text.trim address :=
    List.rdropWhile_append_rtakeWhile ..
  refine ⟨address.takeWhile Text.isBlank, (Text.trim address).rtakeWhile (· == '/'),
    (address.dropWhile Text.isBlank).rtakeWhile Text.isBlank, ?_,
    fun c hc => List.mem_takeWhile_imp hc,
    fun c hc => beq_iff_eq.mp (List.mem_rtakeWhile_imp (p := (· == '/')) hc),
    fun c hc => List.mem_rtakeWhile_imp hc, ?_⟩
  · have htail : Text.trim address ++ (address.dropWhile Text.isBlank).rtakeWhile Text.isBlank =
        address.dropWhile Text.isBlank := List.rdropWhile_append_rtakeWhile ..
    rw [List.append_assoc (address.takeWhile _), hslashes, List.append_assoc, htail,
      List.takeWhile_append_dropWhile]
  · rw [hslashes]
    rintro ⟨c, hc, hblank⟩
    rw [getLast_dropEndWhile _ _ c hc] at hblank
    cases hblank

theorem trimmed_ne_self {s : List Char} (h : EndsInBlank s) : trimmed s ≠ s := by
  intro heq
  obtain ⟨lead, slashes, tail, hcut, -, -, -, hend⟩ := exists_cut s
  rw [heq] at hcut hend
  have hlength := congrArg List.length hcut
  simp only [List.length_append] at hlength
  have hslashes : slashes = [] := List.length_eq_zero_iff.mp (by omega)
  rw [hslashes, List.append_nil] at hend
  exact hend h

/-! ## The endpoint -/

variable (address : List Char)

/-- A scheme is added only to an address in which `://` does not occur. -/
theorem withScheme_eq : withScheme address = address ∧ (afterFirst? schemeEnd address).isSome ∨
    withScheme address = "ws://".toList ++ address ∧ afterFirst? schemeEnd address = none := by
  cases hscheme : afterFirst? schemeEnd address with
  | none => exact .inr ⟨by rw [withScheme, hscheme]; rfl, rfl⟩
  | some rest => exact .inl ⟨by rw [withScheme, hscheme]; rfl, rfl⟩

theorem isSome_withScheme : (afterFirst? schemeEnd (withScheme address)).isSome := by
  obtain ⟨hkept, hscheme⟩ | ⟨hadded, -⟩ := withScheme_eq address
  · rw [hkept]
    exact hscheme
  · rw [hadded]
    rfl

theorem hasPath_withScheme : HasPath (withScheme address) ↔ HasPath address := by
  obtain ⟨hkept, -⟩ | ⟨hadded, hscheme⟩ := withScheme_eq address
  · rw [hkept]
  · rw [hadded, HasPath, HasPath, hscheme]
    rfl

/-- The endpoint is the address with its scheme, to which a path is added if it has none. -/
theorem normalize_eq :
    normalize address = withScheme (trimmed address) ∧ HasPath (trimmed address) ∨
      normalize address = withScheme (trimmed address) ++ "/compile".toList ∧
        ¬ HasPath (trimmed address) := by
  by_cases hpath : HasPath (trimmed address)
  · exact .inl ⟨if_pos ((hasPath_withScheme _).mpr hpath), hpath⟩
  · exact .inr ⟨if_neg (mt (hasPath_withScheme _).mp hpath), hpath⟩

/-- An endpoint has a scheme and a slash after it. -/
theorem exists_afterFirst?_normalize :
    ∃ rest, afterFirst? schemeEnd (normalize address) = some rest ∧ '/' ∈ rest := by
  obtain ⟨rest, hrest⟩ := Option.isSome_iff_exists.mp (isSome_withScheme (trimmed address))
  obtain ⟨hkept, hpath⟩ | ⟨hadded, -⟩ := normalize_eq address
  · rw [← hasPath_withScheme, HasPath, hrest] at hpath
    exact ⟨rest, hkept ▸ hrest, hpath⟩
  · refine ⟨rest ++ "/compile".toList, ?_, List.mem_append_right _ (by decide)⟩
    rw [hadded]
    exact afterFirst?_append (by decide) hrest _

theorem getLast?_normalize : (normalize address).getLast? =
    if HasPath (trimmed address) then (trimmed address).getLast? else some 'e' := by
  obtain ⟨hkept, hpath⟩ | ⟨hadded, hpath⟩ := normalize_eq address
  · have hne : trimmed address ≠ [] := by
      intro hnil
      rw [hnil] at hpath
      exact absurd hpath (by decide)
    rw [if_pos hpath, hkept]
    obtain ⟨hsame, -⟩ | ⟨hscheme, -⟩ := withScheme_eq (trimmed address)
    · rw [hsame]
    · rw [hscheme, List.getLast?_append_of_ne_nil _ hne]
  · rw [if_neg hpath, hadded, List.getLast?_append_of_ne_nil _ (by decide)]
    rfl

theorem getLast_normalize : '/' ∉ (normalize address).getLast? := by
  rw [getLast?_normalize]
  split
  · exact getLast_trimmed address
  · decide

/-- The endpoint keeps the blank that is left at the end of an address with a path. -/
theorem endsInBlank_normalize : EndsInBlank (normalize address) ↔
    HasPath (trimmed address) ∧ EndsInBlank (trimmed address) := by
  rw [EndsInBlank, getLast?_normalize]
  split
  case isTrue hpath => exact (and_iff_right hpath).symm
  case isFalse hpath =>
    refine iff_of_false ?_ fun h => hpath h.1
    rintro ⟨c, ⟨⟩, hblank⟩
    exact absurd hblank (by decide)

theorem head_normalize : ∀ c ∈ (normalize address).head?, Text.isBlank c = false := by
  have hstart : ∃ more, normalize address = withScheme (trimmed address) ++ more := by
    obtain ⟨hkept, -⟩ | ⟨hadded, -⟩ := normalize_eq address
    · exact ⟨[], by rw [hkept, List.append_nil]⟩
    · exact ⟨_, hadded⟩
  obtain ⟨more, hmore⟩ := hstart
  intro c hc
  rw [hmore] at hc
  obtain ⟨hsame, hscheme⟩ | ⟨hscheme, -⟩ := withScheme_eq (trimmed address)
  · rw [hsame] at hc
    cases htrimmed : trimmed address with
    | nil =>
      rw [htrimmed] at hscheme
      cases hscheme
    | cons d rest =>
      rw [htrimmed] at hc
      exact head_trimmed address c (by rw [htrimmed]; exact hc)
  · rw [hscheme] at hc
    cases hc
    decide

/-- An endpoint that does not end in a blank has nothing that is cut off or missing. -/
theorem normalize_normalize (h : ¬ EndsInBlank (normalize address)) :
    normalize (normalize address) = normalize address := by
  have htrimmed : trimmed (normalize address) = normalize address :=
    trimmed_eq_self (head_normalize address) h (getLast_normalize address)
  obtain ⟨rest, hrest, hslash⟩ := exists_afterFirst?_normalize address
  have hscheme : withScheme (normalize address) = normalize address := by
    rw [withScheme, hrest]
    rfl
  rw [normalize, htrimmed, hscheme, withPath, hrest]
  exact if_pos hslash

/-- A blank at the end of an endpoint is cut off when the endpoint is configured. -/
theorem not_endsInBlank_of_normalize_eq (h : normalize (normalize address) = normalize address) :
    ¬ EndsInBlank (normalize address) := by
  intro hblank
  have hbegins := trimmed_prefix (normalize address)
  rw [dropWhile_eq_self (head_normalize address)] at hbegins
  have hends := (endsInBlank_normalize (normalize address)).mp (h.symm ▸ hblank)
  obtain ⟨hkept, hpath⟩ | ⟨-, hpath⟩ := normalize_eq (normalize address)
  · rw [h] at hkept
    obtain ⟨hsame, -⟩ | ⟨hadded, hnone⟩ := withScheme_eq (trimmed (normalize address))
    · exact trimmed_ne_self hblank (hsame.symm.trans hkept.symm)
    · -- what is left starts as the endpoint does, with a scheme, or is a part of the scheme
      have hscheme : "ws://".toList <+: normalize address := ⟨_, (hkept.trans hadded).symm⟩
      obtain hlong | hshort := List.prefix_or_prefix_of_prefix hscheme hbegins
      · obtain ⟨rest, hrest⟩ := hlong
        rw [← hrest] at hnone
        cases hnone
      · obtain ⟨c, hc, hcBlank⟩ := hends.2
        exact blank_notMem_scheme hcBlank (hshort.subset (List.mem_of_getLast? hc))
  · exact hpath hends.1

/-! ## Hidden blanks -/

/-- An address with a path, behind it a blank, and slashes behind the blank. -/
def HidesBlank (address : List Char) : Prop :=
  ∃ front blank slashes tail, address = front ++ blank :: (slashes ++ tail) ∧ HasPath front ∧
    Text.isBlank blank = true ∧ slashes ≠ [] ∧ (∀ c ∈ slashes, c = '/') ∧
    ∀ c ∈ tail, Text.isBlank c = true

/-- The blank is left at the end when the slashes have gone. -/
theorem trimmed_hidden {front slashes tail : List Char} {blank : Char}
    (hpath : HasPath front) (hblank : Text.isBlank blank = true) (hne : slashes ≠ [])
    (hslashes : ∀ c ∈ slashes, c = '/') (htail : ∀ c ∈ tail, Text.isBlank c = true) :
    trimmed (front ++ blank :: (slashes ++ tail)) = front.dropWhile Text.isBlank ++ [blank] := by
  have hnonempty : (front.dropWhile Text.isBlank).isEmpty = false := by
    refine List.isEmpty_eq_false_iff.mpr fun hnil => ?_
    rw [← hasPath_dropWhile, hnil] at hpath
    exact absurd hpath (by decide)
  have hlast : ∀ c ∈ (front.dropWhile Text.isBlank ++ [blank] ++ slashes).getLast?,
      Text.isBlank c = false := by
    intro c hc
    rw [List.getLast?_append_of_ne_nil _ hne] at hc
    rw [hslashes c (List.mem_of_getLast? hc)]
    decide
  have hkept : ∀ c ∈ (front.dropWhile Text.isBlank ++ [blank]).getLast?, (c == '/') = false := by
    intro c hc
    rw [List.getLast?_append_of_ne_nil _ (by simp)] at hc
    cases hc
    exact beq_eq_false_iff_ne.mpr (blank_ne_slash hblank)
  calc trimmed (front ++ blank :: (slashes ++ tail))
      = Text.dropEndWhile (· == '/') (Text.dropEndWhile Text.isBlank
          (front.dropWhile Text.isBlank ++ [blank] ++ slashes ++ tail)) := by
        rw [trimmed, Text.trim, List.dropWhile_append, hnonempty]
        simp only [Bool.false_eq_true, if_false, List.append_assoc, List.singleton_append]
        rfl
    _ = Text.dropEndWhile (· == '/') (front.dropWhile Text.isBlank ++ [blank] ++ slashes) := by
        rw [dropEndWhile_append htail, dropEndWhile_eq_self hlast]
    _ = front.dropWhile Text.isBlank ++ [blank] := by
        rw [dropEndWhile_append fun c hc => beq_iff_eq.mpr (hslashes c hc),
          dropEndWhile_eq_self hkept]

theorem hidesBlank_iff : HidesBlank address ↔ EndsInBlank (normalize address) := by
  rw [endsInBlank_normalize]
  constructor
  · rintro ⟨front, blank, slashes, tail, rfl, hpath, hblank, hne, hslashes, htail⟩
    rw [trimmed_hidden hpath hblank hne hslashes htail, hasPath_concat_blank hblank]
    exact ⟨(hasPath_dropWhile front).mpr hpath, blank, by simp, hblank⟩
  · rintro ⟨hpath, hends⟩
    obtain ⟨lead, slashes, tail, hcut, hlead, hslashes, htail, hend⟩ := exists_cut address
    obtain ⟨front, blank, hfront, hblank⟩ := hends.exists_concat
    refine ⟨lead ++ front, blank, slashes, tail, ?_, ?_, hblank, ?_, hslashes, htail⟩
    · rw [hcut, hfront]
      simp only [List.append_assoc, List.cons_append, List.nil_append]
    · rw [hfront, hasPath_concat_blank hblank] at hpath
      exact (hasPath_blanks_append hlead front).mpr hpath
    · rintro rfl
      rw [List.append_nil] at hend
      exact hend hends

theorem toList_ofAddress (address : String) :
    (ofAddress address).toList = normalize address.toList := String.toList_ofList

theorem ofAddress_eq_self_iff (address : String) :
    ofAddress (ofAddress address) = ofAddress address ↔ ¬ HidesBlank address.toList := by
  rw [hidesBlank_iff, ← String.toList_inj, toList_ofAddress, toList_ofAddress]
  exact ⟨not_endsInBlank_of_normalize_eq _, normalize_normalize _⟩

end Endpoint

/-- Every endpoint has a scheme and a slash after its first `://`. Configured as the address of the
scheduler it is its own endpoint unless the address it was made from hides a blank behind its path. -/
theorem ClientConfig.endpoint_normal_iff (config : ClientConfig) :
    (∃ scheme rest, config.endpoint.toList = scheme ++ Endpoint.schemeEnd ++ rest ∧
        (∀ front back, config.endpoint.toList = front ++ Endpoint.schemeEnd ++ back →
          scheme.length ≤ front.length) ∧
        '/' ∈ rest) ∧
      ({ config with scheduler := config.endpoint }.endpoint = config.endpoint ↔
        ¬ Endpoint.HidesBlank config.scheduler.toList) := by
  refine ⟨?_, Endpoint.ofAddress_eq_self_iff config.scheduler⟩
  have hlist : config.endpoint.toList = Endpoint.normalize config.scheduler.toList :=
    Endpoint.toList_ofAddress config.scheduler
  obtain ⟨rest, hrest, hslash⟩ := Endpoint.exists_afterFirst?_normalize config.scheduler.toList
  rw [← hlist] at hrest
  obtain ⟨scheme, hsplit, hfirst⟩ := Endpoint.afterFirst?_eq_some (by decide) hrest
  exact ⟨scheme, rest, hsplit, hfirst, hslash⟩

/-- The slash behind the blank goes and the blank stays. The next time the blank goes, and the slash
before it, so that the path is a different one. -/
theorem ClientConfig.endpoint_keeps_blank :
    let config := { ClientConfig.ofLayers ⟨1, "host", none⟩ ⟨[]⟩ with scheduler := "h:1/ /" }
    config.endpoint = "ws://h:1/ " ∧
      { config with scheduler := config.endpoint }.endpoint = "ws://h:1/compile" := by
  decide

end Offload
