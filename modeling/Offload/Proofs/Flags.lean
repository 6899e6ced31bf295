import Offload.Flags
import Offload.Proofs.Path
import Mathlib.Data.List.Nodup
import Mathlib.Data.List.Perm.Basic

/-!
# The flags among the arguments

The command line is shared with the compiler, which gets every argument that does not begin with
`--fisk-`, in order, whatever the flags are. The flags are accepted exactly when each of the other
arguments spells a setting and no two of them set the same flag; then the flags are these settings, in
whatever order they came. Otherwise an error is reported and no flag counts (`parse_commandLine`).

The reader goes from left to right and remembers what it has seen. What it finds does not depend on that:
an argument spells a setting, or spoils the reading, wherever it stands (`Setting.ofArg?`). An option
that lacks its value is reported late, but it never is forgotten (`Reading.finish_of_unfinished`).
-/

namespace Offload

/-! ## Settings and their spelling -/

/-- What one argument sets. -/
inductive Setting where
  | option (flag : OptionFlag) (value : String)
  | switch (flag : SwitchFlag)
deriving DecidableEq, Repr

/-- The flag that is set. -/
def Setting.flag : Setting → Flag
  | option flag _ => .option flag
  | switch flag => .switch flag

/-- The names of a flag with a value. -/
def OptionFlag.names : OptionFlag → List String
  | log => ["--fisk-log", "--fisk-log-level"]
  | logFile => ["--fisk-log-file"]
  | compiler => ["--fisk-compiler"]
  | worker => ["--fisk-slave"]

/-- The name of a flag without a value. -/
def SwitchFlag.name : SwitchFlag → String
  | disabled => "--fisk-disabled"
  | cleanSemaphores => "--fisk-clean-semaphores"
  | dumpSemaphores => "--fisk-dump-semaphores"

/-- The argument sets a flag: an option by a name, an equals sign and a value, which must not be empty
for the two paths; a switch by its name alone. -/
inductive Spells : String → Setting → Prop
  | option (flag : OptionFlag) (name value : String) (hname : name ∈ flag.names)
    (hpath : flag = .logFile ∨ flag = .compiler → value ≠ "") :
    Spells (name ++ "=" ++ value) (.option flag value)
  | switch (flag : SwitchFlag) : Spells flag.name (.switch flag)

/-- The argument begins as the client's own arguments do. -/
def IsOwn (arg : String) : Prop := "--fisk-".toList <+: arg.toList

instance (arg : String) : Decidable (IsOwn arg) := inferInstanceAs (Decidable (_ <+: _))

theorem isFlag_iff {arg : String} : isFlag arg = true ↔ IsOwn arg := List.isPrefixOf_iff_prefix

namespace Flag

variable {name : String}

theorem ofName?_eq_option_iff {flag : OptionFlag} :
    ofName? name = some (.option flag) ↔ name ∈ flag.names := by
  constructor
  · intro h
    unfold ofName? at h
    split_ifs at h <;> cases h <;> simp_all [OptionFlag.names]
  · intro h
    cases flag <;> simp only [OptionFlag.names, List.mem_cons, List.not_mem_nil, or_false] at h
    case log => obtain rfl | rfl := h <;> rfl
    all_goals subst h; rfl

theorem ofName?_eq_switch_iff {flag : SwitchFlag} :
    ofName? name = some (.switch flag) ↔ name = flag.name := by
  constructor
  · intro h
    unfold ofName? at h
    split_ifs at h <;> cases h <;> assumption
  · rintro rfl
    cases flag <;> rfl

end Flag

/-! ## Arguments one by one -/

theorem OptionFlag.needsText_iff {flag : OptionFlag} :
    flag.needsText = true ↔ flag = .logFile ∨ flag = .compiler := by
  cases flag <;> decide

theorem OptionFlag.noEquals_of_mem_names {flag : OptionFlag} {name : String}
    (h : name ∈ flag.names) : '=' ∉ name.toList := by
  have hall : ∀ name ∈ flag.names, '=' ∉ name.toList := by cases flag <;> decide
  exact hall name h

theorem SwitchFlag.noEquals_name (flag : SwitchFlag) : '=' ∉ flag.name.toList := by
  cases flag <;> decide

namespace Flags.Spelling

variable {arg name : String}

theorem toList_attached (name value : String) :
    (name ++ "=" ++ value).toList = name.toList ++ '=' :: value.toList := by
  rw [String.toList_append, String.toList_append, List.append_assoc]
  rfl

theorem ofArg_attached (value : String) (h : '=' ∉ name.toList) :
    ofArg (name ++ "=" ++ value) = ⟨name, some value⟩ := by
  rw [ofArg, toList_attached, Text.cutAt?_append h]
  simp only [String.ofList_toList]

theorem ofArg_bare (h : '=' ∉ arg.toList) : ofArg arg = ⟨arg, .none⟩ := by
  rw [ofArg, Text.cutAt?_eq_none_iff.mpr h]

/-- An argument has a value if it contains an equals sign, and then its name ends before the first. -/
theorem attached_or_bare (arg : String) :
    (∃ name value, arg = name ++ "=" ++ value ∧ '=' ∉ name.toList) ∨ '=' ∉ arg.toList := by
  refine or_iff_not_imp_right.mpr fun hequals => ?_
  obtain ⟨before, after, harg, hbefore⟩ := List.eq_append_cons_of_mem (not_not.mp hequals)
  refine ⟨String.ofList before, String.ofList after, ?_, by rwa [String.toList_ofList]⟩
  rw [← String.toList_inj, harg, toList_attached, String.toList_ofList, String.toList_ofList]

end Flags.Spelling

namespace Spells

variable {arg name value : String} {s : Setting}

theorem attached_iff (hname : '=' ∉ name.toList) : Spells (name ++ "=" ++ value) s ↔
    ∃ flag, Flag.ofName? name = some (.option flag) ∧ (flag.needsText && value.isEmpty) = false ∧
      s = .option flag value := by
  have htext : ∀ flag : OptionFlag, (flag.needsText && value.isEmpty) = false ↔
      (flag = .logFile ∨ flag = .compiler → value ≠ "") := by
    intro flag
    rw [← OptionFlag.needsText_iff, ne_eq, ← String.isEmpty_iff]
    cases flag.needsText <;> simp
  simp only [htext, Flag.ofName?_eq_option_iff]
  constructor
  · intro h
    generalize harg : name ++ "=" ++ value = arg at h
    -- where the name ends is seen from the argument
    have hparts := congrArg Flags.Spelling.ofArg harg
    rw [Flags.Spelling.ofArg_attached value hname] at hparts
    cases h with
    | option flag name' value' hmem hpath =>
      rw [Flags.Spelling.ofArg_attached value' (OptionFlag.noEquals_of_mem_names hmem)] at hparts
      cases hparts
      exact ⟨flag, hmem, hpath, rfl⟩
    | switch flag =>
      rw [Flags.Spelling.ofArg_bare flag.noEquals_name] at hparts
      cases hparts
  · rintro ⟨flag, hmem, hpath, rfl⟩
    exact .option flag name value hmem hpath

theorem bare_iff (harg : '=' ∉ arg.toList) :
    Spells arg s ↔ ∃ flag, Flag.ofName? arg = some (.switch flag) ∧ s = .switch flag := by
  simp only [Flag.ofName?_eq_switch_iff]
  constructor
  · intro h
    cases h with
    | option flag name value =>
      rw [Flags.Spelling.toList_attached] at harg
      exact absurd (List.mem_append_right _ List.mem_cons_self) harg
    | switch flag => exact ⟨flag, rfl, rfl⟩
  · rintro ⟨flag, rfl, rfl⟩
    exact .switch flag

end Spells

/-- What an argument sets, if it sets anything. -/
def Setting.ofArg? (arg : String) : Option Setting :=
  let spelling := Flags.Spelling.ofArg arg
  match Flag.ofName? spelling.name, spelling.value with
  | some (.option flag), some value =>
    if flag.needsText && value.isEmpty then none else some (.option flag value)
  | some (.switch flag), none => some (.switch flag)
  | _, _ => none

theorem Setting.ofArg?_eq_some_iff {arg : String} {s : Setting} :
    ofArg? arg = some s ↔ Spells arg s := by
  rcases Flags.Spelling.attached_or_bare arg with ⟨name, value, rfl, hname⟩ | hbare
  · rw [Spells.attached_iff hname, ofArg?, Flags.Spelling.ofArg_attached value hname]
    rcases Flag.ofName? name with _ | flag | flag
    · simp
    · simp only [Option.some.injEq, Flag.option.injEq, exists_eq_left']
      split
      case isTrue htext => simp only [htext, reduceCtorEq, false_and]
      case isFalse htext =>
        rw [and_iff_right (Bool.eq_false_iff.mpr htext), Option.some_inj, eq_comm]
    · simp
  · rw [Spells.bare_iff hbare, ofArg?, Flags.Spelling.ofArg_bare hbare]
    rcases Flag.ofName? arg with _ | flag | flag
    · simp
    · simp
    · simp [eq_comm]

theorem Spells.isOwn {arg : String} {s : Setting} (h : Spells arg s) : IsOwn arg := by
  cases h with
  | option flag name value hname =>
    have hall : ∀ name ∈ flag.names, IsOwn name := by cases flag <;> decide
    unfold IsOwn
    rw [Flags.Spelling.toList_attached]
    exact (hall name hname).trans (List.prefix_append _ _)
  | switch flag => cases flag <;> decide

namespace Flags

/-! ## What is set -/

/-- The value of a flag. -/
def option? (flags : Flags) : OptionFlag → Option String
  | .log => flags.log
  | .logFile => flags.logFile
  | .compiler => flags.compiler
  | .worker => flags.worker

/-- Whether a flag without a value is set. -/
def isOn (flags : Flags) : SwitchFlag → Bool
  | .disabled => flags.disabled
  | .cleanSemaphores => flags.cleanSemaphores
  | .dumpSemaphores => flags.dumpSemaphores

/-- Sets what an argument sets. -/
def set (flags : Flags) : Setting → Flags
  | .option flag value => flags.setOption value flag
  | .switch flag => flags.setSwitch flag

variable {flags flags' : Flags}

theorem ext_settings (hoption : ∀ flag, flags.option? flag = flags'.option? flag)
    (hswitch : ∀ flag, flags.isOn flag = flags'.isOn flag) : flags = flags' := by
  cases flags
  cases flags'
  rw [Flags.mk.injEq]
  exact ⟨hoption .log, hoption .logFile, hoption .compiler, hoption .worker,
    hswitch .disabled, hswitch .cleanSemaphores, hswitch .dumpSemaphores⟩

theorem option?_set (flags : Flags) (s : Setting) (flag : OptionFlag) (value : String) :
    (flags.set s).option? flag = some value ↔ s = .option flag value ∨
      s.flag ≠ .option flag ∧ flags.option? flag = some value := by
  cases s with
  | switch other => cases other <;> cases flag <;> simp [set, setSwitch, option?, Setting.flag]
  | option other v =>
    cases other <;> cases flag <;> simp [set, setOption, option?, Setting.flag]

theorem isOn_set (flags : Flags) (s : Setting) (flag : SwitchFlag) :
    (flags.set s).isOn flag = true ↔ s = .switch flag ∨ flags.isOn flag = true := by
  cases s with
  | option other v => cases other <;> cases flag <;> simp [set, setOption, isOn]
  | switch other => cases other <;> cases flag <;> simp [set, setSwitch, isOn]

/-- After several settings, of which no two are for the same flag, each flag is set as one of them says;
a flag that none of them sets is as it was. -/
theorem option?_foldl_set (settings : List Setting) (flags : Flags)
    (hdistinct : (settings.map Setting.flag).Nodup) (flag : OptionFlag) (value : String) :
    (settings.foldl set flags).option? flag = some value ↔ .option flag value ∈ settings ∨
      .option flag ∉ settings.map Setting.flag ∧ flags.option? flag = some value := by
  induction settings generalizing flags with
  | nil => simp
  | cons s rest ih =>
    rw [List.map_cons, List.nodup_cons] at hdistinct
    rw [List.foldl_cons, ih (flags.set s) hdistinct.2, option?_set, List.mem_cons, List.map_cons,
      List.mem_cons, not_or]
    constructor
    · rintro (hmem | ⟨hnot, rfl | ⟨hother, hvalue⟩⟩)
      · exact .inl (.inr hmem)
      · exact .inl (.inl rfl)
      · exact .inr ⟨⟨hother.symm, hnot⟩, hvalue⟩
    · rintro ((rfl | hmem) | ⟨⟨hother, hnot⟩, hvalue⟩)
      · exact .inr ⟨hdistinct.1, .inl rfl⟩
      · exact .inl hmem
      · exact .inr ⟨hnot, .inr ⟨Ne.symm hother, hvalue⟩⟩

theorem isOn_foldl_set (settings : List Setting) (flags : Flags) (flag : SwitchFlag) :
    (settings.foldl set flags).isOn flag = true ↔
      .switch flag ∈ settings ∨ flags.isOn flag = true := by
  induction settings generalizing flags with
  | nil => simp
  | cons s rest ih =>
    rw [List.foldl_cons, ih (flags.set s), isOn_set, List.mem_cons, or_left_comm, ← or_assoc,
      eq_comm (a := s)]

/-! ## The reading of flags -/

namespace Reading

/-- What the rest of the arguments makes of a reading. -/
def finish (r : Reading) (args : List String) : Except FlagError Flags := do
  let r ← args.foldlM take r
  r.settle
  return r.flags

/-- Notes what an argument sets. -/
def note (r : Reading) (s : Setting) : Reading :=
  { r with flags := r.flags.set s, seen := s.flag :: r.seen }

variable {r r' : Reading} {flag : Flag} {arg : String} {flags : Flags}

theorem bind_eq_ok_iff {ε α β : Type} {x : Except ε α} {f : α → Except ε β} {b : β} :
    x >>= f = .ok b ↔ ∃ a, x = .ok a ∧ f a = .ok b := by
  cases x with
  | error e => simp [bind, Except.bind]
  | ok a => simp [bind, Except.bind]

theorem settle_eq_ok_iff {u : Unit} : r.settle = .ok u ↔ r.unfinished = .none := by
  unfold settle
  split
  case h_1 flag hflag => simp [hflag]
  case h_2 hnone => simp [hnone]

theorem see_eq_ok_iff :
    r.see flag = .ok r' ↔ flag ∉ r.seen ∧ r' = { r with seen := flag :: r.seen } := by
  unfold see
  split
  case isTrue hseen => simp [hseen]
  case isFalse hnew => simp [hnew, eq_comm]

/-- An argument that sets a flag is taken if the flag was not seen. -/
theorem take_of_spells {s : Setting} (hr : r.unfinished = .none) (h : Spells arg s)
    (hnew : s.flag ∉ r.seen) : r.take arg = .ok (r.note s) := by
  have hsettle : r.settle = .ok () := settle_eq_ok_iff.mpr hr
  have hsee := see_eq_ok_iff.mpr ⟨hnew, rfl⟩
  rcases Spelling.attached_or_bare arg with ⟨name, value, rfl, hname⟩ | hbare
  · obtain ⟨flag, hflag, htext, rfl⟩ := (Spells.attached_iff hname).mp h
    rw [Setting.flag] at hsee
    rw [take, Spelling.ofArg_attached value hname]
    simp only [hflag, hsettle, hsee, htext]
    rfl
  · obtain ⟨flag, hflag, rfl⟩ := (Spells.bare_iff hbare).mp h
    rw [Setting.flag] at hsee
    rw [take, Spelling.ofArg_bare hbare]
    simp only [hflag, hsettle, hsee]
    rfl

/-- Only such an argument is taken, and the bare name of an option, which is then to get its value; after
that nothing is taken. -/
theorem take_eq_ok (h : r.take arg = .ok r') : r.unfinished = .none ∧
    ((∃ s, Spells arg s ∧ s.flag ∉ r.seen ∧ r' = r.note s) ∨ r'.unfinished ≠ .none) := by
  rcases Spelling.attached_or_bare arg with ⟨name, value, rfl, hname⟩ | hbare
  · rw [take, Spelling.ofArg_attached value hname] at h
    simp only [Spells.attached_iff hname]
    rcases hflag : Flag.ofName? name with _ | flag | flag <;>
      simp only [hflag, bind_eq_ok_iff, settle_eq_ok_iff, see_eq_ok_iff] at h
    case some.switch => cases h
    case none => cases h
    case some.option =>
      obtain ⟨-, hr, seen, ⟨hnew, rfl⟩, h⟩ := h
      split at h
      case isTrue => cases h
      case isFalse htext =>
        cases h
        refine ⟨hr, .inl ⟨_, ⟨flag, rfl, ?_, rfl⟩, hnew, rfl⟩⟩
        exact Bool.eq_false_iff.mpr htext
  · rw [take, Spelling.ofArg_bare hbare] at h
    simp only [Spells.bare_iff hbare]
    rcases hflag : Flag.ofName? arg with _ | flag | flag <;>
      simp only [hflag, bind_eq_ok_iff, settle_eq_ok_iff, see_eq_ok_iff] at h
    case none => cases h
    case some.option =>
      obtain ⟨-, hr, h⟩ := h
      cases h
      exact ⟨hr, .inr (Option.some_ne_none flag)⟩
    case some.switch =>
      obtain ⟨-, hr, seen, ⟨hnew, rfl⟩, h⟩ := h
      cases h
      exact ⟨hr, .inl ⟨_, ⟨flag, rfl, rfl⟩, hnew, rfl⟩⟩

theorem finish_nil_eq_ok_iff : r.finish [] = .ok flags ↔ r.unfinished = .none ∧ flags = r.flags := by
  show (r.settle >>= fun _ => .ok r.flags) = .ok flags ↔ _
  rw [bind_eq_ok_iff]
  simp only [settle_eq_ok_iff, Except.ok.injEq, eq_comm (a := flags), exists_const]

theorem finish_cons (r : Reading) (arg : String) (rest : List String) :
    r.finish (arg :: rest) = r.take arg >>= fun r => r.finish rest := by
  unfold finish
  rw [List.foldlM_cons]
  cases r.take arg <;> rfl

/-- An option that lacks its value spoils the reading, whatever follows. -/
theorem finish_of_unfinished (hr : r.unfinished ≠ .none) (args : List String) (flags : Flags) :
    r.finish args ≠ .ok flags := by
  intro h
  cases args with
  | nil => exact hr (finish_nil_eq_ok_iff.mp h).1
  | cons arg rest =>
    rw [finish_cons] at h
    obtain ⟨r', htake, -⟩ := bind_eq_ok_iff.mp h
    exact hr (take_eq_ok htake).1

/-- The reading succeeds exactly when every argument sets a flag, and none of them one that another sets
or that was seen before. -/
theorem finish_eq_ok_iff (hr : r.unfinished = .none) (args : List String) :
    r.finish args = .ok flags ↔ (∀ arg ∈ args, ∃ s, Spells arg s) ∧
      ((args.filterMap Setting.ofArg?).map Setting.flag).Nodup ∧
      (∀ s ∈ args.filterMap Setting.ofArg?, s.flag ∉ r.seen) ∧
      flags = (args.filterMap Setting.ofArg?).foldl set r.flags := by
  induction args generalizing r with
  | nil =>
    rw [finish_nil_eq_ok_iff, and_iff_right hr]
    simp
  | cons arg rest ih =>
    rw [finish_cons, bind_eq_ok_iff, List.forall_mem_cons]
    constructor
    · rintro ⟨r', htake, hrest⟩
      obtain ⟨-, ⟨s, hs, hnew, rfl⟩ | hwaits⟩ := take_eq_ok htake
      · obtain ⟨hspelled, hdistinct, hunseen, rfl⟩ := (ih (r := r.note s) hr).mp hrest
        simp only [note, List.mem_cons, not_or] at hunseen
        rw [List.filterMap_cons_some (Setting.ofArg?_eq_some_iff.mpr hs), List.map_cons,
          List.nodup_cons, List.forall_mem_cons]
        refine ⟨⟨⟨s, hs⟩, hspelled⟩, ⟨?_, hdistinct⟩, ⟨hnew, fun t ht => (hunseen t ht).2⟩, rfl⟩
        rw [List.mem_map]
        rintro ⟨t, ht, hflag⟩
        exact (hunseen t ht).1 hflag
      · exact absurd hrest (finish_of_unfinished hwaits rest flags)
    · rintro ⟨⟨⟨s, hs⟩, hspelled⟩, hdistinct, hunseen, hflags⟩
      rw [List.filterMap_cons_some (Setting.ofArg?_eq_some_iff.mpr hs)] at hdistinct hunseen hflags
      rw [List.map_cons, List.nodup_cons] at hdistinct
      rw [List.forall_mem_cons] at hunseen
      refine ⟨r.note s, take_of_spells hr hs hunseen.1, ?_⟩
      refine (ih (r := r.note s) hr).mpr ⟨hspelled, hdistinct.2, ?_, hflags⟩
      intro t ht
      rw [note, List.mem_cons, not_or]
      refine ⟨fun hflag => hdistinct.1 ?_, hunseen.2 t ht⟩
      exact List.mem_map.mpr ⟨t, ht, hflag⟩

end Reading

end Flags

/-! ## The command line -/

/-- Each of the client's own arguments sets a flag, and no two of them set the same one. -/
structure Acceptable (args : List String) : Prop where
  spelled : ∀ arg ∈ args, IsOwn arg → ∃ s, Spells arg s
  once : args.Pairwise fun a b => ∀ s t, Spells a s → Spells b t → s.flag ≠ t.flag

/-- The flags are what the arguments set, and nothing else. -/
structure Flags.SetBy (flags : Flags) (args : List String) : Prop where
  option : ∀ flag value, flags.option? flag = some value ↔
    ∃ arg ∈ args, Spells arg (.option flag value)
  switch : ∀ flag, flags.isOn flag = true ↔ ∃ arg ∈ args, Spells arg (.switch flag)

section Order

variable {args args' : List String} {flags flags' : Flags}

theorem Acceptable.perm (h : Acceptable args) (hperm : args.Perm args') : Acceptable args' := by
  refine ⟨fun arg harg => h.spelled arg (hperm.mem_iff.mpr harg), ?_⟩
  exact (hperm.pairwise_iff fun hne s t hs ht => (hne t s ht hs).symm).mp h.once

theorem Flags.SetBy.perm (h : flags.SetBy args) (hperm : args.Perm args') : flags.SetBy args' := by
  refine ⟨fun flag value => ?_, fun flag => ?_⟩
  · rw [h.option]
    simp only [hperm.mem_iff]
  · rw [h.switch]
    simp only [hperm.mem_iff]

theorem Flags.SetBy.unique (h : flags.SetBy args) (h' : flags'.SetBy args) : flags = flags' := by
  refine ext_settings (fun flag => ?_) fun flag => ?_
  · exact Option.ext fun value => (h.option flag value).trans (h'.option flag value).symm
  · exact Bool.eq_iff_iff.mpr ((h.switch flag).trans (h'.switch flag).symm)

end Order

namespace CommandLine

variable {args : List String} {flags : Flags}

/-- The arguments for the compiler set nothing. -/
theorem filterMap_flagArgs (args : List String) :
    (flagArgs args).filterMap Setting.ofArg? = args.filterMap Setting.ofArg? := by
  rw [flagArgs, List.filterMap_filter]
  refine List.filterMap_congr fun arg _ => ?_
  split
  case isTrue => rfl
  case isFalse hother =>
    refine (Option.eq_none_iff_forall_ne_some.mpr fun s hs => hother ?_).symm
    exact isFlag_iff.mpr (Setting.ofArg?_eq_some_iff.mp hs).isOwn

theorem acceptable_iff : Acceptable args ↔ (∀ arg ∈ flagArgs args, ∃ s, Spells arg s) ∧
    ((args.filterMap Setting.ofArg?).map Setting.flag).Nodup := by
  rw [List.Nodup, List.pairwise_map, List.pairwise_filterMap]
  simp only [flagArgs, List.mem_filter, isFlag_iff, and_imp, Setting.ofArg?_eq_some_iff]
  constructor
  · intro h
    exact ⟨h.spelled, h.once.imp fun hne s hs t ht => hne s t hs ht⟩
  · rintro ⟨hspelled, honce⟩
    exact ⟨hspelled, honce.imp fun hne s t hs ht => hne s hs t ht⟩

theorem setBy_foldl (hdistinct : ((args.filterMap Setting.ofArg?).map Setting.flag).Nodup) :
    ((args.filterMap Setting.ofArg?).foldl Flags.set .none).SetBy args := by
  have hmem : ∀ s, s ∈ args.filterMap Setting.ofArg? ↔ ∃ arg ∈ args, Spells arg s := by
    intro s
    simp only [List.mem_filterMap, Setting.ofArg?_eq_some_iff]
  refine ⟨fun flag value => ?_, fun flag => ?_⟩
  · have hnone : Flags.none.option? flag = none := by cases flag <;> rfl
    rw [Flags.option?_foldl_set _ _ hdistinct, hmem, hnone]
    simp only [reduceCtorEq, and_false, or_false]
  · have hoff : Flags.none.isOn flag = false := by cases flag <;> rfl
    rw [Flags.isOn_foldl_set, hmem, hoff]
    simp only [Bool.false_eq_true, or_false]

/-- The flags are read exactly if they are acceptable, and then they are what the arguments set. -/
theorem read_eq_ok_iff :
    Flags.read (flagArgs args) = .ok flags ↔ Acceptable args ∧ flags.SetBy args := by
  have hread : Flags.read (flagArgs args)
      = Flags.Reading.finish ⟨.none, [], .none⟩ (flagArgs args) := rfl
  rw [hread, Flags.Reading.finish_eq_ok_iff rfl, filterMap_flagArgs, acceptable_iff]
  constructor
  · rintro ⟨hspelled, hdistinct, -, rfl⟩
    exact ⟨⟨hspelled, hdistinct⟩, setBy_foldl hdistinct⟩
  · rintro ⟨⟨hspelled, hdistinct⟩, hset⟩
    exact ⟨hspelled, hdistinct, fun s _ => List.not_mem_nil, hset.unique (setBy_foldl hdistinct)⟩

theorem compilerArgsOf_eq (args : List String) :
    compilerArgsOf args = args.filter fun arg => ¬ IsOwn arg := by
  refine List.filter_congr fun arg _ => ?_
  rw [Bool.eq_iff_iff, Bool.not_eq_true', decide_eq_true_iff, ← isFlag_iff, Bool.not_eq_true]

theorem parse_of_acceptable (h : Acceptable args) (hset : flags.SetBy args) :
    parse args = ⟨flags, compilerArgsOf args, none⟩ := by
  rw [parse, read_eq_ok_iff.mpr ⟨h, hset⟩]

theorem parse_of_not_acceptable (h : ¬ Acceptable args) :
    ∃ e, parse args = ⟨.none, compilerArgsOf args, some e⟩ := by
  cases hread : Flags.read (flagArgs args) with
  | ok flags => exact absurd (read_eq_ok_iff.mp hread).1 h
  | error e => exact ⟨e, by rw [parse, hread]⟩

/-- The compiler gets the arguments that are not the client's own, in order, whatever the flags are. There
is no error exactly if each of the client's own arguments sets a flag, an option by `NAME=VALUE` and a
switch by its name, and no flag is set twice. Then the flags are what the arguments set, and another order
in which the compiler's arguments follow each other in the same way gives the same. Otherwise an error is
reported and no flag is set. -/
theorem parse_commandLine (args : List String) :
    let line := parse args
    line.compilerArgs = (args.filter fun arg => ¬ IsOwn arg) ∧
      (line.flagError = none ↔ Acceptable args) ∧
      (Acceptable args → line.flags.SetBy args ∧ ∀ args', args'.Perm args →
        (args'.filter fun arg => ¬ IsOwn arg) = (args.filter fun arg => ¬ IsOwn arg) →
        parse args' = line) ∧
      (¬ Acceptable args → (∃ e, line.flagError = some e) ∧
        (∀ flag, line.flags.option? flag = none) ∧ ∀ flag, line.flags.isOn flag = false) := by
  intro line
  by_cases h : Acceptable args
  · have hset := setBy_foldl (acceptable_iff.mp h).2
    have hline : line = _ := parse_of_acceptable h hset
    rw [hline]
    refine ⟨compilerArgsOf_eq args, iff_of_true rfl h, fun _ => ⟨hset, ?_⟩, fun hnot => absurd h hnot⟩
    intro args' hperm hsame
    rw [parse_of_acceptable (h.perm hperm.symm) (hset.perm hperm.symm), compilerArgsOf_eq,
      compilerArgsOf_eq, hsame]
  · obtain ⟨e, hline⟩ := parse_of_not_acceptable h
    change line = _ at hline
    rw [hline]
    refine ⟨compilerArgsOf_eq args, iff_of_false (Option.some_ne_none e) h,
      fun haccept => absurd haccept h, fun _ => ⟨⟨e, rfl⟩, fun flag => ?_, fun flag => ?_⟩⟩
    · cases flag <;> rfl
    · cases flag <;> rfl

/-- The level under its second name, a switch and a path, in two orders. -/
theorem parse_commandLine_shuffled :
    let args := ["-c", "--fisk-log-level=", "main.c", "--fisk-disabled", "--fisk-compiler=/bin/a=b"]
    let args' := ["--fisk-compiler=/bin/a=b", "--fisk-disabled", "-c", "main.c", "--fisk-log-level="]
    Acceptable args ∧ (parse args).flags.option? .log = some "" ∧
      (parse args).flags.option? .compiler = some "/bin/a=b" ∧ parse args' = parse args := by
  intro args args'
  obtain ⟨-, hnone, haccepted, -⟩ := parse_commandLine args
  have haccept : Acceptable args := hnone.mp (by decide)
  obtain ⟨hset, horder⟩ := haccepted haccept
  refine ⟨haccept, ?_, ?_, horder args' (by decide) (by decide)⟩
  · exact (hset.option .log "").mpr ⟨"--fisk-log-level" ++ "=" ++ "", by decide,
      .option .log _ _ (by decide) (by decide)⟩
  · exact (hset.option .compiler "/bin/a=b").mpr ⟨"--fisk-compiler" ++ "=" ++ "/bin/a=b", by decide,
      .option .compiler _ _ (by decide) (by decide)⟩

end CommandLine

end Offload
