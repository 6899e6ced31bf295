import Offload.Logging
import Mathlib.Data.List.Basic

/-!
# What decides the log's level and file

The log is configured in steps, which come in any order and any number of times: the command line and
the fallbacks give levels and files. What comes out is read off the steps without going through them one
after the other (`applyAll_precedence`). The last word of the command line counts, or else the
environment, or else the first fallback. A fallback level that is itself a default gives way to a later
one, so that the last one counts if there are no others.

Whether the log is appended to is not settled together with the file. A fallback that asks for it is heard
if it comes while no file is named, and what it asked for stays when the command line names a file later.
-/

namespace Offload

/-- A step of the configuration. -/
inductive LogStep where
  | level (text : String)
  | fallbackLevel (text : String) (source : Source)
  | file (path : String)
  | fallbackFile (path : Option String) (append : Bool)
deriving DecidableEq, Repr

namespace LogStep

/-- The level that the command line gives. -/
def level? : LogStep → Option String
  | level text => some text
  | _ => none

/-- The level that a fallback gives. -/
def fallbackLevel? : LogStep → Option (Sourced String)
  | fallbackLevel text source => some ⟨text, source⟩
  | _ => none

/-- The file that the command line gives. -/
def file? : LogStep → Option String
  | file path => some path
  | _ => none

/-- The file that a fallback gives, if it names one. -/
def fallbackFile? : LogStep → Option String
  | fallbackFile path _ => path
  | _ => none

/-- Whether to append, if the step names a file. The command line never asks for it. -/
def append? : LogStep → Option Bool
  | file _ => some false
  | fallbackFile (some _) append => some append
  | _ => none

theorem append?_eq_none_iff {step : LogStep} :
    step.append? = none ↔ step.file? = none ∧ step.fallbackFile? = none := by
  rcases step with _ | _ | _ | ⟨_ | _, _⟩ <;> simp [append?, file?, fallbackFile?]

theorem append?_eq_true_iff {step : LogStep} :
    step.append? = some true ↔ ∃ path, step = fallbackFile (some path) true := by
  rcases step with _ | _ | _ | ⟨_ | _, _⟩ <;> simp [append?]

end LogStep

namespace LogConfig

/-- The configuration after a step. -/
def apply (log : LogConfig) : LogStep → LogConfig
  | .level text => log.withLevel text
  | .fallbackLevel text source => log.withFallbackLevel text source
  | .file path => log.withFile path
  | .fallbackFile path append => log.withFallbackFile path append

/-- The configuration after several steps. -/
def applyAll (log : LogConfig) (steps : List LogStep) : LogConfig := steps.foldl apply log

variable (log : LogConfig) (step : LogStep) (steps : List LogStep)

@[simp] theorem applyAll_nil : log.applyAll [] = log := rfl

@[simp] theorem applyAll_cons : log.applyAll (step :: steps) = (log.apply step).applyAll steps := rfl

/-- What the command line gives last, of what is picked from its steps. -/
def lastOf (pick : LogStep → Option String) : Option (Sourced String) :=
  (steps.filterMap pick).getLast?.map fun text => ⟨text, .cli⟩

theorem lastOf_cons (pick : LogStep → Option String) : lastOf (step :: steps) pick
    = (lastOf steps pick).or ((pick step).map fun text => ⟨text, .cli⟩) := by
  cases h : pick step with
  | none =>
    rw [lastOf, List.filterMap_cons_none h, Option.map_none, Option.or_none]
    rfl
  | some text =>
    rw [lastOf, lastOf, List.filterMap_cons_some h, List.getLast?_cons]
    cases (steps.filterMap pick).getLast? <;> rfl

/-! ## The level -/

/-- A level, if somebody chose it. -/
def chosen? (level : Sourced String) : Option (Sourced String) :=
  if level.isDefault then none else some level

/-- The first fallback level that is not a default, or else the last one. -/
def fallbackLevel? : Option (Sourced String) :=
  let levels := steps.filterMap LogStep.fallbackLevel?
  (levels.find? fun level => !level.isDefault).or levels.getLast?

theorem fallbackLevel?_cons : fallbackLevel? (step :: steps)
    = (step.fallbackLevel?.bind chosen?).or ((fallbackLevel? steps).or step.fallbackLevel?) := by
  cases h : step.fallbackLevel? with
  | none =>
    rw [fallbackLevel?, List.filterMap_cons_none h, Option.or_none]
    rfl
  | some level =>
    simp only [fallbackLevel?, List.filterMap_cons_some h, List.getLast?_cons, List.find?_cons,
      Option.bind_some, chosen?, Option.or_assoc]
    cases level.isDefault
    · rfl
    · cases (steps.filterMap LogStep.fallbackLevel?).getLast? <;> rfl

theorem chosen?_of_eq_some {level chosen : Sourced String} (h : chosen? level = some chosen) :
    chosen? chosen = some chosen := by
  have hsame : level = chosen := by
    unfold chosen? at h
    split at h
    · cases h
    · exact Option.some.inj h
  rw [← hsame, h, hsame]

/-- A step of the command line sets the level, and a fallback sets it if nobody has chosen one. -/
theorem level_apply : (log.apply step).level =
    ((step.level?.map fun text => ⟨text, .cli⟩).or
      ((chosen? log.level).or step.fallbackLevel?)).getD log.level := by
  cases step with
  | level text => rfl
  | fallbackLevel text source =>
    unfold apply withFallbackLevel chosen?
    cases log.level.isDefault <;> rfl
  | file path =>
    unfold chosen?
    cases log.level.isDefault <;> rfl
  | fallbackFile path append =>
    have hsame : (log.withFallbackFile path append).level = log.level := by
      unfold withFallbackFile
      split <;> rfl
    show (log.withFallbackFile path append).level = _
    rw [hsame, chosen?]
    cases log.level.isDefault <;> rfl

theorem level_applyAll : (log.applyAll steps).level =
    ((lastOf steps LogStep.level?).or
      ((chosen? log.level).or (fallbackLevel? steps))).getD log.level := by
  induction steps generalizing log with
  | nil =>
    show log.level = ((chosen? log.level).or none).getD log.level
    unfold chosen?
    cases log.level.isDefault <;> rfl
  | cons step rest ih =>
    rw [applyAll_cons, ih, level_apply, lastOf_cons, fallbackLevel?_cons]
    cases lastOf rest LogStep.level? with
    | some level => rfl
    | none =>
      cases step.level? with
      | some text => rfl
      | none =>
        -- what was chosen before stays, and else the fallback counts that is chosen first
        cases hchosen : chosen? log.level with
        | some level => simp [chosen?_of_eq_some hchosen]
        | none =>
          cases step.fallbackLevel? with
          | none => simp [hchosen]
          | some level => cases hlevel : chosen? level <;> simp [hlevel]

/-! ## The file -/

/-- The first file that a fallback names. -/
def fallbackFile? : Option (Sourced String) :=
  (steps.filterMap LogStep.fallbackFile?).head?.map fun path => ⟨path, .default⟩

theorem fallbackFile?_cons : fallbackFile? (step :: steps)
    = (step.fallbackFile?.map fun path => ⟨path, .default⟩).or (fallbackFile? steps) := by
  cases h : step.fallbackFile? with
  | none =>
    rw [fallbackFile?, List.filterMap_cons_none h, Option.map_none, Option.none_or]
    rfl
  | some path =>
    rw [fallbackFile?, List.filterMap_cons_some h]
    rfl

/-- A step of the command line sets the file, and a fallback sets it if none is named. -/
theorem file_apply : (log.apply step).file =
    (step.file?.map fun path => ⟨path, .cli⟩).or
      (log.file.or (step.fallbackFile?.map fun path => ⟨path, .default⟩)) := by
  cases step with
  | level text => exact (Option.or_none).symm
  | fallbackLevel text source =>
    show (log.withFallbackLevel text source).file = log.file.or none
    rw [Option.or_none, withFallbackLevel]
    split <;> rfl
  | file path => rfl
  | fallbackFile path append =>
    show (log.withFallbackFile path append).file = log.file.or (path.map _)
    unfold withFallbackFile
    cases hfile : log.file <;> cases path <;> simp [hfile]

theorem file_applyAll : (log.applyAll steps).file =
    (lastOf steps LogStep.file?).or (log.file.or (fallbackFile? steps)) := by
  induction steps generalizing log with
  | nil => exact (Option.or_none).symm
  | cons step rest ih =>
    rw [applyAll_cons, ih, file_apply, lastOf_cons, fallbackFile?_cons]
    simp only [Option.or_assoc]

/-! ## Appending -/

/-- A fallback that names a file asks to append if no file is named before. -/
theorem append_apply : (log.apply step).append =
    (log.append || log.file.isNone && step.append?.getD false) := by
  cases step with
  | level text => simp [apply, withLevel, LogStep.append?]
  | fallbackLevel text source =>
    have hsame : (log.withFallbackLevel text source).append = log.append := by
      unfold withFallbackLevel
      split <;> rfl
    simp [apply, hsame, LogStep.append?]
  | file path => simp [apply, withFile, LogStep.append?]
  | fallbackFile path append =>
    unfold apply withFallbackFile
    cases hfile : log.file <;> cases path <;> simp [LogStep.append?]

theorem isNone_file_apply :
    (log.apply step).file.isNone = (log.file.isNone && step.append?.isNone) := by
  rw [file_apply]
  rcases step with _ | _ | _ | ⟨_ | _, _⟩ <;>
    simp [LogStep.file?, LogStep.fallbackFile?, LogStep.append?]

theorem append_applyAll : (log.applyAll steps).append =
    (log.append || log.file.isNone && (steps.findSome? LogStep.append?).getD false) := by
  induction steps generalizing log with
  | nil => simp
  | cons step rest ih =>
    rw [applyAll_cons, ih, append_apply, isNone_file_apply, List.findSome?_cons]
    cases step.append? <;> simp

/-! ## The environment -/

/-- The level of the environment: `FISK_LOG` unless it is empty, or else that of a variable that only has
to be there. -/
def environmentLevel? (vars : Variables) : Option (Sourced String) :=
  (((vars.lookup? "FISK_LOG").filter (· ≠ "")).map fun text => ⟨text, .env "FISK_LOG"⟩).or
    (((vars.lookup? "FISK_VERBOSE").map fun _ => ⟨"trace", .env "FISK_VERBOSE"⟩).or
      ((vars.lookup? "FISK_DEBUG").map fun _ => ⟨"debug", .env "FISK_DEBUG"⟩))

/-- The file of the environment. -/
def environmentFile? (vars : Variables) : Option (Sourced String) :=
  ((vars.lookup? "FISK_LOG_FILE").filter (· ≠ "")).map fun path => ⟨path, .env "FISK_LOG_FILE"⟩

/-- The environment asks to append to the file. -/
def EnvironmentAppends (vars : Variables) : Prop :=
  ∃ value, vars.lookup? "FISK_LOG_APPEND" = some value ∧
    String.ofList (Text.lowerCase value.toList) ∈ ["1", "true", "yes", "on"]

section Environment

variable (vars : Variables) (defaultLevel : String)

theorem string?_eq (name : String) : vars.string? name =
    ((vars.lookup? (Variables.fullName name)).filter (· ≠ "")).map fun text =>
      ⟨text, .env (Variables.fullName name)⟩ := by
  have hfilled : (fun text : String => !text.isEmpty) = fun text => decide (text ≠ "") := by
    funext text
    rw [Bool.eq_iff_iff, Bool.not_eq_true', decide_eq_true_iff, ne_eq, ← String.isEmpty_iff,
      Bool.not_eq_true]
  rw [Variables.string?, hfilled]

theorem levelOfVariables_eq :
    levelOfVariables vars defaultLevel = (environmentLevel? vars).getD ⟨defaultLevel, .default⟩ := by
  have hverbose : vars.isSet "VERBOSE" = (vars.lookup? "FISK_VERBOSE").isSome := rfl
  have hdebug : vars.isSet "DEBUG" = (vars.lookup? "FISK_DEBUG").isSome := rfl
  have hlog : vars.string? "LOG" = ((vars.lookup? "FISK_LOG").filter (· ≠ "")).map fun text =>
      ⟨text, .env "FISK_LOG"⟩ := string?_eq vars "LOG"
  rw [levelOfVariables, hlog, hverbose, hdebug, environmentLevel?]
  cases (vars.lookup? "FISK_LOG").filter (· ≠ "") with
  | some text => rfl
  | none => cases vars.lookup? "FISK_VERBOSE" <;> cases vars.lookup? "FISK_DEBUG" <;> rfl

theorem chosen?_levelOfVariables :
    chosen? (levelOfVariables vars defaultLevel) = environmentLevel? vars := by
  rw [levelOfVariables_eq, environmentLevel?]
  cases (vars.lookup? "FISK_LOG").filter (· ≠ "") with
  | some text => rfl
  | none => cases vars.lookup? "FISK_VERBOSE" <;> cases vars.lookup? "FISK_DEBUG" <;> rfl

theorem truthOfWord?_eq_true_iff (word : String) : Variables.truthOfWord? word = some true ↔
    String.ofList (Text.lowerCase word.toList) ∈ ["1", "true", "yes", "on"] := by
  unfold Variables.truthOfWord?
  dsimp only
  split
  case isTrue hyes => simp only [hyes]
  case isFalse hno => split <;> simp [hno]

theorem append_ofReader_iff (reader : VariableReader) :
    (ofReader reader defaultLevel).1.append = true ↔ EnvironmentAppends reader.vars := by
  unfold EnvironmentAppends
  simp only [← truthOfWord?_eq_true_iff]
  show ((reader.bool? "LOG_APPEND").1.map (·.value)).getD false = true ↔ _
  unfold VariableReader.bool? Variables.bool?
  show _ ↔ ∃ value, reader.vars.lookup? (Variables.fullName "LOG_APPEND") = some value ∧ _
  cases reader.vars.lookup? (Variables.fullName "LOG_APPEND") with
  | none => simp
  | some value =>
    cases htruth : Variables.truthOfWord? value with
    | none => simp [htruth]
    | some truth => simp [htruth]

end Environment

/-- Whatever the steps, the level is the last one of the command line, or else that of the environment, or
else the first fallback that is not a default, or else the last fallback, or else the default. The file is
the last one of the command line, or else that of the environment, or else the first that a fallback names.
The file is appended to if the environment asks for it, or if it names no file and the first step that
names one is a fallback that asks for it. -/
theorem applyAll_precedence (reader : VariableReader) (defaultLevel : String)
    (steps : List LogStep) :
    let vars := reader.vars
    let log := (ofReader reader defaultLevel).1.applyAll steps
    log.level = ((lastOf steps LogStep.level?).or
        ((environmentLevel? vars).or (fallbackLevel? steps))).getD ⟨defaultLevel, .default⟩ ∧
      log.file = (lastOf steps LogStep.file?).or
        ((environmentFile? vars).or (fallbackFile? steps)) ∧
      (log.append = true ↔ EnvironmentAppends vars ∨ environmentFile? vars = none ∧
        ∃ before path after, steps = before ++ .fallbackFile (some path) true :: after ∧
          ∀ step ∈ before, step.file? = none ∧ step.fallbackFile? = none) := by
  intro vars log
  have hfile : (ofReader reader defaultLevel).1.file = environmentFile? vars := string?_eq vars _
  refine ⟨?_, ?_, ?_⟩
  · rw [level_applyAll]
    show ((lastOf steps LogStep.level?).or
      ((chosen? (levelOfVariables vars defaultLevel)).or _)).getD
        (levelOfVariables vars defaultLevel) = _
    rw [chosen?_levelOfVariables, levelOfVariables_eq]
    cases lastOf steps LogStep.level? <;> cases environmentLevel? vars <;> rfl
  · rw [file_applyAll, hfile]
  · rw [append_applyAll, hfile, Bool.or_eq_true, append_ofReader_iff]
    refine or_congr_right ?_
    rw [Bool.and_eq_true, Option.isNone_iff_eq_none]
    refine and_congr_right fun _ => ?_
    have hfirst : (steps.findSome? LogStep.append?).getD false = true ↔
        steps.findSome? LogStep.append? = some true := by
      cases steps.findSome? LogStep.append? <;> simp
    rw [hfirst, List.findSome?_eq_some_iff]
    simp only [LogStep.append?_eq_none_iff, LogStep.append?_eq_true_iff]
    constructor
    · rintro ⟨before, _, after, hsteps, ⟨path, rfl⟩, hbefore⟩
      exact ⟨before, path, after, hsteps, hbefore⟩
    · rintro ⟨before, path, after, hsteps, hbefore⟩
      exact ⟨before, _, after, hsteps, ⟨path, rfl⟩, hbefore⟩

/-- What the first fallback asked for stays, and what the second one asks for comes too late. -/
example :
    let log := (ofReader (.ofVariables ⟨[]⟩) "error").1
    (log.applyAll [.fallbackFile (some "a.log") true, .file "b.log"]).append = true ∧
      (log.applyAll [.file "b.log", .fallbackFile (some "a.log") true]).append = false := by
  decide

end LogConfig

end Offload
