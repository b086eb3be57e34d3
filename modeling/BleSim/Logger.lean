import BleSim.Defines

/-!
# The logger (`logger.c`)

The level that is set, and what the process has printed. A line of the log is kept without its
time stamp.
-/

namespace BleSim

/-- `loglevel_t`. -/
inductive LogLevel where
  | none
  | info
  | error
  | warn
  | debug
  | trace
deriving DecidableEq, Repr

/-- The enumerators' values: a message is printed up to the level that is set. -/
def LogLevel.code : LogLevel → ℕ
  | none => 0
  | info => 1
  | error => 2
  | warn => 3
  | debug => 4
  | trace => 5

/-- The array `log_level_strings`, indexed by enumerators. -/
def LogLevel.string : LogLevel → CStr
  | none => loggingLevelNoneStr
  | info => loggingLevelInfoStr
  | error => loggingLevelErrorStr
  | warn => loggingLevelWarnStr
  | debug => loggingLevelDebugStr
  | trace => loggingLevelTraceStr

/-- `DEFAULT_LOG_LEVEL`. -/
def defaultLogLevel : LogLevel := .warn

/-- What is printed in one call: text on `stdout`, or a line of the log. -/
inductive Output where
  | text (text : CStr)
  | line (stderr : Bool) (level message : CStr)
deriving DecidableEq

/-- The variable `log_level`, and everything printed. -/
structure Log where
  level : LogLevel
  printed : List Output
deriving DecidableEq

/-- `log_set_level`. -/
def logSetLevel (newLevel : LogLevel) (log : Log) : Log := { log with level := newLevel }

/-- `log_log`: the buffer for the message holds 1023 characters. -/
def logLog (level : LogLevel) (message : CStr) (log : Log) : Log :=
  if log.level.code < level.code then log
  else
    { log with
      printed := log.printed ++ [.line (level == .error) level.string (message.take 1023)] }

/-- `log_info`, on a message that has been formatted. -/
def logInfo (message : CStr) (log : Log) : Log := logLog .info message log

/-- `log_error`, on a message that has been formatted. -/
def logError (message : CStr) (log : Log) : Log := logLog .error message log

/-- `log_debug`, on a message that has been formatted. -/
def logDebug (message : CStr) (log : Log) : Log := logLog .debug message log

/-- Whether `strcasecmp` finds two strings equal: they differ in the case of letters at most. -/
def strcasecmpEqual (a b : CStr) : Bool := a.map Char.toLower == b.map Char.toLower

/-- `log_set_level_from_str`. -/
def logSetLevelFromStr (arg : CStr) (log : Log) : Bool × Log :=
  let accept (level : LogLevel) : Bool × Log :=
    (true, logInfo ("Set logging level to ".toList ++ arg) (logSetLevel level log))
  if strcasecmpEqual arg loggingLevelNoneStr then accept .none
  else if strcasecmpEqual arg loggingLevelInfoStr then accept .info
  else if strcasecmpEqual arg loggingLevelErrorStr then accept .error
  else if strcasecmpEqual arg loggingLevelWarnStr then accept .warn
  else if strcasecmpEqual arg loggingLevelDebugStr then accept .debug
  else if strcasecmpEqual arg loggingLevelTraceStr then accept .trace
  else (false, logInfo ("Invalid logging level ".toList ++ arg) log)

/-! ## Names of levels -/

/-- A string is the name of a level, in whatever case. -/
def LogLevel.IsNamed (level : LogLevel) (arg : CStr) : Prop :=
  arg.map Char.toLower = level.string.map Char.toLower

instance (level : LogLevel) (arg : CStr) : Decidable (level.IsNamed arg) :=
  inferInstanceAs (Decidable (_ = _))

/-- A string is the name of at most one level. -/
theorem LogLevel.IsNamed.unique {level level' : LogLevel} {arg : CStr} (h : level.IsNamed arg)
    (h' : level'.IsNamed arg) : level = level' := by
  have heq : level.string.map Char.toLower = level'.string.map Char.toLower := h.symm.trans h'
  revert heq
  cases level <;> cases level' <;> decide

theorem strcasecmpEqual_eq (level : LogLevel) (arg : CStr) :
    strcasecmpEqual arg level.string = decide (level.IsNamed arg) := by
  rw [Bool.eq_iff_iff, decide_eq_true_iff]
  exact beq_iff_eq

/-- The levels in the order in which their names are compared. -/
def logLevels : List LogLevel := [.none, .info, .error, .warn, .debug, .trace]

/-- The level with the given name, if there is one. -/
def LogLevel.named? (arg : CStr) : Option LogLevel :=
  logLevels.find? fun level => decide (level.IsNamed arg)

theorem LogLevel.named?_eq_some {level : LogLevel} {arg : CStr} :
    LogLevel.named? arg = some level ↔ level.IsNamed arg := by
  have hfound : ∀ {found : LogLevel}, LogLevel.named? arg = some found → found.IsNamed arg := by
    intro found hfind
    exact of_decide_eq_true
      (List.find?_some (p := fun level : LogLevel => decide (level.IsNamed arg)) hfind)
  constructor
  · exact hfound
  · intro h
    cases hfind : LogLevel.named? arg with
    | none =>
      have hmem : level ∈ logLevels := by cases level <;> decide
      exact absurd (decide_eq_true h) (List.find?_eq_none.mp hfind level hmem)
    | some found => rw [(hfound hfind).unique h]

/-! ## Setting the level -/

theorem level_logInfo (message : CStr) (log : Log) : (logInfo message log).level = log.level := by
  unfold logInfo logLog
  split <;> rfl

/-- The comparisons look for the level with the given name. -/
theorem logSetLevelFromStr_eq (arg : CStr) (log : Log) : logSetLevelFromStr arg log =
    match LogLevel.named? arg with
    | some level =>
      (true, logInfo ("Set logging level to ".toList ++ arg) (logSetLevel level log))
    | .none => (false, logInfo ("Invalid logging level ".toList ++ arg) log) := by
  unfold LogLevel.named? logLevels
  simp only [List.find?_cons, List.find?_nil, ← strcasecmpEqual_eq]
  unfold logSetLevelFromStr
  simp only [LogLevel.string]
  split_ifs <;> simp [*]

/-- The name of a level sets it. -/
theorem logSetLevelFromStr_named {level : LogLevel} {arg : CStr} (h : level.IsNamed arg)
    (log : Log) : (logSetLevelFromStr arg log).1 = true ∧
      (logSetLevelFromStr arg log).2.level = level := by
  rw [logSetLevelFromStr_eq, LogLevel.named?_eq_some.mpr h]
  exact ⟨rfl, level_logInfo _ _⟩

/-- Any other string is turned away. -/
theorem logSetLevelFromStr_invalid {arg : CStr} (h : ∀ level : LogLevel, ¬ level.IsNamed arg)
    (log : Log) : (logSetLevelFromStr arg log).1 = false := by
  have hnone : LogLevel.named? arg = .none := by
    apply Option.eq_none_iff_forall_ne_some.mpr
    intro level hlevel
    exact h level (LogLevel.named?_eq_some.mp hlevel)
  rw [logSetLevelFromStr_eq, hnone]

end BleSim
