import BleSim.Logger
import BleSim.Lib.Outcome

/-!
# The command line (`main.c`)

`parse_args` and what it prints. A command line is accepted when it consists of settings, each an
option followed by its operand (`Setting`), and has at least one.
-/

namespace BleSim

open Outcomes

/-! ## Parsing -/

/-- The variable `script_path`, and the state of the logger. -/
structure Program where
  scriptPath : Option CStr
  log : Log
deriving DecidableEq

/-- The program before `main` runs. -/
def Program.initial : Program := ⟨none, ⟨defaultLogLevel, []⟩⟩

/-- `fprintf` to `stdout`. -/
def Program.print (texts : List CStr) (program : Program) : Program :=
  { program with log.printed := program.log.printed ++ texts.map .text }

/-- The lines of `print_usage`. -/
def usage (filename : CStr) : List CStr :=
  ["Usage: ".toList ++ filename ++ "\n".toList,
    "          [--script script_path]\n".toList,
    "          [--logging \x7bNone|Info|Error|Warn|Debug|Trace\x7d]\n".toList,
    "          [--help]\n".toList]

/-- What `print_help` prints below the usage. -/
def help : CStr :=
  ("\n--script script_path:\n"
    ++ "    script_path - Path to the device simulation Lua script\n\n"
    ++ "--logging level:\n"
    ++ "    level - Sets the logging level, can be one of "
    ++ "\x7bNone|Info|Error|Warn|Debug|Trace\x7d (case insensitive).\n"
    ++ "    By default logging is set to level 'Warn'\n\n").toList

/-- `print_usage`. -/
def printUsage (filename : CStr) (program : Program) : Program := program.print (usage filename)

/-- `print_help`. -/
def printHelp (filename : CStr) (program : Program) : Program :=
  (printUsage filename program).print [help]

/-- `argv[i]`, which is there below `argc` only. -/
def readArg (argv : List CStr) (i : ℕ) : Outcome CStr :=
  match argv[i]? with
  | some arg => .ok arg
  | none => .error .outOfBlock

/-- The loop of `parse_args`, from the index `i` on. -/
def parseArgsLoop (argv : List CStr) (filename : CStr) :
    ℕ → ℕ → Program → Outcome (Bool × Program)
  | 0, i, program => if i < argv.length then .error .divergence else .ok (true, program)
  | fuel + 1, i, program =>
    if i < argv.length then do
      let arg ← readArg argv i
      if arg = simArgsOptionScript then
        if i = argv.length - 1 then .ok (false, printUsage filename program)
        else
          let operand ← readArg argv (i + 1)
          parseArgsLoop argv filename fuel (i + 2) { program with scriptPath := some operand }
      else if arg = simArgsOptionHelp then .ok (false, printHelp filename program)
      else if arg = simArgsOptionLogging then
        if i = argv.length - 1 then .ok (false, printUsage filename program)
        else
          let operand ← readArg argv (i + 1)
          let (success, log) := logSetLevelFromStr operand program.log
          if !success then .ok (false, { program with log })
          else parseArgsLoop argv filename fuel (i + 2) { program with log }
      else .ok (false, printUsage filename program)
    else .ok (true, program)

/-- `parse_args`. -/
def parseArgs (argv : List CStr) (program : Program) : Outcome (Bool × Program) := do
  let filename ← readArg argv 0
  if argv.length = 1 then .ok (false, printUsage filename program)
  else parseArgsLoop argv filename argv.length 1 program

/-! ## Settings -/

/-- An option with its operand. -/
inductive Setting where
  | script (path : CStr)
  | logging (name : CStr)

namespace Setting

/-- How a setting is written. -/
def args : Setting → List CStr
  | script path => [simArgsOptionScript, path]
  | logging name => [simArgsOptionLogging, name]

/-- A path can be anything, and a level has to be one that exists. -/
def Valid : Setting → Prop
  | script _ => True
  | logging name => ∃ level : LogLevel, level.IsNamed name

/-- The path a setting gives. -/
def path? : Setting → Option CStr
  | script path => some path
  | logging _ => none

/-- The level a setting gives. -/
def level? : Setting → Option LogLevel
  | script _ => none
  | logging name => LogLevel.named? name

/-- What a setting does. -/
def apply (program : Program) : Setting → Program
  | script path => { program with scriptPath := some path }
  | logging name => { program with log := (logSetLevelFromStr name program.log).2 }

/-- Some settings as they are written, all of them valid. -/
def Spell (settings : List Setting) (arguments : List CStr) : Prop :=
  arguments = settings.flatMap args ∧ ∀ setting ∈ settings, setting.Valid

end Setting

section Loop

variable {argv : List CStr} (filename : CStr)

/-- The first of the arguments from an index on. -/
theorem readArg_of_drop {i : ℕ} {arg : CStr} {rest : List CStr} (h : argv.drop i = arg :: rest) :
    readArg argv i = .ok arg ∧ argv.drop (i + 1) = rest := by
  constructor
  · have hget : argv[i]? = some arg := by
      rw [← List.head?_drop, h]
      rfl
    simp only [readArg, hget]
  · rw [← List.drop_drop, h]
    rfl

/-- A valid setting is carried out, and the loop goes on behind it. -/
theorem parseArgsLoop_setting {setting : Setting} (hvalid : setting.Valid) {i : ℕ}
    {rest : List CStr} (h : argv.drop i = setting.args ++ rest) (fuel : ℕ) (program : Program) :
    parseArgsLoop argv filename (fuel + 1) i program
      = parseArgsLoop argv filename fuel (i + 2) (setting.apply program) := by
  have hlength := congrArg List.length h
  rw [List.length_drop, List.length_append] at hlength
  cases setting with
  | script path =>
    obtain ⟨harg, hdrop⟩ := readArg_of_drop h
    obtain ⟨hoperand, -⟩ := readArg_of_drop hdrop
    simp only [Setting.args, List.length_cons, List.length_nil] at hlength
    rw [parseArgsLoop, if_pos (by omega), harg, ok_bind, if_pos rfl, if_neg (by omega), hoperand,
      ok_bind]
    rfl
  | logging name =>
    obtain ⟨harg, hdrop⟩ := readArg_of_drop h
    obtain ⟨hoperand, -⟩ := readArg_of_drop hdrop
    obtain ⟨level, hlevel⟩ := hvalid
    have hset := (logSetLevelFromStr_named hlevel program.log).1
    simp only [Setting.args, List.length_cons, List.length_nil] at hlength
    rw [parseArgsLoop, if_pos (by omega), harg, ok_bind, if_neg (by decide), if_neg (by decide),
      if_pos rfl, if_neg (by omega), hoperand, ok_bind]
    simp only [hset, Bool.not_true, Bool.false_eq_true, ↓reduceIte]
    rfl

/-- Anything else ends the loop. -/
theorem parseArgsLoop_stops {i : ℕ} {arg : CStr} {rest : List CStr}
    (h : argv.drop i = arg :: rest)
    (hnone : ∀ setting : Setting, setting.Valid → ∀ rest', arg :: rest ≠ setting.args ++ rest')
    (fuel : ℕ) (program : Program) :
    ∃ program', parseArgsLoop argv filename (fuel + 1) i program = .ok (false, program') := by
  have hlength := congrArg List.length h
  rw [List.length_drop, List.length_cons] at hlength
  obtain ⟨harg, hdrop⟩ := readArg_of_drop h
  rw [parseArgsLoop, if_pos (by omega), harg, ok_bind]
  split_ifs with hscript hlast hhelp hlogging hlast
  · exact ⟨_, rfl⟩
  · -- any operand makes a path
    cases rest with
    | nil => simp only [List.length_nil] at hlength; omega
    | cons path rest => exact absurd (by rw [hscript]; rfl) (hnone (.script path) trivial rest)
  · exact ⟨_, rfl⟩
  · exact ⟨_, rfl⟩
  · cases rest with
    | nil => simp only [List.length_nil] at hlength; omega
    | cons name rest =>
      -- the operand is no name of a level
      have hinvalid := logSetLevelFromStr_invalid (fun level (hlevel : level.IsNamed name) =>
        absurd (by rw [hlogging]; rfl) (hnone (.logging name) ⟨level, hlevel⟩ rest)) program.log
      rw [(readArg_of_drop hdrop).1, ok_bind]
      simp only [hinvalid, Bool.not_false, ↓reduceIte]
      exact ⟨_, rfl⟩
  · exact ⟨_, rfl⟩

/-- There are no arguments at `argc` and beyond. -/
theorem parseArgsLoop_end {i : ℕ} (h : argv.length ≤ i) (fuel : ℕ) (program : Program) :
    parseArgsLoop argv filename fuel i program = .ok (true, program) := by
  cases fuel with
  | zero => rw [parseArgsLoop, if_neg (by omega)]
  | succ fuel => rw [parseArgsLoop, if_neg (by omega)]

/-- Valid settings are carried out one after the other. -/
theorem parseArgsLoop_spell {settings : List Setting} {i fuel : ℕ}
    (h : Setting.Spell settings (argv.drop i)) (hfuel : argv.length ≤ i + fuel)
    (program : Program) :
    parseArgsLoop argv filename fuel i program
      = .ok (true, settings.foldl Setting.apply program) := by
  induction settings generalizing i fuel program with
  | nil =>
    have hend : argv.length ≤ i := List.drop_eq_nil_iff.mp h.1
    exact parseArgsLoop_end filename hend fuel program
  | cons setting settings ih =>
    obtain ⟨hdrop, hvalid⟩ := h
    rw [List.flatMap_cons] at hdrop
    rw [List.forall_mem_cons] at hvalid
    have hlength := congrArg List.length hdrop
    have htwo : setting.args.length = 2 := by cases setting <;> rfl
    rw [List.length_drop, List.length_append, htwo] at hlength
    obtain ⟨fuel, rfl⟩ : ∃ n, fuel = n + 1 := Nat.exists_eq_add_one.mpr (by omega)
    have hrest : argv.drop (i + 2) = settings.flatMap Setting.args := by
      rw [← List.drop_drop, hdrop, ← htwo, List.drop_left]
    rw [parseArgsLoop_setting filename hvalid.1 hdrop, ih ⟨hrest, hvalid.2⟩ (by omega)]
    rfl

/-- The loop ends, without a read beyond `argc`, and accepts nothing but valid settings. -/
theorem parseArgsLoop_ends {fuel : ℕ} :
    ∀ {i : ℕ} (program : Program), argv.length ≤ i + fuel →
      ∃ accepted program', parseArgsLoop argv filename fuel i program = .ok (accepted, program') ∧
        (accepted = true → ∃ settings, Setting.Spell settings (argv.drop i)) := by
  induction fuel with
  | zero =>
    intro i program hfuel
    refine ⟨true, program, parseArgsLoop_end filename hfuel 0 program, fun _ => ⟨[], ?_⟩⟩
    exact ⟨List.drop_eq_nil_iff.mpr hfuel, by simp⟩
  | succ fuel ih =>
    intro i program hfuel
    cases hdrop : argv.drop i with
    | nil =>
      have hend := List.drop_eq_nil_iff.mp hdrop
      exact ⟨true, program, parseArgsLoop_end filename hend _ program, fun _ => ⟨[], rfl, by simp⟩⟩
    | cons arg rest =>
      by_cases hsetting : ∃ setting : Setting, setting.Valid ∧ ∃ rest',
          arg :: rest = setting.args ++ rest'
      · obtain ⟨setting, hvalid, rest', hargs⟩ := hsetting
        have hdrop' := hdrop.trans hargs
        obtain ⟨accepted, program', hrun, hspell⟩ := ih (i := i + 2) (setting.apply program)
          (by omega)
        refine ⟨accepted, program', ?_, fun haccepted => ?_⟩
        · rw [parseArgsLoop_setting filename hvalid hdrop', hrun]
        · obtain ⟨settings, hrest, hall⟩ := hspell haccepted
          have htwo : setting.args.length = 2 := by cases setting <;> rfl
          rw [← List.drop_drop, hdrop', ← htwo, List.drop_left] at hrest
          refine ⟨setting :: settings, ?_, List.forall_mem_cons.mpr ⟨hvalid, hall⟩⟩
          rw [hargs, hrest, List.flatMap_cons]
      · obtain ⟨program', hrun⟩ := parseArgsLoop_stops filename hdrop
          (fun setting hvalid rest' hargs => hsetting ⟨setting, hvalid, rest', hargs⟩) fuel program
        exact ⟨false, program', hrun, fun haccepted => by cases haccepted⟩

end Loop

/-! ## Accepted command lines -/

/-- The path in effect is the last one given. -/
theorem scriptPath_foldl (settings : List Setting) (program : Program) :
    (settings.foldl Setting.apply program).scriptPath
      = ((settings.filterMap Setting.path?).getLast?).or program.scriptPath := by
  induction settings generalizing program with
  | nil => rfl
  | cons setting settings ih =>
    rw [List.foldl_cons, ih]
    cases setting with
    | script path =>
      simp only [Setting.apply, List.filterMap_cons, Setting.path?, List.getLast?_cons]
      cases (settings.filterMap Setting.path?).getLast? <;> rfl
    | logging name => rfl

/-- The level in effect is the last one named. -/
theorem level_foldl {settings : List Setting} (hvalid : ∀ setting ∈ settings, setting.Valid)
    (program : Program) : (settings.foldl Setting.apply program).log.level
      = ((settings.filterMap Setting.level?).getLast?).getD program.log.level := by
  induction settings generalizing program with
  | nil => rfl
  | cons setting settings ih =>
    rw [List.forall_mem_cons] at hvalid
    rw [List.foldl_cons, ih hvalid.2]
    cases setting with
    | script path => rfl
    | logging name =>
      obtain ⟨level, hlevel⟩ := hvalid.1
      have hset := (logSetLevelFromStr_named hlevel program.log).2
      simp only [Setting.apply, List.filterMap_cons, Setting.level?,
        LogLevel.named?_eq_some.mpr hlevel, hset, List.getLast?_cons]
      cases (settings.filterMap Setting.level?).getLast? <;> rfl

/-- `parse_args` always returns, and reads below `argc` only. It accepts exactly the nonempty
sequences of valid settings; then the last path and the last level given are in effect. -/
theorem parseArgs_grammar {argv : List CStr} (hargc : 1 ≤ argv.length) :
    ∃ accepted program, parseArgs argv Program.initial = .ok (accepted, program) ∧
      (accepted = true ↔ ∃ settings, settings ≠ [] ∧ Setting.Spell settings argv.tail) ∧
      ∀ settings, settings ≠ [] → Setting.Spell settings argv.tail →
        program.scriptPath = (settings.filterMap Setting.path?).getLast? ∧
        program.log.level =
          ((settings.filterMap Setting.level?).getLast?).getD defaultLogLevel := by
  cases argv with
  | nil => cases hargc
  | cons filename arguments =>
    have hname : readArg (filename :: arguments) 0 = .ok filename := rfl
    cases arguments with
    | nil =>
      -- without arguments there are no settings
      have hnone : ∀ settings, settings ≠ [] → ¬ Setting.Spell settings [] := by
        intro settings hne hspell
        cases settings with
        | nil => exact hne rfl
        | cons setting settings => cases setting <;> cases hspell.1
      refine ⟨false, printUsage filename Program.initial, rfl, ?_, ?_⟩
      · refine iff_of_false (by simp) ?_
        intro ⟨settings, hne, hspell⟩
        exact hnone settings hne hspell
      · intro settings hne hspell
        exact absurd hspell (hnone settings hne)
    | cons arg rest =>
      have hparse : parseArgs (filename :: arg :: rest) Program.initial
          = parseArgsLoop (filename :: arg :: rest) filename
              (filename :: arg :: rest).length 1 Program.initial := by
        simp [parseArgs, hname]
      obtain ⟨accepted, program, hrun, hspells⟩ := parseArgsLoop_ends (i := 1) filename
        Program.initial (Nat.le_add_left (filename :: arg :: rest).length 1)
      have hall : ∀ settings, Setting.Spell settings (arg :: rest) →
          accepted = true ∧ program = settings.foldl Setting.apply Program.initial := by
        intro settings hspell
        have hrun' := parseArgsLoop_spell (i := 1) filename hspell
          (Nat.le_add_left (filename :: arg :: rest).length 1) Program.initial
        simpa using hrun.symm.trans hrun'
      refine ⟨accepted, program, hparse.trans hrun, ⟨fun haccepted => ?_, ?_⟩, ?_⟩
      · obtain ⟨settings, hspell⟩ := hspells haccepted
        refine ⟨settings, ?_, hspell⟩
        rintro rfl
        cases hspell.1
      · intro ⟨settings, _, hspell⟩
        exact (hall settings hspell).1
      · intro settings _ hspell
        rw [(hall settings hspell).2, scriptPath_foldl, level_foldl hspell.2]
        exact ⟨Option.or_none, rfl⟩

/-- The theorem for a command line with two settings, the second of them in lower case. -/
theorem parseArgs_grammar_two_settings :
    1 ≤ ["ble-sim".toList, "--script".toList, "--help".toList, "--logging".toList,
        "debug".toList].length ∧
      ∃ program, parseArgs ["ble-sim".toList, "--script".toList, "--help".toList,
          "--logging".toList, "debug".toList] Program.initial = .ok (true, program) ∧
        program.scriptPath = some "--help".toList ∧ program.log.level = .debug := by
  have hspell : Setting.Spell [.script "--help".toList, .logging "debug".toList]
      ["--script".toList, "--help".toList, "--logging".toList, "debug".toList] := by
    refine ⟨rfl, ?_⟩
    rw [List.forall_mem_cons, List.forall_mem_singleton]
    exact ⟨trivial, .debug, by decide⟩
  refine ⟨by decide, ?_⟩
  obtain ⟨accepted, program, hrun, haccepted, hsettings⟩ := parseArgs_grammar
    (show 1 ≤ ["ble-sim".toList, "--script".toList, "--help".toList, "--logging".toList,
      "debug".toList].length by decide)
  obtain rfl := haccepted.mpr ⟨_, by simp, hspell⟩
  exact ⟨program, hrun, hsettings _ (by simp) hspell⟩

end BleSim
