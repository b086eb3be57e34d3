import Mathlib.Data.List.Induction
import BleSim.Lib.Outcome
import BleSim.Logger

/-!
# The Lua stack of the simulator (`lua_interface.c`)

The stack of `luai_state` as the C code uses it: the set-up of the API, the loading of the
script, and the call of its `Update` function at every tick. Each function of the Lua API has
its documented effect on the stack. The functions the script calls have stack frames of their own.
-/

namespace BleSim

open Outcomes

/-! ## Values on the stack -/

/-- Values a script can raise as an error. A number is given by its text. -/
inductive ErrorValue where
  | string (text : CStr)
  | number (text : CStr)
  | other
deriving DecidableEq, Repr

/-- How a call of a Lua function ends. -/
inductive CallOutcome where
  | returns
  | raises (error : ErrorValue)
deriving DecidableEq, Repr

/-- A value on the stack, as far as the C code tells values apart. Of a Lua function it is given
how a call of it ends. -/
inductive StackValue where
  | nil
  | table
  | cfunction
  | function (call : CallOutcome)
  | datum (value : ErrorValue)
deriving DecidableEq, Repr

/-- The stack, with its top first. -/
abbrev LuaStack := List StackValue

/-- `LUA_MINSTACK`: the slots C code has without a call of `lua_checkstack`. -/
def luaMinstack : ℕ := 20

/-- `lua_typename` of the type of a value. -/
def StackValue.typeName : StackValue → CStr
  | .nil => "nil".toList
  | .table => "table".toList
  | .cfunction | .function _ => "function".toList
  | .datum (.string _) => "string".toList
  | .datum (.number _) => "number".toList
  | .datum .other => "userdata".toList

/-- A function of the API that pushes a value, for which a slot is needed. -/
def luaPush (value : StackValue) (stack : LuaStack) : Outcome LuaStack :=
  if stack.length < luaMinstack then .ok (value :: stack) else .error .precondition

/-- `lua_setglobal`. -/
def luaSetglobal : LuaStack → Outcome LuaStack
  | _ :: stack => .ok stack
  | _ => .error .precondition

/-- `lua_setfield`, on the table below the top. -/
def luaSetfield : LuaStack → Outcome LuaStack
  | _ :: .table :: stack => .ok (.table :: stack)
  | _ => .error .precondition

/-- `lua_settable`, on the table below key and value. -/
def luaSettable : LuaStack → Outcome LuaStack
  | _ :: _ :: .table :: stack => .ok (.table :: stack)
  | _ => .error .precondition

/-- `luaL_setfuncs`, on the table at the top. -/
def luaLSetfuncs (functions : List CStr) (stack : LuaStack) : Outcome LuaStack :=
  functions.foldlM (fun stack _ => luaPush .cfunction stack >>= luaSetfield) stack

/-- `lua_tostring`, on the top: a number is turned into a string in its place. -/
def luaTostring : LuaStack → Outcome (Option CStr × LuaStack)
  | .datum (.string text) :: stack => .ok (some text, .datum (.string text) :: stack)
  | .datum (.number text) :: stack => .ok (some text, .datum (.string text) :: stack)
  | value :: stack => .ok (none, value :: stack)
  | [] => .error .precondition

/-- `lua_pcall` with no arguments and no results, and whether it returns an error status. -/
def luaPcall : LuaStack → Outcome (Bool × LuaStack)
  | .function .returns :: stack => .ok (false, stack)
  | .function (.raises error) :: stack => do
    let stack ← luaPush (.datum error) stack
    .ok (true, stack)
  | value :: stack => do
    let stack ← luaPush
      (.datum (.string ("attempt to call a ".toList ++ value.typeName ++ " value".toList))) stack
    .ok (true, stack)
  | [] => .error .precondition

/-! ## Set-up -/

def luaiBleSimApi : List CStr :=
  ["createDevice".toList, "createService".toList, "createCharacteristic".toList,
    "createDescriptor".toList, "registerDevice".toList]

def luaiDeviceObjectFunctions : List CStr :=
  ["addService".toList, "powered".toList, "discoverable".toList]

def luaiServiceObjectFunctions : List CStr := ["addCharacteristic".toList]

def luaiCharacteristicObjectFunctions : List CStr :=
  ["addDescriptor".toList, "notifying".toList, "setValue".toList]

def luaiDescriptorObjectFunctions : List CStr := []

/-- The macro `LUA_ENUM`. -/
def luaEnum (name val : CStr) (stack : LuaStack) : Outcome LuaStack := do
  let stack ← luaPush (.datum (.string name)) stack
  let stack ← luaPush (.datum (.number val)) stack
  luaSettable stack

/-- `luai_register_datatype_enums`. -/
def luaiRegisterDatatypeEnums (stack : LuaStack) : Outcome LuaStack := do
  let stack ← luaPush .table stack
  let stack ← luaEnum "BOOL".toList "0".toList stack
  let stack ← luaEnum "INT8".toList "1".toList stack
  let stack ← luaEnum "UINT8".toList "2".toList stack
  let stack ← luaEnum "INT16".toList "3".toList stack
  let stack ← luaEnum "UINT16".toList "4".toList stack
  let stack ← luaEnum "INT32".toList "5".toList stack
  let stack ← luaEnum "UINT32".toList "6".toList stack
  let stack ← luaEnum "INT64".toList "7".toList stack
  let stack ← luaEnum "UINT64".toList "8".toList stack
  let stack ← luaEnum "FLOAT".toList "9".toList stack
  let stack ← luaEnum "DOUBLE".toList "10".toList stack
  let stack ← luaEnum "STRING".toList "11".toList stack
  luaSetglobal stack

/-- `luai_setup_lua_sim_api`. -/
def luaiSetupLuaSimApi (stack : LuaStack) : Outcome LuaStack := do
  let stack ← luaPush .table stack
  let stack ← luaLSetfuncs luaiBleSimApi stack
  let stack ← luaSetglobal stack
  luaiRegisterDatatypeEnums stack

/-- One of the four parts of `luai_setup_object_metatables`. The metatable stays on the stack. -/
def luaiSetupMetatable (functions : List CStr) (stack : LuaStack) : Outcome LuaStack := do
  let stack ← luaPush .table stack
  let stack ← luaPush .table stack
  let stack ← luaSetfield stack
  let stack ← luaLSetfuncs functions stack
  let stack ← luaPush .cfunction stack
  luaSetfield stack

/-- `luai_setup_object_metatables`. -/
def luaiSetupObjectMetatables (stack : LuaStack) : Outcome LuaStack := do
  let stack ← luaiSetupMetatable luaiDeviceObjectFunctions stack
  let stack ← luaiSetupMetatable luaiServiceObjectFunctions stack
  let stack ← luaiSetupMetatable luaiCharacteristicObjectFunctions stack
  luaiSetupMetatable luaiDescriptorObjectFunctions stack

/-! ## Calls into the script -/

/-- The variable `luai_state`, as the stack it has if it is not `NULL`, and the log. -/
structure LuaHost where
  luaiState : Option LuaStack
  log : Log
deriving DecidableEq

/-- `lua_fail`. The C library prints `(null)` for a `NULL` string. -/
def luaFail (stack : LuaStack) (log : Log) : Outcome (LuaStack × Log) := do
  let (text, stack) ← luaTostring stack
  .ok (stack, logError ("Lua - ".toList ++ text.getD "(null)".toList) log)

/-- `luai_call_function`, where the global is the given value. -/
def luaiCallFunction (functionName : CStr) (global : StackValue) (stack : LuaStack) (log : Log) :
    Outcome (Bool × LuaStack × Log) := do
  let stack ← luaPush global stack
  let (failed, stack) ← luaPcall stack
  if failed then
    let log := logError ("No '".toList ++ functionName ++ "' function found.\n".toList) log
    let (stack, log) ← luaFail stack log
    .ok (false, stack, log)
  else .ok (true, stack, log)

/-- What `luaL_loadfile` makes of the script: an error message, or a function. -/
inductive Script where
  | invalid (message : CStr)
  | chunk (call : CallOutcome)
deriving DecidableEq, Repr

/-- `luai_load_script`, with `init_lua_state`. -/
def luaiLoadScript (script : Script) (host : LuaHost) : Outcome (Bool × LuaHost) := do
  let stack ← luaiSetupLuaSimApi []
  let stack ← luaiSetupObjectMetatables stack
  let (failed, stack) ← match script with
    | .invalid message => do
      let stack ← luaPush (.datum (.string message)) stack
      .ok (true, stack)
    | .chunk call => luaPush (.function call) stack >>= luaPcall
  if failed then
    let (stack, log) ← luaFail stack host.log
    .ok (false, { luaiState := some stack, log := logError "Failed to open luafile".toList log })
  else .ok (true, { host with luaiState := some stack })

/-- What the script has for `Update` at a tick: nothing, or a function. -/
abbrev UpdateFunction := Option CallOutcome

/-- The global `Update`. -/
def UpdateFunction.global : UpdateFunction → StackValue
  | some call => .function call
  | none => .nil

/-- `luai_call_update`. -/
def luaiCallUpdate (update : UpdateFunction) (host : LuaHost) : Outcome (Bool × LuaHost) :=
  match host.luaiState with
  | none => .ok (false, { host with log := logDebug "Lua state was NULL".toList host.log })
  | some stack => do
    let (called, stack, log) ← luaiCallFunction "Update".toList update.global stack host.log
    .ok (called, { luaiState := some stack, log })

/-! ## The height of the stack -/

/-- The height of the stack. -/
def LuaHost.height (host : LuaHost) : ℕ := (host.luaiState.getD []).length

/-- Whether a call of `Update` fails. -/
def UpdateFunction.Fails (update : UpdateFunction) : Prop := update ≠ some .returns

instance (update : UpdateFunction) : Decidable update.Fails := inferInstanceAs (Decidable (_ ≠ _))

theorem luaPush_of_lt {value : StackValue} {stack : LuaStack} (h : stack.length < luaMinstack) :
    luaPush value stack = .ok (value :: stack) := if_pos h

theorem luaPush_of_le {value : StackValue} {stack : LuaStack} (h : luaMinstack ≤ stack.length) :
    luaPush value stack = .error .precondition := if_neg (Nat.not_lt.mpr h)

/-- Reading the text of the top leaves the height as it is. -/
theorem luaTostring_length (value : StackValue) (stack : LuaStack) :
    ∃ text stack', luaTostring (value :: stack) = .ok (text, stack') ∧
      stack'.length = stack.length + 1 := by
  cases value with
  | datum value => cases value <;> exact ⟨_, _, rfl, rfl⟩
  | _ => exact ⟨_, _, rfl, rfl⟩

/-- `lua_fail` leaves the error on the stack. -/
theorem luaFail_length (value : StackValue) (stack : LuaStack) (log : Log) :
    ∃ stack' log', luaFail (value :: stack) log = .ok (stack', log') ∧
      stack'.length = stack.length + 1 := by
  obtain ⟨text, stack', htext, hlength⟩ := luaTostring_length value stack
  refine ⟨stack', logError ("Lua - ".toList ++ text.getD "(null)".toList) log, ?_, hlength⟩
  unfold luaFail
  rw [htext]
  rfl

/-- A call that fails puts an error in the place of the function. -/
theorem luaPcall_of_fails {update : UpdateFunction} {stack : LuaStack} (h : update.Fails)
    (hslots : stack.length < luaMinstack) :
    ∃ error, luaPcall (update.global :: stack) = .ok (true, .datum error :: stack) := by
  cases update with
  | none =>
    refine ⟨.string "attempt to call a nil value".toList, ?_⟩
    rw [UpdateFunction.global, luaPcall, luaPush_of_lt hslots]
    · rfl
    all_goals simp
  | some call =>
    cases call with
    | returns => exact absurd rfl h
    | raises error =>
      refine ⟨error, ?_⟩
      rw [UpdateFunction.global, luaPcall, luaPush_of_lt hslots]
      rfl

/-- A call that returns leaves the stack as it was. -/
theorem luaiCallFunction_returns (functionName : CStr) {stack : LuaStack} (log : Log)
    (hslots : stack.length < luaMinstack) :
    luaiCallFunction functionName (.function .returns) stack log = .ok (true, stack, log) := by
  unfold luaiCallFunction
  rw [luaPush_of_lt hslots]
  rfl

/-- A call that fails leaves the stack one higher. -/
theorem luaiCallFunction_fails (functionName : CStr) {update : UpdateFunction} {stack : LuaStack}
    (log : Log) (h : update.Fails) (hslots : stack.length < luaMinstack) :
    ∃ stack' log', luaiCallFunction functionName update.global stack log =
      .ok (false, stack', log') ∧ stack'.length = stack.length + 1 := by
  obtain ⟨error, hcall⟩ := luaPcall_of_fails h hslots
  obtain ⟨stack', log', hfail, hlength⟩ := luaFail_length (.datum error) stack
    (logError ("No '".toList ++ functionName ++ "' function found.\n".toList) log)
  refine ⟨stack', log', ?_, hlength⟩
  unfold luaiCallFunction
  simp only [luaPush_of_lt hslots, ok_bind, hcall, hfail, if_true]

/-- Without a free slot the function is not even pushed. -/
theorem luaiCallFunction_full (functionName : CStr) (global : StackValue) {stack : LuaStack}
    (log : Log) (hslots : luaMinstack ≤ stack.length) :
    luaiCallFunction functionName global stack log = .error .precondition := by
  unfold luaiCallFunction
  rw [luaPush_of_le hslots]
  rfl

/-- The script has been loaded: there is a Lua state, with a stack of the given height. -/
def LuaHost.HasHeight (height : ℕ) (host : LuaHost) : Prop :=
  ∃ stack : LuaStack, host.luaiState = some stack ∧ stack.length = height

/-- One tick: the height grows by one when `Update` fails. -/
theorem LuaHost.HasHeight.step {height : ℕ} {update : UpdateFunction} {host host' : LuaHost}
    {r : Bool} (h : host.HasHeight height) (hstep : luaiCallUpdate update host = .ok (r, host')) :
    host'.HasHeight (height + if update.Fails then 1 else 0) := by
  obtain ⟨stack, hstate, rfl⟩ := h
  simp only [luaiCallUpdate, hstate] at hstep
  obtain hslots | hfull := Nat.lt_or_ge stack.length luaMinstack
  swap
  · rw [luaiCallFunction_full _ _ _ hfull] at hstep
    cases hstep
  by_cases hfails : update.Fails
  · obtain ⟨stack', log', hcall, hlength⟩ :=
      luaiCallFunction_fails "Update".toList host.log hfails hslots
    rw [hcall] at hstep
    cases hstep
    exact ⟨stack', rfl, by rw [hlength, if_pos hfails]⟩
  · have hreturns : update = some .returns := not_not.mp hfails
    subst hreturns
    rw [show UpdateFunction.global (some .returns) = .function .returns from rfl,
      luaiCallFunction_returns _ _ hslots] at hstep
    cases hstep
    exact ⟨stack, rfl, by rw [if_neg hfails]; rfl⟩

/-- A tick goes wrong exactly when no slot is free. -/
theorem LuaHost.HasHeight.isOk_iff {height : ℕ} {host : LuaHost} (h : host.HasHeight height)
    (update : UpdateFunction) :
    (luaiCallUpdate update host).isOk = true ↔ height < luaMinstack := by
  obtain ⟨stack, hstate, rfl⟩ := h
  simp only [luaiCallUpdate, hstate]
  constructor
  · intro hok
    by_contra hfull
    rw [luaiCallFunction_full _ _ _ (Nat.not_lt.mp hfull)] at hok
    cases hok
  · intro hslots
    by_cases hfails : update.Fails
    · obtain ⟨stack', log', hcall, -⟩ :=
        luaiCallFunction_fails "Update".toList host.log hfails hslots
      rw [hcall]
      rfl
    · have hreturns : update = some .returns := not_not.mp hfails
      subst hreturns
      rw [show UpdateFunction.global (some .returns) = .function .returns from rfl,
        luaiCallFunction_returns _ _ hslots]
      rfl

/-! ## Runs of the main loop -/

/-- How many of the calls fail. -/
def failures (updates : List UpdateFunction) : ℕ :=
  updates.countP fun update => decide update.Fails

/-- Ticks add to the stack what their failures have left on it. -/
theorem LuaHost.HasHeight.run {height : ℕ} {updates : List UpdateFunction} {host host' : LuaHost}
    {replies : List Bool} (h : host.HasHeight height)
    (hrun : runAll luaiCallUpdate updates host = .ok (replies, host')) :
    host'.HasHeight (height + failures updates) := by
  induction updates generalizing height host replies with
  | nil =>
    cases hrun
    exact h
  | cons update updates ih =>
    obtain ⟨r, host₁, rs, hstep, hrest, -⟩ := runAll_cons_eq_ok.mp hrun
    have hheight := ih (h.step hstep) hrest
    rw [failures, List.countP_cons, ← failures]
    rw [show height + (failures updates + if decide update.Fails = true then 1 else 0) =
      height + (if update.Fails then 1 else 0) + failures updates by
        simp only [decide_eq_true_eq]; omega]
    exact hheight

/-- A run goes through exactly when there is a free slot at each of its ticks. -/
theorem LuaHost.HasHeight.run_isOk_iff {height : ℕ} {host : LuaHost} (h : host.HasHeight height)
    (updates : List UpdateFunction) :
    (runAll luaiCallUpdate updates host).isOk = true ↔
      ∀ before update after, updates = before ++ update :: after →
        height + failures before < luaMinstack := by
  constructor
  · intro hok before update after hsplit
    obtain ⟨⟨replies, host'⟩, hrun⟩ := exists_of_isOk hok
    rw [hsplit] at hrun
    obtain ⟨_, host₁, _, hbefore, hafter, -⟩ := runAll_append_eq_ok.mp hrun
    obtain ⟨r, host₂, _, hstep, -, -⟩ := runAll_cons_eq_ok.mp hafter
    exact ((h.run hbefore).isOk_iff update).mp (congrArg Except.isOk hstep)
  · intro hslots
    -- the last tick comes after all the others
    induction updates using List.reverseRecOn with
    | nil => rfl
    | append_singleton updates update ih =>
      have hinit : (runAll luaiCallUpdate updates host).isOk = true := by
        apply ih
        intro before update' after hsplit
        exact hslots before update' (after ++ [update])
          (by rw [hsplit, List.append_assoc, List.cons_append])
      obtain ⟨⟨replies, host₁⟩, hrun⟩ := exists_of_isOk hinit
      have hlast : (luaiCallUpdate update host₁).isOk = true :=
        ((h.run hrun).isOk_iff update).mpr (hslots updates update [] rfl)
      obtain ⟨⟨r, host₂⟩, hstep⟩ := exists_of_isOk hlast
      have hall : runAll luaiCallUpdate (updates ++ [update]) host = .ok (replies ++ [r], host₂) :=
        runAll_append_eq_ok.mpr ⟨replies, host₁, [r], hrun,
          runAll_cons_eq_ok.mpr ⟨r, host₂, [], hstep, rfl, rfl⟩, rfl⟩
      exact congrArg Except.isOk hall

/-- Loading a script leaves the four metatables on the stack. -/
theorem luaiLoadScript_height {script : Script} {host loaded : LuaHost}
    (h : luaiLoadScript script host = .ok (true, loaded)) : loaded.HasHeight 4 := by
  have hapi : luaiSetupLuaSimApi [] = .ok [] := rfl
  have htables : luaiSetupObjectMetatables [] = .ok [.table, .table, .table, .table] := rfl
  unfold luaiLoadScript at h
  rw [hapi, ok_bind, htables, ok_bind] at h
  cases script with
  | invalid message => cases h
  | chunk call =>
    cases call with
    | returns =>
      cases h
      exact ⟨_, rfl, rfl⟩
    | raises error => cases error <;> cases h

/-- At every tick the call of `Update` goes through, and leaves the height as it was before the
first. -/
def StackBalanced (updates : List UpdateFunction) (host : LuaHost) : Prop :=
  ∀ before, before <+: updates → ∃ replies host',
    runAll luaiCallUpdate before host = .ok (replies, host') ∧ host'.height = host.height

theorem LuaHost.HasHeight.height_eq {height : ℕ} {host : LuaHost} (h : host.HasHeight height) :
    host.height = height := by
  obtain ⟨stack, hstate, rfl⟩ := h
  rw [LuaHost.height, hstate, Option.getD_some]

/-- Once sixteen calls of `Update` have failed, the next one pushes more than there are slots. -/
theorem luaiCallUpdate_overflow {script : Script} {host loaded : LuaHost}
    (hload : luaiLoadScript script host = .ok (true, loaded)) {before : List UpdateFunction}
    (hfailures : 16 ≤ failures before) (update : UpdateFunction) (after : List UpdateFunction) :
    ¬ (runAll luaiCallUpdate (before ++ update :: after) loaded).isOk = true := by
  intro hok
  have hslots := ((luaiLoadScript_height hload).run_isOk_iff _).mp hok before update after rfl
  unfold luaMinstack at hslots
  omega

/-- The stack of a loaded script stays balanced exactly when no call of `Update` fails. -/
theorem stackBalanced_iff {script : Script} {host loaded : LuaHost}
    (hload : luaiLoadScript script host = .ok (true, loaded)) (updates : List UpdateFunction) :
    StackBalanced updates loaded ↔ ∀ update ∈ updates, ¬ update.Fails := by
  have hheight := luaiLoadScript_height hload
  constructor
  · intro hbalanced
    obtain ⟨replies, host', hrun, hsame⟩ := hbalanced updates List.prefix_rfl
    rw [(hheight.run hrun).height_eq, hheight.height_eq] at hsame
    have hnone : failures updates = 0 := by omega
    simpa [failures] using hnone
  · intro hall before ⟨after, hsplit⟩
    have hnone : ∀ updates' ⊆ updates, failures updates' = 0 := by
      intro updates' hsub
      exact List.countP_eq_zero.mpr fun update hupdate =>
        by simpa using hall update (hsub hupdate)
    have hok : (runAll luaiCallUpdate before loaded).isOk = true := by
      apply (hheight.run_isOk_iff before).mpr
      intro before' update after' hsplit'
      rw [hnone before' (fun u hu => ?_)]
      · decide
      · rw [← hsplit, hsplit']
        exact List.mem_append_left _ (List.mem_append_left _ hu)
    obtain ⟨⟨replies, host'⟩, hrun⟩ := exists_of_isOk hok
    refine ⟨replies, host', hrun, ?_⟩
    rw [(hheight.run hrun).height_eq, hheight.height_eq,
      hnone before (fun u hu => hsplit ▸ List.mem_append_left _ hu)]

/-- The theorem for a script that returns from `Update` twice. -/
theorem stackBalanced_iff_returning : StackBalanced [some .returns, some .returns]
    ⟨some [.table, .table, .table, .table], ⟨defaultLogLevel, []⟩⟩ :=
  have hloaded : luaiLoadScript (.chunk .returns) ⟨none, ⟨defaultLogLevel, []⟩⟩ =
    .ok (true, ⟨some [.table, .table, .table, .table], ⟨defaultLogLevel, []⟩⟩) := rfl
  (stackBalanced_iff hloaded [some .returns, some .returns]).mpr (by decide)

/-- A script that defines no `Update` leaves an error message on the stack at every tick. -/
theorem not_stackBalanced : ¬ ∀ script host loaded updates,
    luaiLoadScript script host = .ok (true, loaded) → StackBalanced updates loaded := by
  intro h
  have hloaded : luaiLoadScript (.chunk .returns) ⟨none, ⟨defaultLogLevel, []⟩⟩ =
    .ok (true, ⟨some [.table, .table, .table, .table], ⟨defaultLogLevel, []⟩⟩) := rfl
  obtain ⟨replies, host', hrun, hsame⟩ := h _ _ _ [none] hloaded [none] List.prefix_rfl
  cases hrun
  exact absurd hsame (by decide)

end BleSim
