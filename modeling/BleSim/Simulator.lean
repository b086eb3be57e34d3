import BleSim.LuaStack
import BleSim.Main
import BleSim.Mainloop
import BleSim.ScriptTheorems

/-!
# The whole program (`main.c`)

`main` from its first line to its last, with everything it drives: the command line, the main loop
and its signals, the Lua stack, the functions of the script API, and the messages that the D-Bus
library reads and hands over one by one. The script, the clients, BlueZ and the kernel are free to
do what they like, except that the script defines no finalisers of its own.
-/

namespace BleSim

open Outcomes WriteOnce

/-! ## The state -/

/-- What the D-Bus library has read and not handed over yet: a message for an object path, BlueZ's
answer to a request, or the end of the connection. -/
inductive Incoming where
  | message (m : Message)
  | applicationReply (d : ℕ) (success : Bool)
  | advertReply (d : ℕ) (success : Bool)
  | disconnected

/-- How the process ends other than by `main`. -/
inductive Ending where
  /-- the library has come to the end of the connection, and exits with status 1 -/
  | disconnected
  /-- the script has called `os.exit` -/
  | osExit (status : ℤ)
  /-- a signal for which no handler has been installed -/
  | killed (signal : StopSignal)
deriving DecidableEq

/-- What the main thread does next. In the main loop, `Process` says more. -/
inductive SimulatorPc where
  | parseArgs
  | dbusInit
  | mainloopInit
  | vhciOpen
  | powerDefaultController
  | loadScript
  /-- the chunk of the script is running -/
  | runScript (script : Script)
  | mainloop
  /-- the function `Update` is running -/
  | runUpdate (update : UpdateFunction)
  | cleanupSimulator (status : ℕ)
  /-- `lua_close` is running the finalisers that are left -/
  | closeLua (status : ℕ)
  | exited (status : ℕ)
  | ended (ending : Ending)
deriving DecidableEq

/-- The whole process. -/
structure Simulator where
  pc : SimulatorPc
  program : Program
  luaiState : Option LuaStack
  process : Process
  /-- what has been read, the oldest first -/
  inbox : List Incoming
  /-- what `main` itself has sent -/
  sent : List Message
  /-- the userdata whose `__gc` function Lua has run -/
  collected : List Obj
  objects : State

/-- The process before `main` runs. -/
def Simulator.start (objects : State) : Simulator :=
  ⟨.parseArgs, Program.initial, none, Process.start, [], [], [], objects⟩

/-- How everything outside the process behaves in a step of the main thread. -/
structure MainEnv where
  argv : List CStr
  /-- there is a connection, and the filter for messages can be added -/
  connected : Bool
  vhciOpen : Bool
  power : PropertyEnv
  script : Script
  update : UpdateFunction

/-- Why an event does not happen, or what it comes to when it leaves defined behaviour. -/
inductive Halt where
  | blocked
  | fault (fault : Fault)
deriving DecidableEq

/-! ## Requests to the objects -/

/-- What the objects are asked to do: the script calls a function of the API, the library hands
something over, Lua runs the `__gc` function of a userdata, or freed memory is reused. -/
inductive Request where
  | call (env : ApiEnv) (f : ApiFunction) (args : List ScriptValue)
  | incoming (incoming : Incoming)
  | finalise (o : Obj)
  | reuseMemory (strings : Ptr CStr → CStr) (buffers : Ptr Bytes → Bytes)

/-- The object that is registered at a path. -/
def objectAt (registered : List (CStr × Obj)) (path : CStr) : Option Obj :=
  (registered.find? fun r => r.1 = path).map Prod.snd

/-- The step a request makes the objects take. A message goes to the object that is registered at
its path, if there is one, and the end of the connection to none. -/
def Request.step (registered : List (CStr × Obj)) : Request → Option ScriptStep
  | call env f args => some (.call env f args)
  | incoming (.message m) =>
    (m.path.bind (objectAt registered)).map fun o => .other (.deliver o m)
  | incoming (.applicationReply d success) => some (.other (.applicationReply d success))
  | incoming (.advertReply d success) => some (.other (.advertReply d success))
  | incoming .disconnected => none
  | finalise o => some (.other (.fini o))
  | reuseMemory strings buffers => some (.other (.reuseMemory strings buffers))

/-- What the objects do with a request. -/
def requestExec (request : Request) (σ : State) : Outcome (Option ScriptReply × State) :=
  match request.step σ.bus.registered with
  | some step => do
    let (r, σ) ← scriptExec step σ
    .ok (some r, σ)
  | none => .ok (none, σ)

/-- All userdata: every object the script has created. -/
def State.userdata (σ : State) : List Obj :=
  (List.range σ.devices.length).map .device ++ (List.range σ.services.length).map .service ++
    (List.range σ.characteristics.length).map .characteristic ++
    (List.range σ.descriptors.length).map .descriptor

/-! ## What a step has done -/

/-- What a step has done: the request it made to the objects, the steps of the main loop it made,
and the call of `Update` it ended. -/
structure Trace where
  requests : List (Request × Option ScriptReply)
  process : List (ProcessEvent × Unit)
  updates : List (UpdateFunction × Bool)

/-- What a step comes to. -/
abbrev Ran := Except Halt (Trace × Simulator)

/-- A computation that may fault, as a part of a step. -/
def orHalt {α : Type} (x : Outcome α) : Except Halt α := x.mapError .fault

namespace Simulator

/-! ## Parts of a step -/

/-- Nothing is done that a trace tells. -/
def quiet (s : Simulator) : Ran := .ok (⟨[], [], []⟩, s)

/-- Go on elsewhere. -/
def jump (pc : SimulatorPc) (s : Simulator) : Ran := quiet { s with pc }

/-- `log_info`, `log_error` -/
def log (f : Log → Log) (s : Simulator) : Simulator :=
  { s with program.log := f s.program.log }

/-- Report an error and go on elsewhere. -/
def fail (pc : SimulatorPc) (message : String) (s : Simulator) : Ran :=
  jump pc (s.log (logError message.toList))

/-- The Lua stack with the log. -/
def host (s : Simulator) : LuaHost := ⟨s.luaiState, s.program.log⟩

def setHost (host : LuaHost) (s : Simulator) : Simulator :=
  { s with luaiState := host.luaiState, program.log := host.log }

/-- Something is asked of the objects. -/
def perform (request : Request) (s : Simulator) : Ran := do
  let (r, objects) ← orHalt (requestExec request s.objects)
  .ok (⟨[(request, r)], [], []⟩, { s with objects })

/-- A step of the main loop, or a signal. -/
def processStep (event : ProcessEvent) (s : Simulator) : Ran :=
  match event.step s.process with
  | .error _ => .error .blocked
  | .ok (r, process) => .ok (⟨[], [(event, r)], []⟩, { s with process })

/-- `dbus_connection_dispatch`: the first thing that has been read is handed over. At the end of the
connection the library exits, as `dbus_bus_get` has it do. -/
def dispatch (incoming : Incoming) (s : Simulator) : Ran :=
  match incoming with
  | .disconnected => { s with pc := .ended .disconnected }.perform (.incoming incoming)
  | _ => s.perform (.incoming incoming)

/-- `power_default_controller`. -/
def powerDefaultController (env : PropertyEnv) (s : Simulator) :
    Except Halt (Bool × Simulator) := do
  -- the path is a constant of the program, and in no heap
  let (path, strings) := s.objects.strings.alloc defaultAdapterPath
  let (answered, bus) ← orHalt (dbusutilsSetPropertyBasic strings path bluezAdapterInterface
    bluezAdapterPropertyPowered ['b'] (.boolean true) env ⟨[], s.sent, [], false⟩)
  .ok (answered, { s with sent := bus.sent })

/-! ## The main thread -/

/-- `main`, line by line. -/
def mainStep (env : MainEnv) (s : Simulator) : Ran :=
  match s.pc with
  | .parseArgs => do
    let (accepted, program) ← orHalt (parseArgs env.argv s.program)
    if accepted then jump .dbusInit { s with program } else jump (.exited 1) { s with program }
  | .dbusInit =>
    if env.connected then jump .mainloopInit s
    else s.fail (.exited 1) "Could not initialise DBus Connection"
  | .mainloopInit => jump .vhciOpen (s.log (logInfo "Starting simulator...".toList))
  | .vhciOpen =>
    if env.vhciOpen then
      jump .powerDefaultController (s.log (logInfo "Created virtual controller hci0".toList))
    else s.fail (.cleanupSimulator 1)
      "Could not create a virtual controller - make sure you are running as root"
  | .powerDefaultController => do
    let (answered, s) ← s.powerDefaultController env.power
    if answered then jump .loadScript s
    else s.fail (.cleanupSimulator 1) "Could not power the default controller"
  | .loadScript =>
    match s.program.scriptPath with
    | none => jump (.cleanupSimulator 1) s
    | some _ => jump (.runScript env.script) s
  | .runScript script => do
    let (loaded, host) ← orHalt (luaiLoadScript script s.host)
    if loaded then jump .mainloop (s.setHost host) else jump (.cleanupSimulator 1) (s.setHost host)
  | .mainloop =>
    match s.process.pc with
    | .dispatch =>
      -- the loop of `dispatch`
      match s.inbox with
      | [] => s.processStep .main
      | incoming :: inbox => dispatch incoming { s with inbox }
    | .update => jump (.runUpdate env.update) s
    | .cleanup => jump (.cleanupSimulator 0) s
    | _ => s.processStep .main
  | .runUpdate update => do
    let (called, host) ← orHalt (luaiCallUpdate update s.host)
    let (trace, s) ← (s.setHost host).processStep .main
    .ok ({ trace with updates := [(update, called)] }, { s with pc := .mainloop })
  | .cleanupSimulator status =>
    match s.luaiState with
    | none => jump (.exited status) s
    | some _ => jump (.closeLua status) s
  | .closeLua status =>
    -- `lua_close` returns when it has run the `__gc` functions of all userdata
    if s.objects.userdata ⊆ s.collected then jump (.exited status) s else .error .blocked
  | .exited _ | .ended _ => .error .blocked

/-! ## Events -/

/-- Whether Lua code is running, so that the functions of the API can be called. -/
def runsLua (s : Simulator) : Bool :=
  match s.pc with
  | .runScript (.chunk _) | .runUpdate (some _) => true
  | _ => false

/-- Whether the `__gc` function of a userdata can run: its turn comes once. -/
def finalises (o : Obj) (s : Simulator) : Bool :=
  (match s.pc with
    | .closeLua _ => true
    | _ => s.runsLua) && o ∈ s.objects.userdata && o ∉ s.collected

/-- Whether the library reads messages: there is a connection. -/
def reads (s : Simulator) : Bool :=
  match s.pc with
  | .parseArgs | .dbusInit | .closeLua _ | .exited _ | .ended _ => false
  | _ => true

/-- Whether there is a process. -/
def runs (s : Simulator) : Bool :=
  match s.pc with
  | .exited _ | .ended _ => false
  | _ => true

end Simulator

/-- What can happen. -/
inductive SimulatorEvent where
  /-- the main thread goes on -/
  | main (env : MainEnv)
  /-- the script calls a function of the API -/
  | call (env : ApiEnv) (f : ApiFunction) (args : List ScriptValue)
  /-- the script calls `os.exit` -/
  | osExit (status : ℤ)
  /-- the collector, or `lua_close`, runs the `__gc` function of a userdata -/
  | finalise (o : Obj)
  /-- the library reads something -/
  | arrives (incoming : Incoming)
  /-- a signal is raised -/
  | raised (signal : StopSignal)
  /-- freed memory is reused -/
  | reuseMemory (strings : Ptr CStr → CStr) (buffers : Ptr Bytes → Bytes)

open Simulator in
/-- The process after an event. -/
def SimulatorEvent.step (event : SimulatorEvent) (s : Simulator) : Ran :=
  match event with
  | .main env => s.mainStep env
  | .call env f args => if s.runsLua then s.perform (.call env f args) else .error .blocked
  | .osExit status => if s.runsLua then jump (.ended (.osExit status)) s else .error .blocked
  | .finalise o =>
    if s.finalises o then { s with collected := o :: s.collected }.perform (.finalise o)
    else .error .blocked
  | .arrives incoming =>
    if s.reads then quiet { s with inbox := s.inbox ++ [incoming] } else .error .blocked
  | .raised signal =>
    if !s.runs then .error .blocked
    else if s.process.pc.handles signal then
      (s.log (logInfo "Stopping simulator...".toList)).processStep (.raised signal)
    else jump (.ended (.killed signal)) s
  | .reuseMemory strings buffers =>
    if s.runs then s.perform (.reuseMemory strings buffers) else .error .blocked

end BleSim
