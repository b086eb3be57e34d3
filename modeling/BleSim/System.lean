import BleSim.Dispatch
import BleSim.LuaInterface

/-!
# The simulator as a state machine

A step is one call of the script API, one message or reply that the D-Bus library hands over,
one object finalised by the Lua collector, or a reuse of freed memory by the rest of the
process. A run is a list of steps taken from the state without objects.
-/

namespace BleSim

open Outcomes WriteOnce

/-- One step. The arguments that are not the caller's (`accepts`, `env`) say how the D-Bus
library, the kernel and BlueZ behave in it. -/
inductive Op where
  | createDevice (deviceName : CStr)
  | createService (uuid : CStr)
  | createCharacteristic (uuid : CStr)
  | createDescriptor (uuid : CStr)
  | add (kind : Kind) (accepts : Accepts) (p c : ℕ)
  | registerDevice (env : RegisterEnv) (d : ℕ)
  | setPowered (env : PropertyEnv) (d : ℕ) (powered : Bool)
  | setDiscoverable (env : PropertyEnv) (d : ℕ) (discoverable : Bool)
  | setNotifying (c : ℕ) (notifying : Bool)
  | setValue (c : ℕ) (v t : LuaValue)
  /-- the library hands a message for a path to the object registered there -/
  | deliver (object : Obj) (message : Message)
  /-- BlueZ answers a `RegisterApplication` request -/
  | applicationReply (d : ℕ) (success : Bool)
  /-- BlueZ answers a `RegisterAdvertisement` request -/
  | advertReply (d : ℕ) (success : Bool)
  /-- reads through pointers to freed blocks find other data from now on -/
  | reuseMemory (strings : Ptr CStr → CStr) (buffers : Ptr Bytes → Bytes)
  /-- the `__gc` function of a userdata -/
  | fini (object : Obj)

/-- What a step shows its caller. -/
inductive Reply where
  | created (object : Obj)
  | bool (b : Bool)
  | lua (exit : LuaExit Bool)
  | handled (result : HandlerResult) (request : Message)
  | none

/-- `device_add_service`, `service_add_characteristic` or `characteristic_add_descriptor`. -/
def addTo (kind : Kind) (accepts : Accepts) (p c : ℕ) : State → Outcome (Bool × State) :=
  match kind with
  | .service => deviceAddService accepts p c
  | .characteristic => serviceAddCharacteristic accepts p c
  | .descriptor => characteristicAddDescriptor accepts p c

/-- The lookup among the children of a parent: `device_get_service`,
`service_get_characteristic` or `characteristic_get_descriptor`. -/
def getFrom (kind : Kind) (p : ℕ) (uuid : CStr) : State → Outcome (Option ℕ) :=
  match kind with
  | .service => deviceGetService p uuid
  | .characteristic => serviceGetCharacteristic p uuid
  | .descriptor => characteristicGetDescriptor p uuid

/-- The `fini` function behind the `__gc` function of a userdata. An advertisement is part of
its device and has none. -/
def finiObject (object : Obj) (σ : State) : Outcome State :=
  match object with
  | .device d => deviceFini d σ
  | .service s => serviceFini s σ
  | .characteristic c => characteristicFini c σ
  | .descriptor k => descriptorFini k σ
  | .advertisement _ => .error .noObject

/-- The objects that have a registered path. -/
def State.registeredObjects (σ : State) : List Obj := σ.bus.registered.map Prod.snd

/-- A request to BlueZ has been answered. -/
def State.answer (σ : State) (userData : Obj) : State :=
  { σ with bus.pending := σ.bus.pending.erase userData }

/-- Take one step. Messages reach registered objects only, and replies only pending requests. -/
def exec (op : Op) (σ : State) : Outcome (Reply × State) :=
  match op with
  | .createDevice deviceName =>
    let (d, σ) := luaiCreateDevice deviceName σ
    .ok (.created (.device d), σ)
  | .createService uuid =>
    let (s, σ) := luaiCreateService uuid σ
    .ok (.created (.service s), σ)
  | .createCharacteristic uuid =>
    let (c, σ) := luaiCreateCharacteristic uuid σ
    .ok (.created (.characteristic c), σ)
  | .createDescriptor uuid =>
    let (k, σ) := luaiCreateDescriptor uuid σ
    .ok (.created (.descriptor k), σ)
  | .add kind accepts p c => do
    let (success, σ) ← addTo kind accepts p c σ
    .ok (.bool success, σ)
  | .registerDevice env d => do
    let (success, σ) ← deviceRegister env d σ
    .ok (.bool success, σ)
  | .setPowered env d powered => do
    let (success, σ) ← deviceSetPowered env d powered σ
    .ok (.bool success, σ)
  | .setDiscoverable env d discoverable => do
    let (success, σ) ← deviceSetDiscoverable env d discoverable σ
    .ok (.bool success, σ)
  | .setNotifying c notifying => do
    let σ ← characteristicSetNotifying c notifying σ
    .ok (.none, σ)
  | .setValue c v t => do
    let (exit, σ) ← luaiCharacteristicSetValue c v t σ
    .ok (.lua exit, σ)
  | .deliver object message =>
    if object ∈ σ.registeredObjects then do
      let (result, request, σ) ← dbusutilsObjectHandleMessage object message σ
      .ok (.handled result request, σ)
    else .ok (.handled .notYetHandled message, σ)
  | .applicationReply d success =>
    if Obj.device d ∈ σ.bus.pending then do
      let σ ← onRegisterApplicationReply d success (σ.answer (.device d))
      .ok (.none, σ)
    else .ok (.none, σ)
  | .advertReply d success =>
    if Obj.advertisement d ∈ σ.bus.pending then do
      let σ ← onRegisterAdvertReply d success (σ.answer (.advertisement d))
      .ok (.none, σ)
    else .ok (.none, σ)
  | .reuseMemory strings buffers =>
    .ok (.none, { σ with
      strings := { σ.strings with stale := strings }
      buffers := { σ.buffers with stale := buffers } })
  | .fini object => do
    let σ ← finiObject object σ
    .ok (.none, σ)

/-- Take several steps. -/
def execAll : List Op → State → Outcome (List Reply × State) := runAll exec

/-- A state without objects. -/
def State.IsInitial (σ : State) : Prop :=
  ∃ strings buffers fails outOfMemory, σ = State.initial strings buffers fails outOfMemory

/-- A state without objects, on a machine that never runs out of memory and whose freed blocks
read as empty. -/
def State.empty : State := State.initial (fun _ => []) (fun _ => []) (fun _ => false) false

theorem State.isInitial_empty : State.empty.IsInitial := ⟨_, _, _, _, rfl⟩

/-- The states that runs of steps satisfying `Allowed` reach. -/
def ReachableBy (Allowed : Op → Prop) (σ : State) : Prop :=
  ∃ σ₀ ops replies, σ₀.IsInitial ∧ (∀ op ∈ ops, Allowed op) ∧ execAll ops σ₀ = .ok (replies, σ)

/-- The states that runs of any steps reach. -/
def Reachable : State → Prop := ReachableBy fun _ => True

/-- Not a finalisation. -/
def Op.NoFini : Op → Prop
  | .fini _ => False
  | _ => True

theorem ReachableBy.mono {P Q : Op → Prop} (hPQ : ∀ op, P op → Q op) {σ : State}
    (h : ReachableBy P σ) : ReachableBy Q σ := by
  obtain ⟨σ₀, ops, replies, hinit, hall, hrun⟩ := h
  exact ⟨σ₀, ops, replies, hinit, fun op hop => hPQ op (hall op hop), hrun⟩

theorem ReachableBy.reachable {P : Op → Prop} {σ : State} (h : ReachableBy P σ) : Reachable σ :=
  h.mono fun _ _ => trivial

/-- The state in which a run from the empty state ends. -/
def State.after (ops : List Op) : State :=
  match execAll ops State.empty with
  | .ok (_, σ) => σ
  | .error _ => State.empty

theorem State.reachable_after {Allowed : Op → Prop} {ops : List Op}
    (hok : (execAll ops State.empty).isOk = true) (hall : ∀ op ∈ ops, Allowed op) :
    ReachableBy Allowed (State.after ops) := by
  obtain ⟨⟨replies, σ⟩, hrun⟩ := exists_of_isOk hok
  refine ⟨State.empty, ops, replies, State.isInitial_empty, hall, ?_⟩
  rw [hrun, State.after, hrun]

/-- What the initial states satisfy and every allowed step preserves holds of every reachable
state. -/
theorem ReachableBy.induction {Allowed : Op → Prop} {Inv : State → Prop}
    (hinit : ∀ σ, σ.IsInitial → Inv σ)
    (hstep : ∀ op σ r σ', Allowed op → Inv σ → exec op σ = .ok (r, σ') → Inv σ')
    {σ : State} (h : ReachableBy Allowed σ) : Inv σ := by
  obtain ⟨σ₀, ops, replies, h₀, hall, hrun⟩ := h
  exact runAll_invariant hstep hall (hinit σ₀ h₀) hrun

/-- One more allowed step. -/
theorem ReachableBy.step {Allowed : Op → Prop} {σ σ' : State} {r : Reply}
    (h : ReachableBy Allowed σ) (op : Op) (hop : Allowed op) (hexec : exec op σ = .ok (r, σ')) :
    ReachableBy Allowed σ' := by
  obtain ⟨σ₀, ops, replies, h₀, hall, hrun⟩ := h
  refine ⟨σ₀, ops ++ [op], replies ++ [r], h₀, ?_, ?_⟩
  · intro o ho
    rcases List.mem_append.mp ho with ho | ho
    · exact hall o ho
    · rw [List.mem_singleton.mp ho]
      exact hop
  · exact runAll_append_eq_ok.mpr ⟨replies, σ, [r], hrun,
      runAll_cons_eq_ok.mpr ⟨r, σ', [], hexec, rfl, rfl⟩, rfl⟩

end BleSim
