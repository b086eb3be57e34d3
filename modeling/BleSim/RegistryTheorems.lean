import BleSim.Controllers
import BleSim.TypingTheorems

/-!
# The registry of devices

As long as nothing is finalised, the list of devices is a registry by name: a name is taken by at
most one device, and a device that has got in stays in, with its controller and its registered
paths. The controllers are numbered by a counter of 32 bits, and their paths are distinct as long
as it has not wrapped around.
-/

namespace BleSim

open Outcomes WriteOnce Intrusive

/-! ## The invariants together -/

/-- `l` is the list of devices, and their controllers are their own. -/
structure RegistryInv (σ : State) (l : List ℕ) : Prop where
  list : ListInv σ l
  handles : HandleInv σ
  controllers : ControllerInv σ

namespace RegistryInv

variable {σ σ' : State} {l : List ℕ}

theorem of_isInitial (h : σ.IsInitial) : RegistryInv σ [] :=
  ⟨.of_isInitial h, .of_isInitial h, .of_isInitial h⟩

/-- In a run, the devices in the list are those of which one registration has returned true. -/
theorem run {ops : List Op} (hops : ∀ op ∈ ops, op.NoFini) : ∀ {σ : State} {l : List ℕ}
    {replies : List Reply}, ReachableBy Op.NoFini σ → RegistryInv σ l →
      execAll ops σ = .ok (replies, σ') → ∃ l', RegistryInv σ' l' ∧
        ∀ d, (if d ∈ l' then 1 else 0) =
          (if d ∈ l then 1 else 0) + (ops.zip replies).countP (Succeeded d) := by
  -- every registration that succeeds puts its device into the list, and nothing takes it out
  induction ops with
  | nil =>
    intro σ l replies _ h hrun
    cases hrun
    exact ⟨l, h, fun d => rfl⟩
  | cons op ops ih =>
    intro σ l replies hreach h hrun
    obtain ⟨r, σ₁, rs, hexec, hrest, rfl⟩ := runAll_cons_eq_ok.mp hrun
    have hop := hops op List.mem_cons_self
    have hpointers := PointersInv.of_reachable hreach.reachable
    obtain ⟨l₁, hlist₁, hcount₁⟩ := h.list.step hpointers hexec
    have hstep := exec_controllerStep h.list hpointers hexec
    have h₁ : RegistryInv σ₁ l₁ := ⟨hlist₁, h.handles.step hstep, h.controllers.step hop hstep⟩
    obtain ⟨l', h', hcount'⟩ := ih (fun o ho => hops o (List.mem_cons_of_mem op ho))
      (hreach.step op hop hexec) h₁ hrest
    refine ⟨l', h', fun d => ?_⟩
    rw [hcount' d, hcount₁ d, List.zip_cons_cons, List.countP_cons]
    cases Succeeded d (op, r) <;> simp [Nat.add_comm, Nat.add_left_comm]

theorem of_reachable (hreach : ReachableBy Op.NoFini σ) : ∃ l, RegistryInv σ l := by
  obtain ⟨σ₀, ops, replies, hinit, hops, hrun⟩ := hreach
  have hstart : ReachableBy Op.NoFini σ₀ := ⟨σ₀, [], [], hinit, by simp, rfl⟩
  obtain ⟨l, h, -⟩ := run hops hstart (of_isInitial hinit) hrun
  exact ⟨l, h⟩

end RegistryInv

/-! ## The registry -/

/-- The path of the controller of a device. -/
def State.controllerPath (σ : State) (d : ℕ) : Option CStr :=
  (σ.devices[d]?).bind fun x => x.controller.contents?

/-- A device has a controller, an open virtual controller and both of its registered paths. -/
structure Operational (σ : State) (d : ℕ) (x : Device) : Prop where
  controller : ∃ id path, x.controller = .block id path
  virtualController : ∃ handle index, x.virtualController = some handle ∧
    (handle, index) ∈ σ.openControllers
  objectPath : ∃ id path, x.objectPath = .block id path ∧ (path, .device d) ∈ σ.bus.registered
  advertisement : ∃ id path, x.advertisement.objectPath = .block id path ∧
    (path, .advertisement d) ∈ σ.bus.registered

/-- The list `l` of devices is a registry by name: its lookups are exact, and nothing can be
registered under a name that is taken. -/
structure DeviceRegistry (σ : State) (l : List ℕ) : Prop where
  chain : Chain σ.nextDevice σ.deviceListHead l
  nodup : l.Nodup
  names : ∀ d ∈ l, ∀ e ∈ l, σ.nameOf d = σ.nameOf e → d = e
  lookup : ∀ deviceName d, deviceGetDevice deviceName σ = .ok (some d) ↔
    d ∈ l ∧ σ.nameOf d = some deviceName
  lookup_none : ∀ deviceName, deviceGetDevice deviceName σ = .ok none ↔
    ∀ d ∈ l, σ.nameOf d ≠ some deviceName
  initialised : ∀ d, d ∈ l ↔ ∃ x, σ.devices[d]? = some x ∧ x.initialised = true
  later : ∀ d ∈ l, ∀ e, σ.nameOf e = σ.nameOf d → ∀ env,
    deviceRegister env e σ = .ok (false, σ)
  operational : ∀ (d : ℕ) (x : Device), σ.devices[d]? = some x → x.initialised = true →
    Operational σ d x
  controllers : σ.controllersOpened < 2 ^ 32 →
    (∀ d ∈ l, ∀ e ∈ l, σ.controllerPath d = σ.controllerPath e → d = e) ∧
      ∀ d ∈ l, σ.controllerPath d ≠ some defaultAdapterPath

/-- The paths of adapters are as distinct as their indices. -/
theorem adapterPath_injective : Function.Injective adapterPath := by
  intro i j h
  unfold adapterPath at h
  exact UInt32.toNat_inj.mp (Decimal.decimal_injective (List.append_cancel_left h))

/-- The adapter with index 0 is the default one. -/
theorem adapterPath_zero : adapterPath 0 = defaultAdapterPath := by decide

theorem RegistryInv.controllerPaths {σ : State} {l : List ℕ} (h : RegistryInv σ l)
    (hopened : σ.controllersOpened < 2 ^ 32) :
    (∀ d ∈ l, ∀ e ∈ l, σ.controllerPath d = σ.controllerPath e → d = e) ∧
      ∀ d ∈ l, σ.controllerPath d ≠ some defaultAdapterPath := by
  have hpath : ∀ d ∈ l, ∃ x handle, σ.devices[d]? = some x ∧ x.virtualController = some handle ∧
      handle < σ.controllersOpened ∧
      σ.controllerPath d = some (adapterPath (UInt32.ofNat (handle + 1))) := by
    intro d hd
    obtain ⟨x, hx, hinit⟩ := (h.list.listed d).mp hd
    obtain ⟨handle, hhandle⟩ :=
      Option.isSome_iff_exists.mp (h.handles.initialised d x hx hinit)
    obtain ⟨-, id, hcontroller⟩ := h.controllers.named d x handle hx hhandle
    have hlt := h.handles.lt d x handle hx hhandle
    exact ⟨x, handle, hx, hhandle, hlt, by
      simp [State.controllerPath, hx, hcontroller, Ptr.contents?]⟩
  -- the numbers do not wrap around, so the n-th controller is named after n
  have hindex : ∀ handle < σ.controllersOpened,
      (UInt32.ofNat (handle + 1)).toNat = handle + 1 := by
    intro handle hlt
    have hsize : UInt32.size = 2 ^ 32 := rfl
    exact UInt32.toNat_ofNat_of_lt' (by omega)
  constructor
  · intro d hd e he heq
    obtain ⟨x, i, hx, hxi, hi, hpathx⟩ := hpath d hd
    obtain ⟨y, j, hy, hyj, hj, hpathy⟩ := hpath e he
    rw [hpathx, hpathy, Option.some.injEq] at heq
    have hij := congrArg UInt32.toNat (adapterPath_injective heq)
    rw [hindex i hi, hindex j hj] at hij
    obtain rfl : i = j := by omega
    exact h.handles.distinct d e x y i hx hy hxi hyj
  · intro d hd heq
    obtain ⟨x, i, -, -, hi, hpathx⟩ := hpath d hd
    rw [hpathx, Option.some.injEq, ← adapterPath_zero] at heq
    have hzero := congrArg UInt32.toNat (adapterPath_injective heq)
    rw [hindex i hi] at hzero
    exact absurd hzero (Nat.succ_ne_zero i)

theorem RegistryInv.operational {σ : State} {l : List ℕ} (h : RegistryInv σ l)
    (hreach : Reachable σ) {d : ℕ} {x : Device} (hx : σ.devices[d]? = some x)
    (hinit : x.initialised = true) : Operational σ d x := by
  have hwf := (PointersInv.of_reachable hreach).devices d x hx
  have hregistration := RegistrationInv.of_reachable hreach
  obtain ⟨handle, hhandle⟩ := Option.isSome_iff_exists.mp (h.handles.initialised d x hx hinit)
  obtain ⟨⟨index, hmem⟩, id, hcontroller⟩ := h.controllers.named d x handle hx hhandle
  obtain ⟨hdevice, hadvert⟩ := h.list.registered d ((h.list.listed d).mpr ⟨x, hx, hinit⟩)
  refine ⟨⟨id, _, hcontroller⟩, ⟨handle, index, hhandle, hmem⟩, ?_, ?_⟩
  · -- the path of the device
    obtain ⟨path, hpath⟩ := mem_registeredObjects.mp hdevice
    obtain ⟨i, hi⟩ := hwf.objectPath
    obtain ⟨rfl, -⟩ := hregistration.devices d path hpath
    exact ⟨i, _, hi, hpath⟩
  · -- the path of its advertisement
    obtain ⟨path, hpath⟩ := mem_registeredObjects.mp hadvert
    obtain ⟨rfl, y, hy, hset⟩ := hregistration.adverts d path hpath
    obtain rfl : x = y := Option.some.inj (hx.symm.trans hy)
    rcases hwf.advertisement with hunset | hnamed
    · exact absurd hunset.objectPath hset
    · obtain ⟨i, hi⟩ := hnamed.objectPath
      exact ⟨i, _, hi, hpath⟩

theorem RegistryInv.deviceRegistry {σ : State} {l : List ℕ} (h : RegistryInv σ l)
    (hreach : ReachableBy Op.NoFini σ) : DeviceRegistry σ l := by
  have hpointers := PointersInv.of_reachable hreach.reachable
  have halive := notMem_finalised hreach
  have hlookup := h.list.deviceGetDevice_eq hpointers fun d _ => halive _
  have hnames : ∀ d ∈ l, ∀ e ∈ l, σ.nameOf d = σ.nameOf e → d = e := fun d hd e he heq =>
    List.inj_on_of_nodup_map h.list.names hd he heq
  have hfound : ∀ deviceName d, deviceGetDevice deviceName σ = .ok (some d) ↔
      d ∈ l ∧ σ.nameOf d = some deviceName := by
    intro deviceName d
    rw [hlookup, Except.ok.injEq]
    constructor
    · intro hfind
      exact ⟨List.mem_of_find?_eq_some hfind, by simpa using List.find?_some hfind⟩
    · intro ⟨hd, hname⟩
      cases hfind : l.find? fun e => σ.nameOf e = some deviceName with
      | none => exact absurd hname (by simpa using List.find?_eq_none.mp hfind d hd)
      | some e =>
        have hname' : σ.nameOf e = some deviceName := by simpa using List.find?_some hfind
        rw [hnames d hd e (List.mem_of_find?_eq_some hfind) (hname.trans hname'.symm)]
  refine ⟨h.list.chain, h.list.chain.nodup, hnames, hfound, fun deviceName => ?_, h.list.listed,
    fun d hd e hname env => ?_, fun d x hx hinit => h.operational hreach.reachable hx hinit,
    h.controllerPaths⟩
  · rw [hlookup, Except.ok.injEq, List.find?_eq_none]
    simp
  · -- a listed device with the same name ends every further registration
    obtain ⟨x, hx, -⟩ := (h.list.listed d).mp hd
    obtain ⟨i, name, hxname⟩ := (hpointers.devices d x hx).deviceName
    have hnameOf : σ.nameOf d = some name := by simp [State.nameOf, hx, hxname, Ptr.contents?]
    rw [hnameOf] at hname
    obtain ⟨y, hy, hyname⟩ := Option.bind_eq_some_iff.mp hname
    have hdevice : σ.device e = .ok y := State.device_eq_ok.mpr ⟨halive _, hy⟩
    obtain ⟨j, name', hj⟩ := (hpointers.devices e y hy).deviceName
    have hread := hpointers.read_device hdevice (show y.field .deviceName = _ from hj)
    rw [show y.field .deviceName = y.deviceName from rfl] at hread
    obtain rfl : name' = name := by simpa [hj, Ptr.contents?] using hyname
    refine deviceRegister_of_found (e := d) hdevice ?_ env
    rw [hread]
    exact (hfound name' d).mpr ⟨hd, hnameOf⟩

/-- After every run without finalisations the list of devices is a registry by name, and a device
is in it exactly if one registration of the device has returned true; no two have. -/
theorem deviceRegistry_of_run {σ₀ σ : State} (hinit : σ₀.IsInitial) {ops : List Op}
    (hops : ∀ op ∈ ops, op.NoFini) {replies : List Reply}
    (hrun : execAll ops σ₀ = .ok (replies, σ)) : ∃ l, DeviceRegistry σ l ∧
      ∀ d, (ops.zip replies).countP (Succeeded d) = if d ∈ l then 1 else 0 := by
  have hstart : ReachableBy Op.NoFini σ₀ := ⟨σ₀, [], [], hinit, by simp, rfl⟩
  obtain ⟨l, h, hcount⟩ := RegistryInv.run hops hstart (.of_isInitial hinit) hrun
  refine ⟨l, h.deviceRegistry ⟨σ₀, ops, replies, hinit, hops, hrun⟩, fun d => ?_⟩
  rw [hcount d]
  simp

/-- The theorem for a run that registers a device at the second attempt. -/
theorem deviceRegistry_of_run_second_attempt : ∃ l,
    DeviceRegistry (State.after [.createDevice "lamp".toList,
      .registerDevice ⟨fun _ _ => true, none, ⟨true, true, true⟩⟩ 0,
      .registerDevice allSucceeds 0]) l ∧
    ∀ d, ([Op.createDevice "lamp".toList,
      .registerDevice ⟨fun _ _ => true, none, ⟨true, true, true⟩⟩ 0,
      .registerDevice allSucceeds 0].zip
        [Reply.created (.device 0), .bool false, .bool true]).countP (Succeeded d) =
      if d ∈ l then 1 else 0 := by
  refine deviceRegistry_of_run State.isInitial_empty (fun op hop => ?_) rfl
  simp only [List.mem_cons, List.not_mem_nil, or_false] at hop
  rcases hop with rfl | rfl | rfl <;> trivial

/-! ## The number of controllers wraps around -/

/-- The creation of a device or its registration. -/
def Op.RegistersDevices : Op → Prop
  | .createDevice _ | .registerDevice _ _ => True
  | _ => False

theorem Op.RegistersDevices.noFini {op : Op} (h : op.RegistersDevices) : op.NoFini := by
  cases op <;> trivial

/-- A registration on behalf of which the path of the device is refused. -/
def pathRefused : RegisterEnv := ⟨fun _ _ => false, some 1, ⟨true, true, true⟩⟩

/-- In an empty list nothing is found. -/
theorem deviceGetDevice_of_head_none {σ : State} (hhead : σ.deviceListHead = none)
    (deviceName : CStr) : deviceGetDevice deviceName σ = .ok none := by
  unfold deviceGetDevice
  rw [hhead]
  cases σ.devices.length <;> rfl

/-- A device whose registration has failed `n` times after its controller was opened. -/
theorem exists_device_after_failures (n : ℕ) : ∃ σ x, ReachableBy Op.RegistersDevices σ ∧
    σ.device 0 = .ok x ∧ σ.deviceListHead = none ∧ σ.controllersOpened = n := by
  induction n with
  | zero =>
    have hempty : ReachableBy Op.RegistersDevices State.empty :=
      ⟨_, [], [], State.isInitial_empty, by simp, rfl⟩
    exact ⟨_, _, hempty.step (.createDevice []) trivial rfl, rfl, rfl, rfl⟩
  | succ n ih =>
    obtain ⟨σ, x, hreach, hx, hhead, hopened⟩ := ih
    obtain ⟨strings, a, -, -, hrun⟩ := deviceRegister_eq (.of_reachable hreach.reachable) hx
      (deviceGetDevice_of_head_none hhead _) pathRefused
    have hstep := hreach.step (r := .bool false) (.registerDevice pathRefused 0) trivial
      (bind_eq_ok.mpr ⟨_, hrun, rfl⟩)
    exact ⟨_, _, hstep, State.device_modify _ hx rfl rfl, hhead, congrArg (· + 1) hopened⟩

/-- The `2 ^ 32`-th controller is named like the default one. -/
theorem controllerPath_default : ¬ ∀ σ, ReachableBy Op.RegistersDevices σ →
    ∀ (d : ℕ) (x : Device), σ.devices[d]? = some x → x.initialised = true →
      σ.controllerPath d ≠ some defaultAdapterPath := by
  intro h
  obtain ⟨σ, x, hreach, hx, hhead, hopened⟩ := exists_device_after_failures (2 ^ 32 - 1)
  obtain ⟨l, hinv⟩ := RegistryInv.of_reachable (hreach.mono fun _ => Op.RegistersDevices.noFini)
  obtain ⟨strings, a, -, -, hrun⟩ := deviceRegister_eq (.of_reachable hreach.reachable) hx
    (deviceGetDevice_of_head_none hhead _) allSucceeds
  have hstep := hreach.step (r := .bool true) (.registerDevice allSucceeds 0) trivial
    (bind_eq_ok.mpr ⟨_, hrun, rfl⟩)
  have hget := State.getElem?_afterRegister (State.device_eq_ok.mp hx).2 allSucceeds strings a
    (σ.bus.sent ++ allSucceeds.requests σ.bus.paths 0 (adapterPath σ.controllerCount)) 0
  rw [if_pos rfl] at hget
  refine h _ hstep 0 _ hget rfl ?_
  have hcount : σ.controllerCount = 0 := by
    rw [hinv.controllers.controllerCount, hopened]
    rfl
  rw [State.controllerPath, hget]
  simp [Device.afterRegister, Ptr.contents?, hcount, adapterPath_zero]

end BleSim
