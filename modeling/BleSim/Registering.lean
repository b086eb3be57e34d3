import BleSim.Paths
import BleSim.Registrations

/-!
# What a registration of a device does

`device_register` runs six steps and returns after the first that fails. How far it gets only
depends on what it meets outside the process (`reaches…`), and whatever it has done by then
stays: `deviceRegister_eq` gives the state it leaves behind for every way out at once.
-/

namespace BleSim

open Outcomes WriteOnce Intrusive

/-! ## How far a registration gets -/

namespace RegisterEnv

variable (env : RegisterEnv) (paths : List CStr) (d : ℕ)

/-- The controller is opened and the path of the device is registered. -/
def publishesDevice : Bool := env.vhciOpen.isSome && env.accepts paths (devicePath d)

/-- The request `RegisterApplication` is sent. -/
def requestsApplication : Bool := env.publishesDevice paths d && env.bluez.applicationMessage

/-- The path of the advertisement is registered. -/
def publishesAdvert : Bool :=
  env.requestsApplication paths d && env.accepts (paths ++ [devicePath d]) (advertPath d)

/-- The request `RegisterAdvertisement` is sent, which is the last step that can fail. -/
def succeeds : Bool := env.publishesAdvert paths d && env.bluez.advertisementMessage

/-- The requests it gets to send to the adapter. -/
def requests (adapter : CStr) : List Message :=
  (if env.requestsApplication paths d then
    [bluezRegisterMessage adapter bluezGattManagerInterface bluezMethodRegisterApplication
      (devicePath d)] else []) ++
  if env.succeeds paths d then
    [bluezRegisterMessage adapter bluezLeAdvertisingManagerInterface
      bluezMethodRegisterAdvertisement (advertPath d)] else []

end RegisterEnv

/-! ## What it leaves behind -/

/-- A device after `device_register`. -/
def Device.afterRegister (x : Device) (env : RegisterEnv) (d : ℕ) (σ : State)
    (advertisement : Advertisement) : Device :=
  { x with
    controller := .block σ.strings.size (adapterPath σ.controllerCount)
    virtualController := env.vhciOpen.map fun _ => σ.controllersOpened
    advertisement
    next := if env.succeeds σ.bus.paths d then σ.deviceListHead.or x.next else x.next
    initialised := env.succeeds σ.bus.paths d || x.initialised }

/-- The state after `device_register`. -/
def State.afterRegister (σ : State) (env : RegisterEnv) (d : ℕ) (strings : Heap CStr)
    (advertisement : Advertisement) (sent : List Message) : State :=
  { σ with
    strings
    devices := σ.devices.modify d fun x => x.afterRegister env d σ advertisement
    deviceListHead := if env.succeeds σ.bus.paths d then some d else σ.deviceListHead
    controllerCount := σ.controllerCount + if env.vhciOpen.isSome then 1 else 0
    openControllers := σ.openControllers ++
      (env.vhciOpen.map fun index => (σ.controllersOpened, index)).toList
    controllersOpened := σ.controllersOpened + if env.vhciOpen.isSome then 1 else 0
    bus :=
      { σ.bus with
        registered := σ.bus.registered ++
          ((if env.publishesDevice σ.bus.paths d then [(devicePath d, .device d)] else []) ++
            if env.publishesAdvert σ.bus.paths d then [(advertPath d, .advertisement d)] else [])
        sent
        pending := σ.bus.pending ++
          ((if env.requestsApplication σ.bus.paths d && env.bluez.pendingCall then [.device d]
              else []) ++
            if env.succeeds σ.bus.paths d && env.bluez.pendingCall then [.advertisement d]
              else []) } }

/-- Only what a function makes of the element at the index matters. -/
theorem State.modify_congr {α : Type} {l : List α} {i : ℕ} {a : α} {f g : α → α}
    (ha : l[i]? = some a) (hfg : f a = g a) : l.modify i f = l.modify i g := by
  apply List.ext_getElem?
  intro j
  by_cases hij : i = j
  · subst hij
    rw [List.getElem?_modify_eq, List.getElem?_modify_eq, ha]
    exact congrArg some hfg
  · simp only [List.getElem?_modify_ne _ _ hij]

theorem State.modify_eq_self {α : Type} {l : List α} {i : ℕ} {a : α} {f : α → α}
    (ha : l[i]? = some a) (hf : f a = a) : l.modify i f = l := by
  have hid : l.modify i id = l := List.modify_id i l
  rw [State.modify_congr ha (show f a = id a from hf), hid]

/-- The devices after a registration. -/
theorem State.getElem?_afterRegister {σ : State} {d : ℕ} {x : Device} (hx : σ.devices[d]? = some x)
    (env : RegisterEnv) (strings : Heap CStr) (a : Advertisement) (sent : List Message) (e : ℕ) :
    (σ.afterRegister env d strings a sent).devices[e]? =
      if d = e then some (x.afterRegister env d σ a) else σ.devices[e]? := by
  unfold State.afterRegister
  by_cases hde : d = e
  · subst hde
    rw [if_pos rfl, List.getElem?_modify_eq, hx]
    rfl
  · rw [if_neg hde, List.getElem?_modify_ne _ _ hde]

/-- A registration that succeeds has got through every step. -/
theorem RegisterEnv.of_succeeds {env : RegisterEnv} {paths : List CStr} {d : ℕ}
    (h : env.succeeds paths d = true) : env.vhciOpen.isSome = true ∧
      env.publishesDevice paths d = true ∧ env.requestsApplication paths d = true ∧
      env.publishesAdvert paths d = true := by
  have hadvert := (Bool.and_eq_true_iff.mp h).1
  have hrequests := (Bool.and_eq_true_iff.mp hadvert).1
  have hdevice := (Bool.and_eq_true_iff.mp hrequests).1
  exact ⟨(Bool.and_eq_true_iff.mp hdevice).1, hdevice, hrequests, hadvert⟩

/-! ## The steps of a registration -/

section Steps

variable {σ : State} {d : ℕ} {x : Device}

/-- The state after `device_init_controller`. -/
def State.openController (σ : State) (d : ℕ) (vhciOpen : Option ℕ) : State :=
  { σ with
    strings := (σ.strings.alloc (adapterPath σ.controllerCount)).2
    devices := σ.devices.modify d fun x =>
      { x with
        controller := .block σ.strings.size (adapterPath σ.controllerCount)
        virtualController := vhciOpen.map fun _ => σ.controllersOpened }
    openControllers := σ.openControllers ++
      (vhciOpen.map fun index => (σ.controllersOpened, index)).toList
    controllersOpened := σ.controllersOpened + if vhciOpen.isSome then 1 else 0
    controllerCount := σ.controllerCount + if vhciOpen.isSome then 1 else 0 }

/-- The path of the adapter, which the requests are sent to. -/
theorem libraryPath_openController (σ : State) (d : ℕ) (vhciOpen : Option ℕ) :
    libraryPath (σ.openController d vhciOpen).strings
        (.block σ.strings.size (adapterPath σ.controllerCount)) =
      .ok (adapterPath σ.controllerCount) :=
  libraryPath_eq_ok.mpr ⟨Heap.alloc_pointsTo _ _, (validObjectPath_adapterPath _).isObjectPath⟩

theorem deviceInitController_eq (hx : σ.device d = .ok x) (vhciOpen : Option ℕ) :
    deviceInitController d vhciOpen σ = .ok (vhciOpen.isSome, σ.openController d vhciOpen) := by
  unfold deviceInitController State.openController
  rw [hx, ok_bind]
  cases vhciOpen with
  | none => simp
  | some index => simp

/-- The paths the two requests carry. -/
theorem libraryPath_devicePath {strings : Heap CStr} {field : Ptr CStr}
    (h : strings.PointsTo field (devicePath d)) :
    libraryPath strings field = .ok (devicePath d) :=
  libraryPath_eq_ok.mpr ⟨h, (Position.device (UInt32.ofNat d)).validObjectPath.isObjectPath⟩

theorem libraryPath_advertPath {strings : Heap CStr} {field : Ptr CStr}
    (h : strings.PointsTo field (advertPath d)) :
    libraryPath strings field = .ok (advertPath d) :=
  libraryPath_eq_ok.mpr
    ⟨h, (Position.advertisement (UInt32.ofNat d)).validObjectPath.isObjectPath⟩

section Requests

variable {adapter : CStr}

theorem deviceRegisterWithBluez_eq (hx : σ.device d = .ok x)
    (hadapter : libraryPath σ.strings x.controller = .ok adapter)
    (hpath : σ.strings.PointsTo x.objectPath (devicePath d)) (env : BluezEnv) :
    deviceRegisterWithBluez d env σ = .ok (env.applicationMessage,
      { σ with bus := { σ.bus with
        sent := σ.bus.sent ++
          if env.applicationMessage then [bluezRegisterMessage adapter bluezGattManagerInterface
            bluezMethodRegisterApplication (devicePath d)] else []
        pending := σ.bus.pending ++
          if env.applicationMessage && env.pendingCall then [.device d] else [] } }) := by
  have hcontroller : x.controller ≠ .null := by
    obtain ⟨⟨id, -, hid⟩, -⟩ := libraryPath_eq_ok.mp hadapter
    simp [hid]
  unfold deviceRegisterWithBluez dbusConnectionSendWithReply
  rw [hx, ok_bind, if_neg hcontroller,
    bluezRegisterRequest_eq hadapter (libraryPath_devicePath hpath), ok_bind]
  cases env.applicationMessage with
  | false => simp
  | true => cases env.pendingCall <;> simp

theorem advertisementRegisterWithBluez_eq {strings : Heap CStr} {advertisement : Advertisement}
    {controllerPath : Ptr CStr} (hadapter : libraryPath strings controllerPath = .ok adapter)
    (hpath : strings.PointsTo advertisement.objectPath (advertPath d)) (env : BluezEnv)
    (bus : Connection) :
    advertisementRegisterWithBluez strings advertisement d controllerPath env bus =
      .ok (env.advertisementMessage,
        { bus with
          sent := bus.sent ++
            if env.advertisementMessage then [bluezRegisterMessage adapter
              bluezLeAdvertisingManagerInterface bluezMethodRegisterAdvertisement (advertPath d)]
            else []
          pending := bus.pending ++
            if env.advertisementMessage && env.pendingCall then [.advertisement d] else [] }) := by
  unfold advertisementRegisterWithBluez dbusConnectionSendWithReply
  rw [bluezRegisterRequest_eq hadapter (libraryPath_advertPath hpath), ok_bind]
  cases env.advertisementMessage with
  | false => simp
  | true => cases env.pendingCall <;> simp

theorem deviceRegister_of_none (hx : σ.device d = .ok x)
    (hnone : deviceGetDevice (σ.strings.read x.deviceName) σ = .ok none) (env : RegisterEnv) :
    deviceRegister env d σ = if env.vhciOpen.isSome then
        registerPaths env d ((σ.openController d env.vhciOpen).strings.read x.objectPath)
          (σ.openController d env.vhciOpen)
      else .ok (false, σ.openController d env.vhciOpen) := by
  unfold deviceRegister
  rw [hx, ok_bind, hnone, ok_bind, deviceInitController_eq hx, ok_bind]
  cases env.vhciOpen with
  | none => rfl
  | some index => rfl

theorem registerAdvert_eq (hx : σ.device d = .ok x)
    (hadapter : libraryPath σ.strings x.controller = .ok adapter)
    (hpath : σ.strings.PointsTo x.objectPath (devicePath d)) (env : RegisterEnv) (b c : Bool)
    (hb : b = env.accepts σ.bus.paths (advertPath d))
    (hc : c = (b && env.bluez.advertisementMessage)) :
    ∃ strings advertisement, σ.strings.Extends strings ∧ registerAdvert env d σ = .ok (c,
      { σ with
        strings
        devices := σ.devices.modify d fun x =>
          { x with
            advertisement
            next := if c then σ.deviceListHead.or x.next else x.next
            initialised := c || x.initialised }
        deviceListHead := if c then some d else σ.deviceListHead
        bus :=
          { σ.bus with
            registered := σ.bus.registered ++
              if b then [(advertPath d, .advertisement d)] else []
            sent := σ.bus.sent ++
              if c then [bluezRegisterMessage adapter bluezLeAdvertisingManagerInterface
                bluezMethodRegisterAdvertisement (advertPath d)] else []
            pending := σ.bus.pending ++
              if c && env.bluez.pendingCall then [.advertisement d] else [] } }) := by
  obtain ⟨σ₁, hinit⟩ : ∃ σ₁, deviceInitAdvertisement d σ = .ok σ₁ := by
    unfold deviceInitAdvertisement
    rw [hx]
    exact ⟨_, rfl⟩
  obtain ⟨x', strings, a, i, j, k, hx', rfl, hx₁, hext, hi, -, -, hilive, -, -, hadvert, -⟩ :=
    deviceInitAdvertisement_spec hinit
  obtain rfl : x = x' := by simpa using hx.symm.trans hx'
  have hpoints : strings.PointsTo a.objectPath (advertPath d) := by
    rw [hpath.read] at hadvert
    exact ⟨i, hilive, hadvert⟩
  have hadapter' : libraryPath strings x.controller = .ok adapter := by
    obtain ⟨hcontroller, hvalid⟩ := libraryPath_eq_ok.mp hadapter
    exact libraryPath_eq_ok.mpr ⟨hext.pointsTo hcontroller, hvalid⟩
  unfold registerAdvert
  rw [hinit, ok_bind, hx₁, ok_bind]
  simp only [hpoints.read]
  unfold dbusutilsRegisterObject
  rw [← hb]
  refine ⟨strings, a, hext, ?_⟩
  cases b with
  | false => simp [hc]
  | true =>
    simp only [↓reduceIte, Bool.not_true, Bool.false_eq_true,
      advertisementRegisterWithBluez_eq hadapter' hpoints, ok_bind]
    rw [Bool.true_and] at hc
    rw [← hc]
    cases c with
    | false => simp
    | true =>
      simp only [Bool.not_true, Bool.false_eq_true, ↓reduceIte, State.listDevice_eq,
        List.modify_modify_eq]
      rfl

theorem registerPaths_eq (hx : σ.device d = .ok x)
    (hadapter : libraryPath σ.strings x.controller = .ok adapter)
    (hpath : σ.strings.PointsTo x.objectPath (devicePath d)) {env : RegisterEnv}
    (hopen : env.vhciOpen.isSome = true) :
    ∃ strings advertisement, σ.strings.Extends strings ∧
      registerPaths env d (devicePath d) σ = .ok (env.succeeds σ.bus.paths d,
        { σ with
          strings
          devices := σ.devices.modify d fun x =>
            { x with
              advertisement
              next := if env.succeeds σ.bus.paths d then σ.deviceListHead.or x.next else x.next
              initialised := env.succeeds σ.bus.paths d || x.initialised }
          deviceListHead := if env.succeeds σ.bus.paths d then some d else σ.deviceListHead
          bus :=
            { σ.bus with
              registered := σ.bus.registered ++
                ((if env.publishesDevice σ.bus.paths d then [(devicePath d, .device d)]
                  else []) ++
                  if env.publishesAdvert σ.bus.paths d then [(advertPath d, .advertisement d)]
                  else [])
              sent := σ.bus.sent ++ env.requests σ.bus.paths d adapter
              pending := σ.bus.pending ++
                ((if env.requestsApplication σ.bus.paths d && env.bluez.pendingCall then
                    [.device d] else []) ++
                  if env.succeeds σ.bus.paths d && env.bluez.pendingCall then
                    [.advertisement d] else []) } }) := by
  unfold registerPaths dbusutilsRegisterObject
  have hsame : (σ.devices.modify d fun y => { y with advertisement := x.advertisement }) =
      σ.devices :=
    State.modify_eq_self (State.device_eq_ok.mp hx).2 rfl
  cases hdevice : env.accepts σ.bus.paths (devicePath d) with
  | false =>
    have hpublishes : env.publishesDevice σ.bus.paths d = false := by
      simp [RegisterEnv.publishesDevice, hdevice]
    refine ⟨σ.strings, x.advertisement, .refl _, ?_⟩
    simp [RegisterEnv.requests, RegisterEnv.succeeds, RegisterEnv.publishesAdvert,
      RegisterEnv.requestsApplication, hpublishes, hsame]
  | true =>
  have hpublishes : env.publishesDevice σ.bus.paths d = true := by
    simp [RegisterEnv.publishesDevice, hdevice, hopen]
  simp only [↓reduceIte, Bool.not_true, Bool.false_eq_true]
  rw [deviceRegisterWithBluez_eq (σ := { σ with bus := { σ.bus with
    registered := σ.bus.registered ++ [(devicePath d, .device d)] } }) hx hadapter hpath
    env.bluez, ok_bind]
  cases hmessage : env.bluez.applicationMessage with
  | false =>
    have hrequests : env.requestsApplication σ.bus.paths d = false := by
      simp [RegisterEnv.requestsApplication, hmessage]
    refine ⟨σ.strings, x.advertisement, .refl _, ?_⟩
    simp [RegisterEnv.requests, RegisterEnv.succeeds, RegisterEnv.publishesAdvert, hrequests,
      hpublishes, hsame]
  | true =>
  have hrequests : env.requestsApplication σ.bus.paths d = true := by
    simp [RegisterEnv.requestsApplication, hmessage, hpublishes]
  simp only [↓reduceIte, Bool.not_true, Bool.false_eq_true]
  obtain ⟨strings, a, hext, hrun⟩ := registerAdvert_eq (σ := { σ with bus := { σ.bus with
      registered := σ.bus.registered ++ [(devicePath d, .device d)]
      sent := σ.bus.sent ++ [bluezRegisterMessage adapter bluezGattManagerInterface
        bluezMethodRegisterApplication (devicePath d)]
      pending := σ.bus.pending ++
        if true && env.bluez.pendingCall then [.device d] else [] } }) hx hadapter hpath env
    (env.publishesAdvert σ.bus.paths d) (env.succeeds σ.bus.paths d)
    (by rw [RegisterEnv.publishesAdvert, hrequests]; simp [Connection.paths]) rfl
  refine ⟨strings, a, hext, ?_⟩
  rw [hrun]
  simp [RegisterEnv.requests, hpublishes, hrequests]

end Requests

/-! ## The whole registration -/

/-- A name that is taken ends a registration before its first step. -/
theorem deviceRegister_of_found {e : ℕ} (hx : σ.device d = .ok x)
    (hfound : deviceGetDevice (σ.strings.read x.deviceName) σ = .ok (some e))
    (env : RegisterEnv) : deviceRegister env d σ = .ok (false, σ) := by
  unfold deviceRegister
  simp only [hx, ok_bind, hfound, Option.isSome_some, ↓reduceIte]

/-- Otherwise the registration gets as far as it is let, which can be told from what it sends to
BlueZ, and undoes nothing. -/
theorem deviceRegister_eq (hpointers : PointersInv σ) (hx : σ.device d = .ok x)
    (hnone : deviceGetDevice (σ.strings.read x.deviceName) σ = .ok none) (env : RegisterEnv) :
    ∃ strings advertisement, σ.strings.Extends strings ∧ σ.strings.size ∈ strings.live ∧
      deviceRegister env d σ = .ok (env.succeeds σ.bus.paths d,
        σ.afterRegister env d strings advertisement
          (σ.bus.sent ++ env.requests σ.bus.paths d (adapterPath σ.controllerCount))) := by
  obtain ⟨pathId, hpath⟩ := (hpointers.devices d x (State.device_eq_ok.mp hx).2).objectPath
  have hpoints : σ.strings.PointsTo x.objectPath (devicePath d) :=
    hpointers.pointsTo_device hx (show x.field .objectPath = _ from hpath)
  rw [deviceRegister_of_none hx hnone]
  have hext : σ.strings.Extends (σ.openController d env.vhciOpen).strings :=
    Heap.Extends.alloc _ (adapterPath σ.controllerCount)
  have hlive : σ.strings.size ∈ (σ.openController d env.vhciOpen).strings.live :=
    Finset.mem_insert_self _ _
  have hx₁ : (σ.openController d env.vhciOpen).device d = .ok _ := State.device_modify _ hx rfl rfl
  have hpoints₁ := hext.pointsTo hpoints
  cases hopen : env.vhciOpen.isSome with
  | false =>
    have hnone : env.vhciOpen = none := by simpa using hopen
    have hpublishes : env.publishesDevice σ.bus.paths d = false := by
      simp [RegisterEnv.publishesDevice, hopen]
    refine ⟨_, x.advertisement, hext, hlive, ?_⟩
    have hdevices : (σ.openController d env.vhciOpen).devices =
        σ.devices.modify d fun x' => x'.afterRegister env d σ x.advertisement := by
      refine State.modify_congr (State.device_eq_ok.mp hx).2 ?_
      simp [Device.afterRegister, RegisterEnv.succeeds, RegisterEnv.publishesAdvert,
        RegisterEnv.requestsApplication, hpublishes]
    simp [State.afterRegister, RegisterEnv.requests, RegisterEnv.succeeds,
      RegisterEnv.publishesAdvert, RegisterEnv.requestsApplication, hpublishes, ← hdevices, hnone,
      State.openController]
  | true =>
    obtain ⟨strings, a, hext', hrun⟩ :=
      registerPaths_eq hx₁ (libraryPath_openController σ d env.vhciOpen) hpoints₁ hopen
    refine ⟨strings, a, hext.trans hext', hext'.live _ hlive, ?_⟩
    rw [if_pos rfl, hpoints₁.read, hrun]
    simp only [State.afterRegister, State.openController, List.modify_modify_eq, hopen]
    rfl

/-- A device of the list has the name of the given one. -/
def State.NameTaken (σ : State) (d : ℕ) : Prop :=
  ∃ x e, σ.device d = .ok x ∧ deviceGetDevice (σ.strings.read x.deviceName) σ = .ok (some e)

/-- A name that is not found is not taken. -/
theorem State.not_nameTaken (hx : σ.device d = .ok x)
    (hnone : deviceGetDevice (σ.strings.read x.deviceName) σ = .ok none) : ¬ σ.NameTaken d := by
  intro ⟨y, e, hy, hfound⟩
  obtain rfl : x = y := by simpa using hx.symm.trans hy
  rw [hnone] at hfound
  cases hfound

/-- Both ways out of a registration. -/
theorem deviceRegister_cases (hpointers : PointersInv σ) {env : RegisterEnv} {b : Bool}
    {σ' : State} (h : deviceRegister env d σ = .ok (b, σ')) :
    ∃ x, σ.device d = .ok x ∧
      ((∃ e, deviceGetDevice (σ.strings.read x.deviceName) σ = .ok (some e) ∧ b = false ∧ σ' = σ) ∨
      (deviceGetDevice (σ.strings.read x.deviceName) σ = .ok none ∧
        b = env.succeeds σ.bus.paths d ∧
        ∃ strings advertisement, σ.strings.Extends strings ∧ σ.strings.size ∈ strings.live ∧
          σ' = σ.afterRegister env d strings advertisement
            (σ.bus.sent ++ env.requests σ.bus.paths d (adapterPath σ.controllerCount)))) := by
  obtain ⟨x, hx, hrest⟩ := bind_eq_ok.mp h
  obtain ⟨found, hfound, -⟩ := bind_eq_ok.mp hrest
  refine ⟨x, hx, ?_⟩
  cases found with
  | some e =>
    rw [deviceRegister_of_found hx hfound] at h
    cases h
    exact Or.inl ⟨e, hfound, rfl, rfl⟩
  | none =>
    obtain ⟨strings, a, hext, hlive, hrun⟩ := deviceRegister_eq hpointers hx hfound env
    rw [hrun] at h
    cases h
    exact Or.inr ⟨hfound, rfl, strings, a, hext, hlive, rfl⟩

end Steps

end BleSim
