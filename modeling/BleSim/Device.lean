import BleSim.Service
import BleSim.Advertising

/-!
# Devices (`device.c`)
-/

namespace BleSim

open Outcomes WriteOnce Intrusive Decimal

/-! ## Life of a device -/

/-- `device_init`, on a struct whose advertisement has not been assigned. -/
def deviceInit (strings : Heap CStr) (deviceCount : UInt32) (deviceName : CStr)
    (origin : Origin) : Device × Heap CStr :=
  let (deviceName, strings) := strings.alloc deviceName
  let (objectPath, strings) :=
    dbusutilsCreateObjectPath strings emptyString deviceObjectName deviceCount
  ({ services := { head := none, count := 0 }
     controller := .null
     deviceName
     objectPath
     applicationRegistered := false
     initialised := false
     origin
     virtualController := none
     advertisement := .uninitialised
     next := none }, strings)

/-- `vhci_close`, which ignores NULL. -/
def vhciClose (openControllers : List (ℕ × ℕ)) (virtualController : Option ℕ) :
    List (ℕ × ℕ) :=
  match virtualController with
  | none => openControllers
  | some handle => openControllers.filter fun c => c.1 != handle

/-- `device_fini`: only a device made in C frees its services. -/
def deviceFini (d : ℕ) (σ : State) : Outcome State := do
  let x ← σ.device d
  let strings := ((σ.strings.free x.controller).free x.deviceName).free x.objectPath
  let σ := { σ with
    strings := advertisementFini strings x.advertisement
    openControllers := vhciClose σ.openControllers x.virtualController
    finalised := .device d :: σ.finalised }
  if x.origin = .c then
    loop .divergence
      (fun s σ => do
        let y ← σ.service s
        let σ ← serviceFree s σ
        .ok (y.node.next, { σ with
          devices := σ.devices.modify d fun x => { x with services.head := y.node.next } }))
      σ.services.length x.services.head σ
  else .ok σ

/-- `device_free`. -/
def deviceFree (d : ℕ) (σ : State) : Outcome State := do
  let σ ← deviceFini d σ
  .ok { σ with freedStructs := .device d :: σ.freedStructs }

/-! ## The list of devices -/

/-- `add_device_to_device_list`: the first device's link is left alone. -/
def addDeviceToDeviceList (d : ℕ) (σ : State) : State :=
  match σ.deviceListHead with
  | none => { σ with deviceListHead := some d }
  | some head =>
    { σ with
      devices := σ.devices.modify d fun x => { x with next := some head }
      deviceListHead := some d }

/-- `device_get_device`. -/
def deviceGetDevice (deviceName : CStr) (σ : State) : Outcome (Option ℕ) :=
  loop .divergence
    (fun d _ => do
      let x ← σ.device d
      if deviceName = σ.strings.read x.deviceName then .ok (none, some d)
      else .ok (x.next, none))
    σ.devices.length σ.deviceListHead none

/-! ## Services of a device -/

/-- `device_get_service`. -/
def deviceGetService (d : ℕ) (uuid : CStr) (σ : State) : Outcome (Option ℕ) := do
  let x ← σ.device d
  getChild .service x.services uuid σ

/-- `device_add_service`. -/
def deviceAddService (accepts : Accepts) (d s : ℕ) (σ : State) : Outcome (Bool × State) := do
  let x ← σ.device d
  let y ← σ.service s
  addChild .service accepts d x.objectPath x.services s y.node σ

/-! ## Managed objects -/

/-- The innermost loop of `device_get_managed_objects`: the descriptors of a characteristic. -/
def appendDescriptors (σ : State) (array : Iter) (head : Option ℕ) (w : Writer) :
    Outcome Writer :=
  loop .divergence
    (fun k w => do
      let x ← σ.descriptor k
      let w ← descriptorGetObject σ x array w
      .ok (x.node.next, w))
    σ.descriptors.length head w

/-- The middle loop: the characteristics of a service, each before its descriptors. -/
def appendCharacteristics (σ : State) (array : Iter) (head : Option ℕ) (w : Writer) :
    Outcome Writer :=
  loop .divergence
    (fun c w => do
      let x ← σ.characteristic c
      let w ← characteristicGetObject σ x array w
      let w ← appendDescriptors σ array x.descriptors.head w
      .ok (x.node.next, w))
    σ.characteristics.length head w

/-- The outer loop: the services of a device, each before its characteristics. -/
def appendServices (σ : State) (array : Iter) (head : Option ℕ) (w : Writer) : Outcome Writer :=
  loop .divergence
    (fun s w => do
      let x ← σ.service s
      let w ← serviceGetObject σ x array w
      let w ← appendCharacteristics σ array x.characteristics.head w
      .ok (x.node.next, w))
    σ.services.length head w

/-- `device_get_managed_objects`. -/
def deviceGetManagedObjects (d : ℕ) (message : Message) (σ : State) : Handled := do
  match dbusMessageNewMethodReturn σ.bus message with
  | none => .ok (none, σ)
  | some reply =>
    let w := Writer.initAppend reply.body
    let (array, w) ← w.openContainer 0 (.array "{oa{sa{sv}}}".toList)
    let x ← σ.device d
    let w ← appendServices σ array x.services.head w
    let w ← w.closeContainer 0 array
    .ok (some { reply with body := w.body }, σ)

/-- `device_methods`. -/
def deviceMethods (d : ℕ) : List Method :=
  [⟨dbusInterfaceObjectManager, dbusMethodGetManagedObjects, deviceGetManagedObjects d⟩]

/-! ## Registration -/

/-- What a registration meets outside the process: the path registrations, the adapter index of
the controller `vhci_open` creates (none when it fails), and BlueZ. -/
structure RegisterEnv where
  accepts : Accepts
  vhciOpen : Option ℕ
  bluez : BluezEnv

/-- `on_register_application_reply`: an error is only logged, without a look at the device. -/
def onRegisterApplicationReply (d : ℕ) (success : Bool) (σ : State) : Outcome State := do
  if success then
    let _ ← σ.device d
    .ok { σ with devices := σ.devices.modify d fun x => { x with applicationRegistered := true } }
  else .ok σ

/-- `device_register_with_bluez`. -/
def deviceRegisterWithBluez (d : ℕ) (env : BluezEnv) (σ : State) : Outcome (Bool × State) := do
  let x ← σ.device d
  if x.controller = .null then .ok (false, σ)
  else
    let request ← bluezRegisterRequest σ.strings x.controller bluezGattManagerInterface
      bluezMethodRegisterApplication x.objectPath env.applicationMessage
    match request with
    | none => .ok (false, σ)
    | some message =>
      let bus := dbusConnectionSendWithReply σ.bus message (.device d) env.pendingCall
      .ok (true, { σ with bus })

/-- The path of an adapter: `"/org/bluez/hci%u"`. -/
def adapterPath (index : UInt32) : CStr := baseAdapterPath ++ decimal index.toNat

/-- `device_init_controller`. -/
def deviceInitController (d : ℕ) (vhciOpen : Option ℕ) (σ : State) : Outcome (Bool × State) := do
  let _ ← σ.device d
  let (controller, strings) := σ.strings.alloc (adapterPath σ.controllerCount)
  match vhciOpen with
  | none =>
    .ok (false, { σ with
      strings
      devices := σ.devices.modify d fun x => { x with controller, virtualController := none } })
  | some index =>
    .ok (true, { σ with
      strings
      devices := σ.devices.modify d fun x =>
        { x with controller, virtualController := some σ.controllersOpened }
      openControllers := σ.openControllers ++ [(σ.controllersOpened, index)]
      controllersOpened := σ.controllersOpened + 1
      controllerCount := σ.controllerCount + 1 })

/-- The manufacturer data of every advertisement. -/
def manufacturerData : Bytes :=
  [0, 0, 0, 0, 1, 1, 1, 1, 2, 2, 2, 2, 3, 3, 3, 3, 4, 4, 4, 4, 5, 5, 5, 5]

/-- The part of `device_register` that sets up the advertisement. -/
def deviceInitAdvertisement (d : ℕ) (σ : State) : Outcome State := do
  let x ← σ.device d
  let (advertObjectPath, strings) :=
    dbusutilsCreateObjectPath σ.strings (σ.strings.read x.objectPath) advertisementObjectName 0
  let (advertisement, strings) :=
    advertisementInit strings (strings.read advertObjectPath) 0xBEEF manufacturerData
  .ok { σ with
    strings := strings.free advertObjectPath
    devices := σ.devices.modify d fun x => { x with advertisement } }

/-- `device_register`. -/
def deviceRegister (env : RegisterEnv) (d : ℕ) (σ : State) : Outcome (Bool × State) := do
  let x ← σ.device d
  let found ← deviceGetDevice (σ.strings.read x.deviceName) σ
  if found.isSome then .ok (false, σ)
  else
    let (success, σ) ← deviceInitController d env.vhciOpen σ
    if !success then .ok (false, σ)
    else
      let (success, bus) := dbusutilsRegisterObject σ.bus (σ.strings.read x.objectPath)
        (.device d) env.accepts
      let σ := { σ with bus }
      if !success then .ok (false, σ)
      else
        let (success, σ) ← deviceRegisterWithBluez d env.bluez σ
        if !success then .ok (false, σ)
        else
          let σ ← deviceInitAdvertisement d σ
          let x ← σ.device d
          let (success, bus) := dbusutilsRegisterObject σ.bus
            (σ.strings.read x.advertisement.objectPath) (.advertisement d) env.accepts
          let σ := { σ with bus }
          if !success then .ok (false, σ)
          else
            let (success, bus) ← advertisementRegisterWithBluez σ.strings x.advertisement d
              x.controller env.bluez σ.bus
            let σ := { σ with bus }
            if !success then .ok (false, σ)
            else
              let σ := addDeviceToDeviceList d σ
              .ok (true, { σ with
                devices := σ.devices.modify d fun x => { x with initialised := true } })

/-! ## Properties of the adapter -/

/-- What `device_set_discoverable` and `device_set_powered` do: only a device that has been
registered has an adapter to ask. -/
def deviceSetAdapterProperty (property : CStr) (env : PropertyEnv) (d : ℕ) (value : Bool)
    (σ : State) : Outcome (Bool × State) := do
  let x ← σ.device d
  if !x.initialised then .ok (false, σ)
  else
    let (success, bus) ← dbusutilsSetPropertyBasic σ.strings x.controller bluezAdapterInterface
      property ['b'] (.boolean value) env σ.bus
    .ok (success, { σ with bus })

/-- `device_set_discoverable`. -/
def deviceSetDiscoverable (env : PropertyEnv) (d : ℕ) (discoverable : Bool) :
    State → Outcome (Bool × State) :=
  deviceSetAdapterProperty bluezAdapterPropertyDiscoverable env d discoverable

/-- `device_set_powered`. -/
def deviceSetPowered (env : PropertyEnv) (d : ℕ) (powered : Bool) :
    State → Outcome (Bool × State) :=
  deviceSetAdapterProperty bluezAdapterPropertyPowered env d powered

end BleSim
