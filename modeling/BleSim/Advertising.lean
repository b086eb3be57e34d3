import BleSim.Characteristic

/-!
# Advertisements (`advertising.c`)
-/

namespace BleSim

open Outcomes WriteOnce

/-- An advertisement as `lua_newuserdata` leaves it: no field has been assigned. -/
def Advertisement.uninitialised : Advertisement where
  registered := false
  objectPath := .indeterminate
  type := .indeterminate
  manufacturerId := 0
  manufacturerData := []
  discoverable := false
  discoverableTimeout := 0
  duration := 0
  timeout := 0
  secondaryChannel := .indeterminate
  minInterval := 0
  maxInterval := 0

/-- `advertisement_init`. -/
def advertisementInit (strings : Heap CStr) (objectPath : CStr) (manufacturerKey : UInt16)
    (manufacturerData : Bytes) : Advertisement × Heap CStr :=
  let (objectPath, strings) := strings.alloc objectPath
  let (type, strings) := strings.alloc advertisementTypeDefault
  let (secondaryChannel, strings) := strings.alloc advertisementSecondaryChannelDefault
  ({ registered := false
     objectPath
     type
     manufacturerId := manufacturerKey
     manufacturerData := manufacturerData.take advertisementDataMaxSize
     discoverable := advertisementDiscoverableDefault
     discoverableTimeout := advertisementDiscoverableTimeoutDefault
     duration := advertisementDurationDefault
     timeout := advertisementTimeoutDefault
     secondaryChannel
     minInterval := advertisementMinIntervalDefault
     maxInterval := advertisementMaxIntervalDefault }, strings)

/-- `advertisement_fini`. -/
def advertisementFini (strings : Heap CStr) (advertisement : Advertisement) : Heap CStr :=
  ((strings.free advertisement.objectPath).free advertisement.type).free
    advertisement.secondaryChannel

/-! ## Property getters -/

def advertisementGetType (σ : State) (x : Advertisement) : Iter → Writer → Outcome Writer :=
  appendField σ.strings .string x.type

def advertisementGetManufacturerData (x : Advertisement) (iter : Iter) (w : Writer) :
    Outcome Writer := do
  let (dict, w) ← w.openContainer iter (.array "{qv}".toList)
  let w ← dbusutilsIterAppendDictEntryFixedArray (.uint16 x.manufacturerId) x.manufacturerData
    x.manufacturerData.length dict w
  w.closeContainer iter dict

def advertisementGetDiscoverable (x : Advertisement) (iter : Iter) (w : Writer) :
    Outcome Writer :=
  w.appendBasic iter (.boolean x.discoverable)

def advertisementGetDiscoverableTimeout (x : Advertisement) (iter : Iter) (w : Writer) :
    Outcome Writer :=
  w.appendBasic iter (.uint16 x.discoverableTimeout)

/-- The array is opened for elements of signature `as`. -/
def advertisementGetIncludes (iter : Iter) (w : Writer) : Outcome Writer := do
  let (array, w) ← w.openContainer iter (.array ['a', 's'])
  w.closeContainer iter array

def advertisementGetDuration (x : Advertisement) (iter : Iter) (w : Writer) : Outcome Writer :=
  w.appendBasic iter (.uint16 x.duration)

def advertisementGetTimeout (x : Advertisement) (iter : Iter) (w : Writer) : Outcome Writer :=
  w.appendBasic iter (.uint16 x.timeout)

def advertisementGetMinInterval (x : Advertisement) (iter : Iter) (w : Writer) :
    Outcome Writer :=
  w.appendBasic iter (.uint32 x.minInterval)

def advertisementGetMaxInterval (x : Advertisement) (iter : Iter) (w : Writer) :
    Outcome Writer :=
  w.appendBasic iter (.uint32 x.maxInterval)

/-- `advertisement_properties`. -/
def advertisementProperties (σ : State) (object : Outcome Advertisement) : List Property :=
  [⟨blePropertyType, ['s'], getFromObject object (advertisementGetType σ)⟩,
    ⟨blePropertyManufacturerData, "a{qv}".toList,
      getFromObject object advertisementGetManufacturerData⟩,
    ⟨blePropertyDiscoverable, ['b'], getFromObject object advertisementGetDiscoverable⟩,
    ⟨blePropertyDiscoverableTimeout, ['q'],
      getFromObject object advertisementGetDiscoverableTimeout⟩,
    ⟨blePropertyIncludes, ['a', 's'], advertisementGetIncludes⟩,
    ⟨blePropertyDuration, ['q'], getFromObject object advertisementGetDuration⟩,
    ⟨blePropertyTimeout, ['q'], getFromObject object advertisementGetTimeout⟩,
    ⟨blePropertyMinInterval, ['u'], getFromObject object advertisementGetMinInterval⟩,
    ⟨blePropertyMaxInterval, ['u'], getFromObject object advertisementGetMaxInterval⟩]

/-! ## Methods and registration -/

/-- `advertisement_release`. -/
def advertisementRelease (_message : Message) (σ : State) : Handled := .ok (none, σ)

/-- `advertisement_methods`. -/
def advertisementMethods : List Method :=
  [⟨bluezLeAdvertisementInterface, bluezMethodRelease, advertisementRelease⟩]

/-- The request `RegisterApplication` or `RegisterAdvertisement`: an object path and an empty
dictionary of options, sent to the controller's path. -/
def bluezRegisterMessage (controllerPath interface method objectPath : CStr) : Message :=
  ⟨.methodCall, some controllerPath, some interface, some method,
    [.objectPath objectPath, .array "{sv}".toList []]⟩

/-- How BlueZ and the library treat the requests of one registration: whether each message can
be created, and whether sending one yields a pending call. -/
structure BluezEnv where
  applicationMessage : Bool
  advertisementMessage : Bool
  pendingCall : Bool

/-- `dbus_connection_send_with_reply`, with `dbus_pending_call_set_notify` for `userData`. -/
def dbusConnectionSendWithReply (bus : Connection) (message : Message) (userData : Obj)
    (pendingCall : Bool) : Connection :=
  { bus with
    sent := bus.sent ++ [message]
    pending := if pendingCall then bus.pending ++ [userData] else bus.pending }

/-- How `device_register_with_bluez` and `advertisement_register_with_bluez` set up the arguments of
their requests. -/
def appendRegisterArguments (strings : Heap CStr) (objectPath : Ptr CStr) (iter : Iter)
    (w : Writer) : Outcome Writer := do
  let w ← appendField strings .objectPath objectPath iter w
  let (dict, w) ← w.openContainer iter (.array "{sv}".toList)
  w.closeContainer iter dict

/-- The request both make, if the message is `created`. -/
def bluezRegisterRequest (strings : Heap CStr) (controllerPath : Ptr CStr)
    (interface method : CStr) (objectPath : Ptr CStr) (created : Bool) :
    Outcome (Option Message) := do
  let controllerPath ← libraryPath strings controllerPath
  if !created then .ok none
  else
    let w ← appendRegisterArguments strings objectPath 0 (Writer.initAppend [])
    .ok (some ⟨.methodCall, some controllerPath, some interface, some method, w.body⟩)

/-- `advertisement_register_with_bluez`. -/
def advertisementRegisterWithBluez (strings : Heap CStr) (advertisement : Advertisement) (d : ℕ)
    (controllerPath : Ptr CStr) (env : BluezEnv) (bus : Connection) :
    Outcome (Bool × Connection) := do
  let request ← bluezRegisterRequest strings controllerPath bluezLeAdvertisingManagerInterface
    bluezMethodRegisterAdvertisement advertisement.objectPath env.advertisementMessage
  match request with
  | none => .ok (false, bus)
  | some message =>
    .ok (true, dbusConnectionSendWithReply bus message (.advertisement d) env.pendingCall)

/-- The message of a request whose two paths can be read. -/
theorem bluezRegisterRequest_eq {strings : Heap CStr} {controller object : Ptr CStr}
    {controllerPath objectPath : CStr}
    (hcontroller : libraryPath strings controller = .ok controllerPath)
    (hobject : libraryPath strings object = .ok objectPath) (interface method : CStr)
    (created : Bool) : bluezRegisterRequest strings controller interface method object created =
      .ok (if created then some (bluezRegisterMessage controllerPath interface method objectPath)
        else none) := by
  obtain ⟨hpoints, hvalid⟩ := libraryPath_eq_ok.mp hobject
  have harguments : appendRegisterArguments strings object 0 (Writer.initAppend []) =
      .ok (Writer.initAppend [.objectPath objectPath, .array "{sv}".toList []]) := by
    have hwrites : Writes (appendField strings .objectPath object) (.objectPath objectPath) :=
      appendField_writes hpoints
    rw [appendRegisterArguments, hwrites.ok hvalid (Writer.zero_eq_depth _)]
    rfl
  rw [bluezRegisterRequest, hcontroller, ok_bind, harguments]
  cases created <;> rfl

/-- What is requested carries two paths the library takes. -/
theorem bluezRegisterRequest_some {strings : Heap CStr} {controller object : Ptr CStr}
    {interface method : CStr} {created : Bool} {message : Message}
    (h : bluezRegisterRequest strings controller interface method object created =
      .ok (some message)) :
    ∃ controllerPath objectPath,
      message = bluezRegisterMessage controllerPath interface method objectPath := by
  obtain ⟨controllerPath, -, h⟩ := bind_eq_ok.mp h
  cases created with
  | false => cases h
  | true =>
    obtain ⟨w, harguments, h⟩ := bind_eq_ok.mp h
    obtain ⟨w₁, happend, harguments⟩ := bind_eq_ok.mp harguments
    obtain ⟨objectPath, -, happend⟩ := bind_eq_ok.mp happend
    rw [Writer.appendBasic_eq (Writer.zero_eq_depth _), Writer.append] at happend
    split_ifs at happend
    cases happend
    cases harguments
    cases h
    exact ⟨controllerPath, objectPath, rfl⟩

/-- `on_register_advert_reply`: an error is only logged. -/
def onRegisterAdvertReply (d : ℕ) (success : Bool) (σ : State) : Outcome State := do
  let _ ← σ.device d
  if success then
    .ok { σ with devices := σ.devices.modify d fun x =>
      { x with advertisement.registered := true } }
  else .ok σ

end BleSim
