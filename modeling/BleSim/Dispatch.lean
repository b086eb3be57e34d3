import BleSim.Device

/-!
# Message dispatch (`dbusutils.c`)

`dbusutils_object_handle_message` and the functions it selects. They work on the request as
well as on the state: the `Get` handler writes into it, so it is returned with the result.
-/

namespace BleSim

open Outcomes

/-- `DBusHandlerResult`. -/
inductive HandlerResult where
  | handled
  | notYetHandled
deriving DecidableEq, Repr

/-- `object_data_t`: the tables an object was registered with, applied to the object. -/
structure ObjectData where
  properties : List Property
  methods : List Method

/-- The tables of the registered objects. A device has no property table, and services and
descriptors have empty method tables. -/
def objectData (σ : State) : Obj → ObjectData
  | .device d => ⟨[], deviceMethods d⟩
  | .advertisement d =>
    ⟨advertisementProperties σ (Device.advertisement <$> σ.device d), advertisementMethods⟩
  | .service s => ⟨serviceProperties σ (σ.service s), []⟩
  | .characteristic c =>
    ⟨characteristicProperties σ (σ.characteristic c), characteristicMethods c⟩
  | .descriptor k => ⟨descriptorProperties σ (σ.descriptor k), []⟩

/-! ## The `Properties` interface -/

/-- `dbusutils_object_get_all`. -/
def dbusutilsObjectGetAll (bus : Connection) (message : Message) (object : ObjectData) :
    Outcome (Option Message) := do
  match dbusMessageNewMethodReturn bus message with
  | none => .ok none
  | some reply =>
    let w ← dbusutilsGetObjectPropertyData object.properties 0 (Writer.initAppend reply.body)
    .ok (some { reply with body := w.body })

/-- `get_property_name_from_properties_get_message`: the second of two string arguments. -/
def getPropertyNameFromPropertiesGetMessage (message : Message) : Option CStr :=
  if message.signature ≠ ['s', 's'] then none
  else
    match message.body with
    | [_, .string name] => some name
    | _ => none

/-- `dbusutils_object_get`. The iterator is initialised on the request, not on the reply. -/
def dbusutilsObjectGet (bus : Connection) (message : Message) (object : ObjectData) :
    Outcome (Option Message × Message) := do
  match getPropertyNameFromPropertiesGetMessage message with
  | none => .ok (none, message)
  | some propertyName =>
    match dbusMessageNewMethodReturn bus message with
    | none => .ok (none, message)
    | some reply =>
      let w := Writer.initAppend message.body
      match object.properties.find? fun property => property.name = propertyName with
      | none => .ok (some reply, message)
      | some property =>
        let (variant, w) ← w.openContainer 0 (.variant property.signature)
        let w ← property.get variant w
        let w ← w.closeContainer 0 variant
        .ok (some reply, { message with body := w.body })

/-- `dbusutils_object_set`. -/
def dbusutilsObjectSet (_message : Message) : Option Message := none

/-- Send a reply, if there is one. -/
def sendReply (reply : Option Message) (σ : State) : State :=
  match reply with
  | none => σ
  | some reply => { σ with bus := dbusConnectionSend σ.bus reply }

/-- `handle_properties_interface`: whatever the three functions come to, the message counts as
handled. -/
def handlePropertiesInterface (message : Message) (object : ObjectData) (σ : State) :
    Outcome (HandlerResult × Message × State) := do
  if message.isMethodCall dbusInterfaceProperties dbusMethodGet then
    let (reply, message) ← dbusutilsObjectGet σ.bus message object
    .ok (.handled, message, sendReply reply σ)
  else if message.isMethodCall dbusInterfaceProperties dbusMethodSet then
    .ok (.handled, message, sendReply (dbusutilsObjectSet message) σ)
  else if message.isMethodCall dbusInterfaceProperties dbusMethodGetAll then
    let reply ← dbusutilsObjectGetAll σ.bus message object
    .ok (.handled, message, sendReply reply σ)
  else .ok (.notYetHandled, message, σ)

/-! ## Method tables -/

/-- `handle_method_call`: the first row that matches the message is called. -/
def handleMethodCall (message : Message) (object : ObjectData) (σ : State) :
    Outcome (HandlerResult × Message × State) := do
  match object.methods.find? fun method => message.isMethodCall method.interface method.method with
  | none => .ok (.notYetHandled, message, σ)
  | some method =>
    let (reply, σ) ← method.call message σ
    match reply with
    | none => .ok (.notYetHandled, message, σ)
    | some reply => .ok (.handled, message, sendReply (some reply) σ)

/-- `dbusutils_object_handle_message`: `strcmp` needs the interface field to be there. -/
def dbusutilsObjectHandleMessage (object : Obj) (message : Message) (σ : State) :
    Outcome (HandlerResult × Message × State) :=
  let data := objectData σ object
  match message.interface with
  | none => .error .nullPointer
  | some interface =>
    if interface = dbusInterfaceProperties then handlePropertiesInterface message data σ
    else handleMethodCall message data σ

end BleSim
