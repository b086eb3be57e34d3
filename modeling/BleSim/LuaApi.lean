import BleSim.System

/-!
# The functions a script can call (`lua_interface.c`)

The functions of the table `ble`, the methods of the four kinds of userdata and their `__gc`
functions, each with the checks it makes of its arguments before it does anything. What a script
calls and with which arguments is up to the script.
-/

namespace BleSim

open Outcomes WriteOnce Decimal

/-! ## Arguments -/

/-- A value a script hands over: userdata with a metatable of the simulator, or any other. -/
inductive ScriptValue where
  | userdata (object : Obj)
  | value (v : LuaValue)

/-- What the functions for values show of it. -/
def ScriptValue.toLua : ScriptValue → LuaValue
  | userdata _ => .other
  | value v => v

/-- `lua_toboolean`. -/
def ScriptValue.toBoolean : ScriptValue → Bool
  | value .nil => false
  | value (.boolean b) => b
  | _ => true

/-- `lua_tostring` on a string, as far as a C string goes. -/
def cString (bytes : Bytes) : CStr := (bytes.takeWhile (· ≠ 0)).map fun b => Char.ofNat b.toNat

/-- The argument with an index, which is nil beyond the last one. -/
def argument (args : List ScriptValue) (index : ℕ) : ScriptValue :=
  args.getD (index - 1) (.value .nil)

/-- The errors the functions raise, by the function of the Lua library that raises them. -/
inductive ApiError where
  /-- `luaL_error` -/
  | message (text : CStr)
  /-- `luaL_argerror` -/
  | argument (index : ℤ) (message : CStr)
  /-- `luaL_checkudata`, which names the expected type -/
  | userdata (index : ℕ) (typeName : CStr)
deriving DecidableEq

def luaUserdataDevice : CStr := "device".toList
def luaUserdataService : CStr := "service".toList
def luaUserdataCharacteristic : CStr := "characteristic".toList
def luaUserdataDescriptor : CStr := "descriptor".toList

/-! ## Checks -/

/-- `luai_check_argument_count`. -/
def luaiCheckArgumentCount (args : List ScriptValue) (expectedArgumentCount : ℕ) :
    Except ApiError Unit :=
  if args.length ≠ expectedArgumentCount then
    .error (.message ("Expected ".toList ++ decimal expectedArgumentCount ++
      " arguments to function".toList))
  else .ok ()

/-- `luai_check_type` for `LUA_TSTRING`, with the string. -/
def luaiCheckTypeString (args : List ScriptValue) (index : ℕ) : Except ApiError CStr :=
  match argument args index with
  | .value (.string bytes) => .ok (cString bytes)
  | _ => .error (.argument index [])

/-- `luai_check_argument_userdata`: `luaL_checkudata` never returns `NULL`. -/
def luaiCheckArgumentUserdata (args : List ScriptValue) (index : ℕ) (metadataTableName : CStr)
    (position : Obj → Option ℕ) : Except ApiError ℕ :=
  match argument args index with
  | .userdata object =>
    match position object with
    | some i => .ok i
    | none => .error (.userdata index metadataTableName)
  | .value _ => .error (.userdata index metadataTableName)

def Obj.device? : Obj → Option ℕ
  | device d => some d
  | _ => none

def Obj.service? : Obj → Option ℕ
  | service s => some s
  | _ => none

def Obj.characteristic? : Obj → Option ℕ
  | characteristic c => some c
  | _ => none

def Obj.descriptor? : Obj → Option ℕ
  | descriptor k => some k
  | _ => none

def luaiCheckArgumentDevice (args : List ScriptValue) (index : ℕ) : Except ApiError ℕ :=
  luaiCheckArgumentUserdata args index luaUserdataDevice Obj.device?

def luaiCheckArgumentService (args : List ScriptValue) (index : ℕ) : Except ApiError ℕ :=
  luaiCheckArgumentUserdata args index luaUserdataService Obj.service?

def luaiCheckArgumentCharacteristic (args : List ScriptValue) (index : ℕ) : Except ApiError ℕ :=
  luaiCheckArgumentUserdata args index luaUserdataCharacteristic Obj.characteristic?

def luaiCheckArgumentDescriptor (args : List ScriptValue) (index : ℕ) : Except ApiError ℕ :=
  luaiCheckArgumentUserdata args index luaUserdataDescriptor Obj.descriptor?

/-! ## The functions -/

/-- What a call meets outside the process. -/
structure ApiEnv where
  accepts : Accepts
  register : RegisterEnv
  property : PropertyEnv

/-- What a call comes to: the values it returns or the error it raises. -/
abbrev ApiCall := Outcome (Except ApiError (List ScriptValue) × State)

/-- A function that checks its arguments before anything else. -/
def guarded {α : Type} (checks : Except ApiError α) (body : α → State → ApiCall) (σ : State) :
    ApiCall :=
  match checks with
  | .error e => .ok (.error e, σ)
  | .ok a => body a σ

/-- A function that returns a boolean. -/
def returnsBoolean (result : Outcome (Bool × State)) : ApiCall := do
  let (success, σ) ← result
  .ok (.ok [.value (.boolean success)], σ)

/-- A function that returns nothing. -/
def returnsNothing (result : Outcome State) : ApiCall := do
  let σ ← result
  .ok (.ok [], σ)

namespace Api

/-- The common body of the functions that create an object. -/
def luaiCreate (create : CStr → State → ℕ × State) (object : ℕ → Obj) (args : List ScriptValue)
    (σ : State) : ApiCall :=
  guarded (do
    luaiCheckArgumentCount args 1
    luaiCheckTypeString args 1) (fun text σ =>
    let (i, σ) := create text σ
    .ok (.ok [.userdata (object i)], σ)) σ

/-- `luai_create_device`. -/
def luaiCreateDevice : List ScriptValue → State → ApiCall :=
  luaiCreate BleSim.luaiCreateDevice .device

/-- `luai_create_service`. -/
def luaiCreateService : List ScriptValue → State → ApiCall :=
  luaiCreate BleSim.luaiCreateService .service

/-- `luai_create_characteristic`. -/
def luaiCreateCharacteristic : List ScriptValue → State → ApiCall :=
  luaiCreate BleSim.luaiCreateCharacteristic .characteristic

/-- `luai_create_descriptor`. -/
def luaiCreateDescriptor : List ScriptValue → State → ApiCall :=
  luaiCreate BleSim.luaiCreateDescriptor .descriptor

/-- `luai_register_device`. -/
def luaiRegisterDevice (env : ApiEnv) (args : List ScriptValue) (σ : State) : ApiCall :=
  guarded (do
    luaiCheckArgumentCount args 1
    luaiCheckArgumentDevice args 1) (fun d σ =>
    returnsBoolean (deviceRegister env.register d σ)) σ

/-- `luai_device_add_service`. -/
def luaiDeviceAddService (env : ApiEnv) (args : List ScriptValue) (σ : State) : ApiCall :=
  guarded (do
    luaiCheckArgumentCount args 2
    let d ← luaiCheckArgumentDevice args 1
    let s ← luaiCheckArgumentService args 2
    .ok (d, s)) (fun r σ => returnsBoolean (deviceAddService env.accepts r.1 r.2 σ)) σ

/-- `luai_device_set_powered`. -/
def luaiDeviceSetPowered (env : ApiEnv) (args : List ScriptValue) (σ : State) : ApiCall :=
  guarded (do
    luaiCheckArgumentCount args 2
    luaiCheckArgumentDevice args 1) (fun d σ =>
    returnsBoolean (deviceSetPowered env.property d (argument args 2).toBoolean σ)) σ

/-- `luai_device_set_discoverable`. -/
def luaiDeviceSetDiscoverable (env : ApiEnv) (args : List ScriptValue) (σ : State) : ApiCall :=
  guarded (do
    luaiCheckArgumentCount args 2
    luaiCheckArgumentDevice args 1) (fun d σ =>
    returnsBoolean (deviceSetDiscoverable env.property d (argument args 2).toBoolean σ)) σ

/-- `luai_device_free`. -/
def luaiDeviceFree (args : List ScriptValue) (σ : State) : ApiCall :=
  guarded (luaiCheckArgumentDevice args 1) (fun d σ => returnsNothing (deviceFini d σ)) σ

/-- `luai_service_add_characteristic`. -/
def luaiServiceAddCharacteristic (env : ApiEnv) (args : List ScriptValue) (σ : State) : ApiCall :=
  guarded (do
    luaiCheckArgumentCount args 2
    let s ← luaiCheckArgumentService args 1
    let c ← luaiCheckArgumentCharacteristic args 2
    .ok (s, c)) (fun r σ => returnsBoolean (serviceAddCharacteristic env.accepts r.1 r.2 σ)) σ

/-- `luai_service_free`. -/
def luaiServiceFree (args : List ScriptValue) (σ : State) : ApiCall :=
  guarded (luaiCheckArgumentService args 1) (fun s σ => returnsNothing (serviceFini s σ)) σ

/-- `luai_characteristic_add_descriptor`. -/
def luaiCharacteristicAddDescriptor (env : ApiEnv) (args : List ScriptValue) (σ : State) :
    ApiCall :=
  guarded (do
    luaiCheckArgumentCount args 2
    let c ← luaiCheckArgumentCharacteristic args 1
    let k ← luaiCheckArgumentDescriptor args 2
    .ok (c, k)) (fun r σ =>
    returnsBoolean (characteristicAddDescriptor env.accepts r.1 r.2 σ)) σ

/-- `luai_characteristic_set_notifying`. -/
def luaiCharacteristicSetNotifying (args : List ScriptValue) (σ : State) : ApiCall :=
  guarded (do
    luaiCheckArgumentCount args 2
    luaiCheckArgumentCharacteristic args 1) (fun c σ =>
    returnsNothing (characteristicSetNotifying c (argument args 2).toBoolean σ)) σ

/-- `luai_characteristic_free`. -/
def luaiCharacteristicFree (args : List ScriptValue) (σ : State) : ApiCall :=
  guarded (luaiCheckArgumentCharacteristic args 1)
    (fun c σ => returnsNothing (characteristicFini c σ)) σ

/-- The error the converters raise for a number, in a table with the index of the top of the
stack. -/
def numberError (index : ℤ) : ApiError :=
  .argument index "Argument type must match specified data type".toList

/-- The error at the first item of a table that raises one. A number does where the type is the only
one of the others that has a size. -/
def itemError (type : UInt32) : List LuaValue → ApiError
  | .table _ :: _ => .argument 2 "Argument type cannot be an array of arrays".toList
  | .integer _ :: items | .float _ :: items =>
    if type = BleDataType.bool.code then numberError (-1) else itemError type items
  | _ :: items => itemError type items
  | [] => numberError (-1)

/-- Which error `setValue` raises when it raises one. -/
def setValueError (v t : LuaValue) : ApiError :=
  match t with
  | .integer _ | .float _ =>
    match luaiCheckTypeBleDataType t with
    | .raise => .argument 3 "Argument must be a validDataType enum: ".toList
    | .ret type =>
      match v with
      | .table items =>
        if type = BleDataType.string.code then
          .argument 2 "Argument type cannot be an array of strings".toList
        else itemError type items
      | _ => numberError 2
  | _ => .argument 3 []

/-- `luai_characteristic_set_value`. -/
def luaiCharacteristicSetValue (args : List ScriptValue) (σ : State) : ApiCall :=
  guarded (do
    luaiCheckArgumentCount args 3
    luaiCheckArgumentCharacteristic args 1) (fun c σ => do
    let v := (argument args 2).toLua
    let t := (argument args 3).toLua
    let (exit, σ) ← BleSim.luaiCharacteristicSetValue c v t σ
    match exit with
    | .raise => .ok (.error (setValueError v t), σ)
    | .ret success => .ok (.ok [.value (.boolean success)], σ)) σ

/-- `luai_descriptor_free`. -/
def luaiDescriptorFree (args : List ScriptValue) (σ : State) : ApiCall :=
  guarded (luaiCheckArgumentDescriptor args 1) (fun k σ => returnsNothing (descriptorFini k σ)) σ

end Api

/-! ## Calls -/

/-- The functions, by their names in the script. The last four are the `__gc` functions, which a
script reaches as well, as each metatable is its own `__index`. -/
inductive ApiFunction where
  | createDevice
  | createService
  | createCharacteristic
  | createDescriptor
  | registerDevice
  | addService
  | powered
  | discoverable
  | addCharacteristic
  | addDescriptor
  | notifying
  | setValue
  | freeDevice
  | freeService
  | freeCharacteristic
  | freeDescriptor
deriving DecidableEq

/-- Call a function. -/
def ApiFunction.call (env : ApiEnv) : ApiFunction → List ScriptValue → State → ApiCall
  | createDevice => Api.luaiCreateDevice
  | createService => Api.luaiCreateService
  | createCharacteristic => Api.luaiCreateCharacteristic
  | createDescriptor => Api.luaiCreateDescriptor
  | registerDevice => Api.luaiRegisterDevice env
  | addService => Api.luaiDeviceAddService env
  | powered => Api.luaiDeviceSetPowered env
  | discoverable => Api.luaiDeviceSetDiscoverable env
  | addCharacteristic => Api.luaiServiceAddCharacteristic env
  | addDescriptor => Api.luaiCharacteristicAddDescriptor env
  | notifying => Api.luaiCharacteristicSetNotifying
  | setValue => Api.luaiCharacteristicSetValue
  | freeDevice => Api.luaiDeviceFree
  | freeService => Api.luaiServiceFree
  | freeCharacteristic => Api.luaiCharacteristicFree
  | freeDescriptor => Api.luaiDescriptorFree

end BleSim
