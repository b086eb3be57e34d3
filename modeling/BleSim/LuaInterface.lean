import BleSim.Device
import BleSim.Lib.Binary64

/-!
# The script interface (`lua_interface.c`)

Lua values as the C API shows them, the conversion of numbers, booleans and arrays to the bytes
of a characteristic value, and the API functions that create objects.
-/

namespace BleSim

open Outcomes WriteOnce DBusValue

/-! ## Lua values -/

/-- A Lua value. A table stands for what `lua_rawlen` and `lua_gettable` show of it: its items at
`1`, …, `lua_rawlen`, some of which may be nil. A float is given by its bits. -/
inductive LuaValue where
  | nil
  | boolean (b : Bool)
  | integer (i : Int64)
  | float (bits : UInt64)
  | string (bytes : Bytes)
  | table (items : List LuaValue)
  | other

/-- How an API call ends: it returns, or it raises a Lua error and does not return. -/
inductive LuaExit (α : Type) where
  | ret (a : α)
  | raise
deriving DecidableEq

/-- `lua_tointeger` on a number: 0 for a float that is not an integer in the 64-bit range. -/
def luaToInteger : LuaValue → Int64
  | .integer i => i
  | .float bits =>
    match Binary64.toInt? bits with
    | some z => if -2 ^ 63 ≤ z ∧ z < 2 ^ 63 then Int64.ofInt z else 0
    | none => 0
  | _ => 0

/-- `lua_tonumber` on a number, as the bits of the result. -/
def luaToNumber : LuaValue → UInt64
  | .integer i => i.toFloat.toBits
  | .float bits => bits
  | _ => 0

/-- The cast from `double` to `float`, on bits. A NaN becomes the quiet one with its sign and the
upper bits of its payload, as the conversion instructions of x86 and ARM have it. -/
def castToFloat (bits : UInt64) : UInt32 :=
  if Binary64.isNaN bits then
    (if Binary64.negative bits then 0xFFC00000 else 0x7FC00000) |||
      UInt32.ofNat (Binary64.fraction bits / 2 ^ 29)
  else (Float.ofBits bits).toFloat32.toBits

-- 0.0 / 0.0 as x86 computes it, and a signalling NaN with a payload
example : castToFloat 0xFFF8000000000000 = 0xFFC00000 := by decide
example : castToFloat 0x7FF4000000000000 = 0x7FE00000 := by decide

/-! ## Conversion of a value -/

/-- What a converter hands out through `data` and `data_size`. -/
structure Converted where
  data : Ptr Bytes
  dataSize : ℕ

/-- What a converter comes to: `ret none` is a return of `false`. -/
abbrev Conversion := Outcome (LuaExit (Option Converted) × Heap Bytes)

/-- The pattern of every case of the converters: allocate a block, report the size of `val` and
copy `val` into the block. -/
def mallocAndCopy (allocated : ℕ) (val : Bytes) (buffers : Heap Bytes) : Conversion :=
  let (data, buffers) := buffers.tryAlloc val
  if data = .null then .ok (.ret none, buffers)
  else if val.length ≤ allocated then
    .ok (.ret (some { data, dataSize := val.length }), buffers)
  else .error .outOfBlock

/-- `luai_lua_number_to_opc_ua_data_type`. The block for `BLE_INT32` has the size of an
`int8_t`. -/
def luaiLuaNumberToOpcUaDataType (v : LuaValue) (type : UInt32) (buffers : Heap Bytes) :
    Conversion :=
  let integer := (luaToInteger v).toUInt64.toNat
  match BleDataType.ofCode type with
  | some .int8 => mallocAndCopy 1 (leBytes 1 integer) buffers
  | some .uint8 => mallocAndCopy 1 (leBytes 1 integer) buffers
  | some .int16 => mallocAndCopy 2 (leBytes 2 integer) buffers
  | some .uint16 => mallocAndCopy 2 (leBytes 2 integer) buffers
  | some .int32 => mallocAndCopy 1 (leBytes 4 integer) buffers
  | some .uint32 => mallocAndCopy 4 (leBytes 4 integer) buffers
  | some .int64 => mallocAndCopy 8 (leBytes 8 integer) buffers
  | some .uint64 => mallocAndCopy 8 (leBytes 8 integer) buffers
  | some .float => mallocAndCopy 4 (leBytes 4 (castToFloat (luaToNumber v)).toNat) buffers
  | some .double => mallocAndCopy 8 (leBytes 8 (luaToNumber v).toNat) buffers
  | _ => .ok (.raise, buffers)

/-- `luai_lua_data_arg_to_ble_data_type`. The case of strings has no `break` and runs on into
`default`. -/
def luaiLuaDataArgToBleDataType (v : LuaValue) (type : UInt32) (buffers : Heap Bytes) :
    Conversion :=
  match v with
  | .boolean b =>
    if type ≠ BleDataType.bool.code then .ok (.ret none, buffers)
    else mallocAndCopy 1 [b.toUInt8] buffers
  | .integer _ | .float _ => luaiLuaNumberToOpcUaDataType v type buffers
  | .string s =>
    let (_data, buffers) := buffers.tryAlloc (s.takeWhile (· ≠ 0))
    .ok (.ret none, buffers)
  | _ => .ok (.ret none, buffers)

/-! ## Conversion of an array -/

/-- The loop of `luai_get_array`, on the items that are left: `stored` is what the items before
them put into `buf`. It ends with the bytes stored and their number of items. -/
def luaiGetArrayItems (type : UInt32) (typeSize capacity : ℕ) (buf : Ptr Bytes) :
    List LuaValue → ℕ → Bytes → Heap Bytes →
      Outcome (LuaExit (Option (ℕ × Bytes)) × Heap Bytes)
  | [], count, stored, buffers => .ok (.ret (some (count, stored)), buffers)
  | .nil :: _, count, stored, buffers => .ok (.ret (some (count, stored)), buffers)
  | .table _ :: _, _, _, buffers => .ok (.raise, buffers)
  | item :: rest, count, stored, buffers => do
    let (exit, buffers) ← luaiLuaDataArgToBleDataType item type buffers
    match exit with
    | .raise => .ok (.raise, buffers)
    | .ret none => .ok (.ret none, buffers.free buf)
    | .ret (some { data, dataSize }) =>
      if dataSize ≠ typeSize then .ok (.ret none, buffers.free buf)
      else if count * typeSize + typeSize ≤ capacity then
        luaiGetArrayItems type typeSize capacity buf rest (count + 1)
          (stored ++ (buffers.read data).take typeSize) (buffers.free data)
      else .error .outOfBlock

/-- `luai_get_array`. -/
def luaiGetArray (items : List LuaValue) (type : UInt32) (buffers : Heap Bytes) : Conversion :=
  if items.length = 0 then .ok (.ret none, buffers)
  else if type = BleDataType.string.code then .ok (.raise, buffers)
  else
    match bleDataTypeSize[type.toNat]? with
    | none => .error .outOfBlock
    | some typeSize => do
      let (buf, buffers) := buffers.tryAlloc []
      if buf = .null then .ok (.ret none, buffers)
      else
        let (exit, buffers) ←
          luaiGetArrayItems type typeSize (items.length * typeSize) buf items 0 [] buffers
        match exit with
        | .raise => .ok (.raise, buffers)
        | .ret none => .ok (.ret none, buffers)
        | .ret (some (count, stored)) =>
          .ok (.ret (some { data := buf.fill stored, dataSize := count * typeSize }), buffers)

/-! ## `setValue` -/

/-- `luai_check_type_ble_data_type`: the check is made on the low 8 bits. -/
def luaiCheckTypeBleDataType (t : LuaValue) : LuaExit UInt32 :=
  match t with
  | .integer _ | .float _ =>
    let integer := luaToInteger t
    if integer.toUInt64.toUInt8.toUInt32 ≤ BleDataType.string.code then
      .ret integer.toUInt64.toUInt32
    else .raise
  | _ => .raise

/-- The converter `luai_characteristic_set_value` uses: tables go to `luai_get_array`. -/
def luaiConvert (v : LuaValue) (type : UInt32) (buffers : Heap Bytes) : Conversion :=
  match v with
  | .table items => luaiGetArray items type buffers
  | v => luaiLuaDataArgToBleDataType v type buffers

/-- `luai_characteristic_set_value` on a characteristic, a value and a data type. -/
def luaiCharacteristicSetValue (c : ℕ) (v t : LuaValue) (σ : State) :
    Outcome (LuaExit Bool × State) := do
  match luaiCheckTypeBleDataType t with
  | .raise => .ok (.raise, σ)
  | .ret type =>
    let (exit, buffers) ← luaiConvert v type σ.buffers
    let σ := { σ with buffers }
    match exit with
    | .raise => .ok (.raise, σ)
    | .ret none => .ok (.ret false, σ)
    | .ret (some { data, dataSize }) =>
      let σ ← characteristicUpdateValue c (σ.buffers.read data) dataSize σ
      .ok (.ret true, { σ with buffers := σ.buffers.free data })

/-! ## Creating objects -/

/-- `luai_create_device`. -/
def luaiCreateDevice (deviceName : CStr) (σ : State) : ℕ × State :=
  let (device, strings) := deviceInit σ.strings σ.deviceCount deviceName .lua
  (σ.devices.length, { σ with
    strings
    devices := σ.devices ++ [device]
    deviceCount := σ.deviceCount + 1 })

/-- `luai_create_service`. -/
def luaiCreateService (uuid : CStr) (σ : State) : ℕ × State :=
  let (service, strings) := serviceInit σ.strings uuid true .lua
  (σ.services.length, { σ with
    strings
    services := σ.services ++ [service] })

/-- `luai_create_characteristic`. -/
def luaiCreateCharacteristic (uuid : CStr) (σ : State) : ℕ × State :=
  let (characteristic, strings) := characteristicInit σ.strings uuid .lua
  (σ.characteristics.length, { σ with
    strings
    characteristics := σ.characteristics ++ [characteristic] })

/-- `luai_create_descriptor`. -/
def luaiCreateDescriptor (uuid : CStr) (σ : State) : ℕ × State :=
  let (descriptor, strings) := descriptorInit σ.strings uuid .lua
  (σ.descriptors.length, { σ with
    strings
    descriptors := σ.descriptors ++ [descriptor] })

end BleSim
