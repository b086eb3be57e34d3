import BleSim.Descriptor
import BleSim.Siblings

/-!
# Characteristics (`characteristic.c`)
-/

namespace BleSim

open Outcomes WriteOnce Intrusive

/-! ## Life of a characteristic -/

/-- `characteristic_init`. -/
def characteristicInit (strings : Heap CStr) (uuid : CStr) (origin : Origin) :
    Characteristic × Heap CStr :=
  let (uuid, strings) := strings.alloc uuid
  ({ node :=
      { uuid
        parentPath := .null
        objectPath := .null
        origin
        next := none }
     value := .null
     valueSize := 0
     notifying := false
     flags := characteristicFlagsAllEnabled
     descriptors := { head := none, count := 0 } }, strings)

/-- `characteristic_fini`: only a characteristic made in C frees its descriptors. -/
def characteristicFini (c : ℕ) (σ : State) : Outcome State := do
  let x ← σ.characteristic c
  let σ := { σ with
    strings := ((σ.strings.free x.node.uuid).free x.node.parentPath).free x.node.objectPath
    buffers := σ.buffers.free x.value
    finalised := .characteristic c :: σ.finalised }
  if x.node.origin = .c then
    loop .divergence
      (fun k σ => do
        let y ← σ.descriptor k
        let σ ← descriptorFree k σ
        .ok (y.node.next, { σ with
          characteristics := σ.characteristics.modify c fun x =>
            { x with descriptors.head := y.node.next } }))
      σ.descriptors.length x.descriptors.head σ
  else .ok σ

/-- `characteristic_free`. -/
def characteristicFree (c : ℕ) (σ : State) : Outcome State := do
  let σ ← characteristicFini c σ
  .ok { σ with freedStructs := .characteristic c :: σ.freedStructs }

/-! ## Descriptors of a characteristic -/

/-- `characteristic_get_descriptor`. -/
def characteristicGetDescriptor (c : ℕ) (uuid : CStr) (σ : State) : Outcome (Option ℕ) := do
  let x ← σ.characteristic c
  getChild .descriptor x.descriptors uuid σ

/-- `characteristic_add_descriptor`. -/
def characteristicAddDescriptor (accepts : Accepts) (c k : ℕ) (σ : State) :
    Outcome (Bool × State) := do
  let x ← σ.characteristic c
  let y ← σ.descriptor k
  if x.node.objectPath = .null then .ok (false, σ)
  else addChild .descriptor accepts c x.node.objectPath x.descriptors k y.node σ

/-! ## Property getters -/

def characteristicGetUuid (σ : State) (x : Characteristic) : Iter → Writer → Outcome Writer :=
  appendField σ.strings .string x.node.uuid

def characteristicGetService (σ : State) (x : Characteristic) :
    Iter → Writer → Outcome Writer :=
  appendField σ.strings .objectPath x.node.parentPath

def characteristicGetFlags (x : Characteristic) : Iter → Writer → Outcome Writer :=
  appendFlags characteristicFlags x.flags

def characteristicGetValue (σ : State) (x : Characteristic) : Iter → Writer → Outcome Writer :=
  appendValue (σ.buffers.read x.value) x.valueSize

/-- `characteristic_properties`. -/
def characteristicProperties (σ : State) (object : Outcome Characteristic) : List Property :=
  [⟨blePropertyUuid, ['s'], getFromObject object (characteristicGetUuid σ)⟩,
    ⟨blePropertyService, ['o'], getFromObject object (characteristicGetService σ)⟩,
    ⟨blePropertyFlags, ['a', 's'], getFromObject object characteristicGetFlags⟩,
    ⟨blePropertyValue, ['a', 'y'], getFromObject object (characteristicGetValue σ)⟩]

/-- `characteristic_get_object`. -/
def characteristicGetObject (σ : State) (x : Characteristic) : Iter → Writer → Outcome Writer :=
  dbusutilsGetObjectData σ.strings (characteristicProperties σ (.ok x)) x.node.objectPath
    bluezGattCharacteristicInterface

/-! ## The value -/

/-- `is_new_value`: compares the lengths, then the bytes with `memcmp`. -/
def isNewValue (σ : State) (x : Characteristic) (newValue : Bytes) (valueSize : UInt32) : Bool :=
  x.valueSize != valueSize ||
    newValue.take valueSize.toNat != (σ.buffers.read x.value).take valueSize.toNat

/-- `characteristic_set_value`: `newValue` is what the caller's pointer addresses, none for NULL.
The old buffer is gone before the new one is allocated. -/
def characteristicSetValue (c : ℕ) (newValue : Option Bytes) (valueSize : UInt32) (σ : State) :
    Outcome State := do
  let x ← σ.characteristic c
  match newValue with
  | none => .ok σ
  | some data =>
    let buffers := σ.buffers.free x.value
    let (value, buffers) := buffers.tryAlloc (data.take valueSize.toNat)
    if value = .null then
      .ok { σ with
        buffers
        characteristics := σ.characteristics.modify c fun x =>
          { x with value := .null, valueSize := 0 } }
    else if valueSize.toNat ≤ data.length then
      .ok { σ with
        buffers
        characteristics := σ.characteristics.modify c fun x => { x with value, valueSize } }
    else .error .outOfBlock

/-- `characteristic_update_value`: the length arrives as a `size_t` and is narrowed to 32 bits. -/
def characteristicUpdateValue (c : ℕ) (newValue : Bytes) (dataSize : ℕ) (σ : State) :
    Outcome State := do
  let valueSize := UInt32.ofNat dataSize
  let x ← σ.characteristic c
  if !isNewValue σ x newValue valueSize then .ok σ
  else
    let σ ← characteristicSetValue c (some newValue) valueSize σ
    let x ← σ.characteristic c
    if x.notifying then
      let bus ← dbusutilsSendObjectPropertiesChangedSignal σ.strings x.node.objectPath
        bluezGattCharacteristicInterface
        [⟨blePropertyValue, ['a', 'y'], characteristicGetValue σ x⟩] σ.bus
      .ok { σ with bus }
    else .ok σ

/-- `characteristic_set_notifying`. -/
def characteristicSetNotifying (c : ℕ) (notifying : Bool) (σ : State) : Outcome State := do
  let _ ← σ.characteristic c
  .ok { σ with characteristics := σ.characteristics.modify c fun x => { x with notifying } }

/-! ## Methods -/

/-- What a method handler comes to: the reply, if there is one, and the state. -/
abbrev Handled := Outcome (Option Message × State)

/-- `characteristic_read_value`. -/
def characteristicReadValue (c : ℕ) (message : Message) (σ : State) : Handled := do
  match dbusMessageNewMethodReturn σ.bus message with
  | none => .ok (none, σ)
  | some reply =>
    let x ← σ.characteristic c
    let w ← characteristicGetValue σ x 0 (Writer.initAppend reply.body)
    .ok (some { reply with body := w.body }, σ)

/-- `characteristic_write_value`. -/
def characteristicWriteValue (c : ℕ) (message : Message) (σ : State) : Handled := do
  let array ← message.recurseFirst
  let (newValue, elementCount) ← array.getFixedArray
  if newValue.isNone ∨ elementCount < 0 then .ok (none, σ)
  else
    let σ ← characteristicSetValue c newValue (UInt32.ofNat elementCount.toNat) σ
    .ok (dbusMessageNewMethodReturn σ.bus message, σ)

/-- `characteristic_start_notify`. -/
def characteristicStartNotify (c : ℕ) (message : Message) (σ : State) : Handled := do
  let σ ← characteristicSetNotifying c true σ
  .ok (dbusMessageNewMethodReturn σ.bus message, σ)

/-- `characteristic_stop_notify`. -/
def characteristicStopNotify (c : ℕ) (message : Message) (σ : State) : Handled := do
  let σ ← characteristicSetNotifying c false σ
  .ok (dbusMessageNewMethodReturn σ.bus message, σ)

/-- A row of a method table, `dbus_method_t`, with its function applied to the object. -/
structure Method where
  interface : CStr
  method : CStr
  call : Message → State → Handled

/-- `characteristic_methods`. -/
def characteristicMethods (c : ℕ) : List Method :=
  [⟨bluezGattCharacteristicInterface, bluezMethodReadValue, characteristicReadValue c⟩,
    ⟨bluezGattCharacteristicInterface, bluezMethodWriteValue, characteristicWriteValue c⟩,
    ⟨bluezGattCharacteristicInterface, bluezMethodStartNotify, characteristicStartNotify c⟩,
    ⟨bluezGattCharacteristicInterface, bluezMethodStopNotify, characteristicStopNotify c⟩]

end BleSim
