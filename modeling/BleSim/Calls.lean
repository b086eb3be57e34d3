import BleSim.Presentation

/-!
# Calls of methods

Which handler a method call reaches, and what the methods of a characteristic do to its value.
-/

namespace BleSim

open Outcomes WriteOnce DBusValue

/-! ## Well-typed messages -/

def FixedType.size : FixedType → ℕ
  | .int16 => 2
  | .int32 => 4
  | .int64 | .uint64 | .double => 8

/-- Values as the library hands them over: the items of an array have its element type. -/
inductive DBusValue.WellTyped : DBusValue → Prop
  | byte (b : UInt8) : WellTyped (.byte b)
  | boolean (b : Bool) : WellTyped (.boolean b)
  | uint16 (n : UInt16) : WellTyped (.uint16 n)
  | uint32 (n : UInt32) : WellTyped (.uint32 n)
  | fixed {type : FixedType} {storage : Bytes} : storage.length = type.size →
      WellTyped (.fixed type storage)
  | string (s : CStr) : WellTyped (.string s)
  | objectPath (s : CStr) : WellTyped (.objectPath s)
  | otherBasic (type : OtherBasicType) : WellTyped (.otherBasic type)
  | array {elem : Signature} {items : List DBusValue} : (∀ v ∈ items, v.signature = elem) →
      (∀ v ∈ items, WellTyped v) → WellTyped (.array elem items)
  | variant {sig : Signature} {value : DBusValue} : value.signature = sig → WellTyped value →
      WellTyped (.variant sig value)
  | dictEntry {key value : DBusValue} : WellTyped key → WellTyped value →
      WellTyped (.dictEntry key value)
  | struct (fields : Signature) : WellTyped (.struct fields)

def Message.WellTyped (m : Message) : Prop := ∀ v ∈ m.body, v.WellTyped

theorem DBusValue.WellTyped.byteArray (bytes : Bytes) : (DBusValue.byteArray bytes).WellTyped := by
  apply DBusValue.WellTyped.array
  · intro v hv
    obtain ⟨b, -, rfl⟩ := List.mem_map.mp hv
    rfl
  · intro v hv
    obtain ⟨b, -, rfl⟩ := List.mem_map.mp hv
    exact .byte b

theorem mem_of_isFixedSignature_cons {c : Char} {sig : Signature}
    (h : isFixedSignature (c :: sig) = true) : c ∈ "ybnqiuxtd".toList := by
  cases sig with
  | nil => simpa [isFixedSignature] using h
  | cons d sig => cases h

/-- A value of a fixed-size type takes up at least one byte. -/
theorem DBusValue.WellTyped.length_storage_pos {v : DBusValue} (h : v.WellTyped)
    (hfixed : isFixedSignature v.signature = true) : 0 < v.storage.length := by
  cases h with
  | @fixed type storage hlength =>
    rw [DBusValue.storage, hlength]
    cases type <;> decide
  | byte | boolean | uint16 | uint32 => simp [DBusValue.storage]
  | otherBasic type => cases type <;> exact absurd (mem_of_isFixedSignature_cons hfixed) (by decide)
  | _ => exact absurd (mem_of_isFixedSignature_cons hfixed) (by decide)

/-- The storage of an array is at least as long as the array. -/
theorem length_le_storage {elem : Signature} {items : List DBusValue}
    (h : (DBusValue.array elem items).WellTyped) (hfixed : isFixedSignature elem = true) :
    items.length ≤ (items.flatMap DBusValue.storage).length := by
  obtain ⟨hsignature, htyped⟩ : (∀ v ∈ items, v.signature = elem) ∧ ∀ v ∈ items, v.WellTyped := by
    cases h with
    | array hsignature htyped => exact ⟨hsignature, htyped⟩
  clear h
  induction items with
  | nil => exact Nat.le_refl 0
  | cons v items ih =>
    rw [List.forall_mem_cons] at hsignature htyped
    have hpos := htyped.1.length_storage_pos (by rw [hsignature.1]; exact hfixed)
    have htail := ih hsignature.2 htyped.2
    rw [List.flatMap_cons, List.length_append, List.length_cons]
    omega

/-! ## Which handler a call reaches -/

/-- A call of a method of the given interface. -/
structure Message.IsCall (m : Message) (interface : CStr) : Prop where
  type : m.type = .methodCall
  interface : m.interface = some interface

theorem Message.IsCall.isMethodCall_iff {m : Message} {interface : CStr} (h : m.IsCall interface)
    {i method : CStr} :
    m.isMethodCall i method = true ↔ m.member = some method ∧ interface = i := by
  simp [Message.isMethodCall, h.type, h.interface]

/-- The name is read from two string arguments, and from nothing else. -/
theorem getPropertyName_eq_some {m : Message} {name : CStr} :
    getPropertyNameFromPropertiesGetMessage m = some name ↔
      ∃ interface, m.body = [.string interface, .string name] := by
  have hstring : ∀ {v : DBusValue}, v.signature = ['s'] → ∃ s, v = .string s := by
    intro v hv
    cases v with
    | string s => exact ⟨s, rfl⟩
    | fixed type _ => cases type <;> simp [DBusValue.signature, FixedType.code] at hv
    | otherBasic type => cases type <;> simp [DBusValue.signature, OtherBasicType.code] at hv
    | _ => simp [DBusValue.signature] at hv
  constructor
  · intro h
    unfold getPropertyNameFromPropertiesGetMessage at h
    split_ifs at h with hsignature
    split at h
    · -- the second argument is a string, so by the signature the first one is one too
      rename_i v name' hbody
      cases h
      rw [not_not, Message.signature, hbody] at hsignature
      have hfirst : v.signature ++ ['s'] = ['s'] ++ ['s'] := by
        simpa [DBusValue.signature] using hsignature
      obtain ⟨interface, rfl⟩ := hstring (List.append_cancel_right hfirst)
      exact ⟨interface, hbody⟩
    · cases h
  · intro ⟨interface, hbody⟩
    have hsignature : m.signature = ['s', 's'] := by rw [Message.signature, hbody]; rfl
    simp only [getPropertyNameFromPropertiesGetMessage, hsignature, hbody, ne_eq, not_true_eq_false,
      ↓reduceIte]

section Handle

variable {σ : State} {o : Obj} {message : Message}

theorem handle_properties (hcall : message.IsCall dbusInterfaceProperties) :
    dbusutilsObjectHandleMessage o message σ =
      handlePropertiesInterface message (objectData σ o) σ := by
  simp [dbusutilsObjectHandleMessage, hcall.interface]

theorem handle_get (hcall : message.IsCall dbusInterfaceProperties)
    (hmember : message.member = some dbusMethodGet) :
    dbusutilsObjectHandleMessage o message σ = (do
      let (reply, request) ← dbusutilsObjectGet σ.bus message (objectData σ o)
      .ok (.handled, request, sendReply reply σ)) := by
  rw [handle_properties hcall, handlePropertiesInterface,
    if_pos (hcall.isMethodCall_iff.mpr ⟨hmember, rfl⟩)]

theorem handle_getAll (hcall : message.IsCall dbusInterfaceProperties)
    (hmember : message.member = some dbusMethodGetAll) :
    dbusutilsObjectHandleMessage o message σ = (do
      let reply ← dbusutilsObjectGetAll σ.bus message (objectData σ o)
      .ok (.handled, message, sendReply reply σ)) := by
  have hother : ∀ {method : CStr}, dbusMethodGetAll ≠ method →
      message.isMethodCall dbusInterfaceProperties method = false := by
    intro method hne
    rw [← Bool.not_eq_true, hcall.isMethodCall_iff, hmember]
    exact fun h => hne (Option.some.inj h.1)
  rw [handle_properties hcall, handlePropertiesInterface, hother (by decide), hother (by decide),
    if_pos (hcall.isMethodCall_iff.mpr ⟨hmember, rfl⟩)]
  rfl

/-- A table whose getters all write is sent if the library takes it. -/
theorem dbusutilsObjectGetAll_writes {bus : Connection} (hmemory : bus.outOfMemory = false)
    {object : ObjectData} {v : DBusValue}
    (h : Writes (dbusutilsGetObjectPropertyData object.properties) v) :
    dbusutilsObjectGetAll bus message object = some <$> replyWith v := by
  simp only [dbusutilsObjectGetAll, dbusMessageNewMethodReturn, hmemory, Bool.false_eq_true,
    ↓reduceIte]
  rw [h _ _ (Writer.zero_eq_depth _), Writer.append, replyWith]
  split_ifs
  · rfl
  · rfl

variable {interface : CStr} (hcall : message.IsCall interface)
  (hinterface : interface ≠ dbusInterfaceProperties)

include hcall hinterface

theorem handle_methods : dbusutilsObjectHandleMessage o message σ =
    handleMethodCall message (objectData σ o) σ := by
  simp [dbusutilsObjectHandleMessage, hcall.interface, hinterface]

/-- A method that is not in the table is left to the library. -/
theorem handle_unknown (hnone : (objectData σ o).methods.find?
    (fun method => message.isMethodCall method.interface method.method) = none) :
    dbusutilsObjectHandleMessage o message σ = .ok (.notYetHandled, message, σ) := by
  rw [handle_methods hcall hinterface, handleMethodCall, hnone]

variable {row : Method} (hsome : (objectData σ o).methods.find?
  (fun method => message.isMethodCall method.interface method.method) = some row)

include hsome

/-- A method in the table that has a reply. -/
theorem handle_reply {reply : Message} {σ' : State}
    (h : row.call message σ = .ok (some reply, σ')) :
    dbusutilsObjectHandleMessage o message σ
      = .ok (.handled, message, sendReply (some reply) σ') := by
  rw [handle_methods hcall hinterface, handleMethodCall, hsome]
  simp only [h, ok_bind]

theorem handle_no_reply {σ' : State} (h : row.call message σ = .ok (none, σ')) :
    dbusutilsObjectHandleMessage o message σ = .ok (.notYetHandled, message, σ') := by
  rw [handle_methods hcall hinterface, handleMethodCall, hsome]
  simp only [h, ok_bind]

theorem handle_error {e : Fault} (h : row.call message σ = .error e) :
    dbusutilsObjectHandleMessage o message σ = .error e := by
  rw [handle_methods hcall hinterface, handleMethodCall, hsome]
  simp only [h, error_bind]

end Handle

/-- The methods of a characteristic all have different names. -/
theorem find_characteristicMethods {message : Message}
    (hcall : message.IsCall bluezGattCharacteristicInterface) {c : ℕ} {row : Method}
    (hrow : row ∈ characteristicMethods c) (hmember : message.member = some row.method) :
    (characteristicMethods c).find?
      (fun method => message.isMethodCall method.interface method.method) = some row := by
  have hmatch : ∀ {i method : CStr}, message.isMethodCall i method
      = decide (message.member = some method ∧ bluezGattCharacteristicInterface = i) := by
    intro i method
    rw [Bool.eq_iff_iff, decide_eq_true_iff]
    exact hcall.isMethodCall_iff
  simp only [characteristicMethods, List.mem_cons, List.not_mem_nil, or_false] at hrow ⊢
  rcases hrow with rfl | rfl | rfl | rfl
  all_goals simp +decide [hmatch, hmember]

section Rows

variable {message : Message} (hcall : message.IsCall bluezGattCharacteristicInterface)
  {σ : State} {c : ℕ}

include hcall

theorem find_readValue (hmember : message.member = some bluezMethodReadValue) :
    (objectData σ (.characteristic c)).methods.find?
      (fun method => message.isMethodCall method.interface method.method)
      = some ⟨bluezGattCharacteristicInterface, bluezMethodReadValue, characteristicReadValue c⟩ :=
  find_characteristicMethods hcall (by simp [characteristicMethods]) hmember

theorem find_writeValue (hmember : message.member = some bluezMethodWriteValue) :
    (objectData σ (.characteristic c)).methods.find?
      (fun method => message.isMethodCall method.interface method.method)
      = some
        ⟨bluezGattCharacteristicInterface, bluezMethodWriteValue, characteristicWriteValue c⟩ :=
  find_characteristicMethods hcall (by simp [characteristicMethods]) hmember

theorem find_startNotify (hmember : message.member = some bluezMethodStartNotify) :
    (objectData σ (.characteristic c)).methods.find?
      (fun method => message.isMethodCall method.interface method.method)
      = some
        ⟨bluezGattCharacteristicInterface, bluezMethodStartNotify, characteristicStartNotify c⟩ :=
  find_characteristicMethods hcall (by simp [characteristicMethods]) hmember

theorem find_stopNotify (hmember : message.member = some bluezMethodStopNotify) :
    (objectData σ (.characteristic c)).methods.find?
      (fun method => message.isMethodCall method.interface method.method)
      = some
        ⟨bluezGattCharacteristicInterface, bluezMethodStopNotify, characteristicStopNotify c⟩ :=
  find_characteristicMethods hcall (by simp [characteristicMethods]) hmember

end Rows

theorem find_getManagedObjects {message : Message}
    (hcall : message.IsCall dbusInterfaceObjectManager)
    (hmember : message.member = some dbusMethodGetManagedObjects) {σ : State} {d : ℕ} :
    (objectData σ (.device d)).methods.find?
      (fun method => message.isMethodCall method.interface method.method)
      = some ⟨dbusInterfaceObjectManager, dbusMethodGetManagedObjects,
        deviceGetManagedObjects d⟩ := by
  have hmatch := hcall.isMethodCall_iff.mpr ⟨hmember, rfl⟩
  simp [objectData, deviceMethods, hmatch]

/-- The objects of a device that is no longer there are not told about. -/
theorem deviceGetManagedObjects_noDevice {σ : State} (hmemory : σ.bus.outOfMemory = false) {d : ℕ}
    {e : Fault} (hx : σ.device d = .error e) (message : Message) :
    deviceGetManagedObjects d message σ = .error e := by
  simp only [deviceGetManagedObjects, dbusMessageNewMethodReturn, hmemory, Bool.false_eq_true,
    ↓reduceIte, Writer.openContainer_eq (Writer.zero_eq_depth _), ok_bind, hx, error_bind]

/-! ### Storing what a caller sends -/

/-- Storing bytes that are there cannot fail. -/
theorem characteristicSetValue_isOk {σ : State} {c : ℕ} {x : Characteristic}
    (hx : σ.characteristic c = .ok x)
    {data : Bytes} {size : UInt32} (hfits : size.toNat ≤ data.length) :
    ∃ σ', characteristicSetValue c (some data) size σ = .ok σ' ∧ σ'.bus = σ.bus := by
  simp only [characteristicSetValue, hx, ok_bind, hfits, ↓reduceIte]
  split_ifs
  · exact ⟨_, rfl, rfl⟩
  · exact ⟨_, rfl, rfl⟩

/-- A nonempty array of a fixed-size type is stored, as many bytes of it as it has items. -/
theorem characteristicWriteValue_array {elem : Signature} {items rest : List DBusValue}
    {message : Message} (hbody : message.body = .array elem items :: rest)
    (hfixed : isFixedSignature elem = true) (hne : items ≠ []) {c : ℕ} {σ : State} :
    characteristicWriteValue c message σ = (do
      let σ ← characteristicSetValue c (some (items.flatMap DBusValue.storage))
        (UInt32.ofNat items.length) σ
      .ok (dbusMessageNewMethodReturn σ.bus message, σ)) := by
  obtain ⟨item, items, rfl⟩ := List.exists_cons_of_ne_nil hne
  simp only [characteristicWriteValue, Message.recurseFirst, hbody, ok_bind,
    SubIter.getFixedArray, hfixed, ↓reduceIte]
  have hguard : ¬ ((some ((item :: items).flatMap DBusValue.storage)).isNone = true ∨
      ((item :: items).length : ℤ) < 0) := by
    rintro (h | h)
    · cases h
    · omega
  rw [if_neg hguard]
  rfl

/-- An empty array of a fixed-size type has no elements to point at. -/
theorem characteristicWriteValue_empty {elem : Signature} {rest : List DBusValue}
    {message : Message} (hbody : message.body = .array elem [] :: rest)
    (hfixed : isFixedSignature elem = true) (c : ℕ) (σ : State) :
    characteristicWriteValue c message σ = .ok (none, σ) := by
  simp [characteristicWriteValue, Message.recurseFirst, hbody, SubIter.getFixedArray, hfixed]

/-- A first argument that is no array of a fixed-size type is not to be read in this way. -/
theorem characteristicWriteValue_misused {message : Message}
    (h : ∀ elem items rest, message.body = .array elem items :: rest →
      isFixedSignature elem = false) (c : ℕ) (σ : State) :
    characteristicWriteValue c message σ = .error .precondition := by
  cases hbody : message.body with
  | nil => simp [characteristicWriteValue, Message.recurseFirst, hbody]
  | cons v rest =>
    cases v with
    | array elem items =>
      have hfixed := h elem items rest hbody
      simp [characteristicWriteValue, Message.recurseFirst, hbody, SubIter.getFixedArray, hfixed]
    | _ => simp [characteristicWriteValue, Message.recurseFirst, hbody, SubIter.getFixedArray]

/-- What is written of an array: as many bytes of its storage as it has items. -/
def writtenBytes (items : List DBusValue) : Bytes :=
  (items.flatMap DBusValue.storage).take (UInt32.ofNat items.length).toNat

theorem writtenBytes_map_byte (bytes : Bytes) :
    writtenBytes (bytes.map .byte) = narrowed bytes := by
  have hstorage : (bytes.map DBusValue.byte).flatMap DBusValue.storage = bytes := by
    rw [List.flatMap_map]
    exact List.flatMap_singleton' bytes
  rw [writtenBytes, hstorage, List.length_map, narrowed]

/-- Whether the first argument is an array of a fixed-size type; if it is not empty, the
characteristic has to be there. -/
def WriteAnswerable (σ : State) (c : ℕ) (message : Message) : Prop :=
  ∃ elem items rest, message.body = .array elem items :: rest ∧ isFixedSignature elem = true ∧
    (items ≠ [] → .characteristic c ∉ σ.finalised)

/-- `characteristic_start_notify` and `characteristic_stop_notify` are one. -/
def characteristicSwitch (c : ℕ) (notifying : Bool) (message : Message) (σ : State) : Handled := do
  let σ ← characteristicSetNotifying c notifying σ
  .ok (dbusMessageNewMethodReturn σ.bus message, σ)

/-- `StartNotify` and `StopNotify` are the same row with another flag. -/
theorem find_switch {message : Message} (hcall : message.IsCall bluezGattCharacteristicInterface)
    {σ : State} {c : ℕ} (hnotify : message.member = some bluezMethodStartNotify ∨
      message.member = some bluezMethodStopNotify) :
    ∃ row notifying, (objectData σ (.characteristic c)).methods.find?
        (fun method => message.isMethodCall method.interface method.method) = some row ∧
      row.call message σ = characteristicSwitch c notifying message σ := by
  rcases hnotify with hstart | hstop
  · exact ⟨_, true, find_startNotify hcall hstart, rfl⟩
  · exact ⟨_, false, find_stopNotify hcall hstop, rfl⟩

section Results

variable {σ : State} {message : Message}

/-- Writing an array of a fixed-size type is answered if there is memory for the reply, unless it is
empty; anything else fails. -/
theorem characteristicWriteValue_cases {c : ℕ} {x : Characteristic}
    (hx : σ.characteristics[c]? = some x) (htyped : message.WellTyped) :
    (WriteAnswerable σ c message ∧ (characteristicWriteValue c message σ = .ok (none, σ) ∨
      ∃ σ', characteristicWriteValue c message σ =
        .ok (dbusMessageNewMethodReturn σ.bus message, σ') ∧ σ'.bus.sent = σ.bus.sent)) ∨
    (¬ WriteAnswerable σ c message ∧ ∃ e, characteristicWriteValue c message σ = .error e) := by
  by_cases hfixed : ∃ elem items rest, message.body = .array elem items :: rest ∧
      isFixedSignature elem = true
  swap
  · -- libdbus hands out arrays of fixed-length elements only
    refine Or.inr ⟨?_, .precondition, characteristicWriteValue_misused ?_ c σ⟩
    · rintro ⟨elem, items, rest, hbody, helem, -⟩
      exact hfixed ⟨elem, items, rest, hbody, helem⟩
    · intro elem items rest hbody
      rw [← Bool.not_eq_true]
      exact fun helem => hfixed ⟨elem, items, rest, hbody, helem⟩
  obtain ⟨elem, items, rest, hbody, helem⟩ := hfixed
  by_cases hempty : items = []
  · subst hempty
    -- the call goes without a reply
    exact Or.inl ⟨⟨elem, [], rest, hbody, helem, fun hne => absurd rfl hne⟩,
      Or.inl (characteristicWriteValue_empty hbody helem c σ)⟩
  have hlength : items.length ≤ (items.flatMap DBusValue.storage).length :=
    length_le_storage (htyped _ (by rw [hbody]; exact List.mem_cons_self)) helem
  have hwrite := characteristicWriteValue_array (c := c) (σ := σ) hbody helem hempty
  by_cases hfin : Obj.characteristic c ∈ σ.finalised
  · -- the value of a collected characteristic cannot be set
    refine Or.inr ⟨?_, .noObject, ?_⟩
    · rintro ⟨elem', items', rest', hbody', -, halive⟩
      rw [hbody] at hbody'
      cases hbody'
      exact halive hempty hfin
    · rw [hwrite]
      simp [characteristicSetValue, State.characteristic, State.access, hfin]
  · obtain ⟨σ', hset, hbus⟩ := characteristicSetValue_isOk
      (State.characteristic_eq_ok.mpr ⟨hfin, hx⟩) (toNat_ofNat_le hlength)
    refine Or.inl ⟨⟨elem, items, rest, hbody, helem, fun _ => hfin⟩, Or.inr ⟨σ', ?_, ?_⟩⟩
    · rw [hwrite, hset, ok_bind, hbus]
    · rw [hbus]

/-- Switching notifications goes through as long as the characteristic is there. -/
theorem characteristicSwitch_eq {c : ℕ} {x : Characteristic} (hx : σ.characteristic c = .ok x)
    (notifying : Bool) : characteristicSwitch c notifying message σ
      = .ok (dbusMessageNewMethodReturn σ.bus message,
        { σ with
          characteristics := σ.characteristics.modify c fun x => { x with notifying } }) := by
  simp only [characteristicSwitch, characteristicSetNotifying, hx, ok_bind]

theorem characteristicSwitch_finalised {c : ℕ} (hfin : Obj.characteristic c ∈ σ.finalised)
    (notifying : Bool) : characteristicSwitch c notifying message σ = .error .noObject := by
  simp [characteristicSwitch, characteristicSetNotifying, State.characteristic, State.access, hfin]

theorem dbusMessageNewMethodReturn_eq {bus : Connection} (hmemory : bus.outOfMemory = false) :
    dbusMessageNewMethodReturn bus message = some (methodReturn []) := by
  rw [dbusMessageNewMethodReturn, hmemory]
  rfl

theorem dbusMessageNewMethodReturn_eq_none {bus : Connection} (hmemory : bus.outOfMemory = true) :
    dbusMessageNewMethodReturn bus message = none := if_pos hmemory

variable (hmemory : σ.bus.outOfMemory = false) (hvalues : ValuesInv σ)

include hmemory hvalues

/-- Reading a value that fits into an array is answered with it, and else fails. -/
theorem characteristicReadValue_eq {c : ℕ} {x : Characteristic} (hx : σ.characteristic c = .ok x)
    (hmax : x.valueSize.toNat ≤ dbusMaximumArrayLength) :
    characteristicReadValue c message σ
      = .ok (some (methodReturn [.byteArray (x.bytes σ)]), σ) := by
  have hwrites := (characteristicGetValue_decides hvalues hx).1 hmax
  simp only [characteristicReadValue, hx, ok_bind, dbusMessageNewMethodReturn, hmemory,
    Bool.false_eq_true, ↓reduceIte]
  rw [hwrites.ok (DBusValue.validTexts_byteArray _) (Writer.zero_eq_depth _)]
  rfl

theorem characteristicReadValue_fails {c : ℕ} (hnot : ¬ Complete σ (.characteristic c)) :
    ∃ e, characteristicReadValue c message σ = .error e := by
  cases hx : σ.characteristic c with
  | error e => exact ⟨e, by simp [characteristicReadValue, dbusMessageNewMethodReturn, hmemory, hx]⟩
  | ok x =>
    have hfails := (characteristicGetValue_decides hvalues hx).2 fun hmax => hnot ⟨x, hx, hmax⟩
    obtain ⟨e, he⟩ := hfails _ _ (Writer.zero_eq_depth [])
    refine ⟨e, ?_⟩
    simp only [characteristicReadValue, hx, ok_bind, dbusMessageNewMethodReturn, hmemory,
      Bool.false_eq_true, ↓reduceIte]
    rw [he, error_bind]

end Results

/-! ## What calls do to a value -/

/-- An empty array is not written, and the caller gets the library's error. -/
theorem handle_writeValue_empty {σ : State} {c : ℕ} {message : Message}
    (hcall : message.IsCall bluezGattCharacteristicInterface)
    (hmember : message.member = some bluezMethodWriteValue) {rest : List DBusValue}
    (hbody : message.body = .byteArray [] :: rest) :
    dbusutilsObjectHandleMessage (.characteristic c) message σ
      = .ok (.notYetHandled, message, σ) :=
  handle_no_reply hcall (by decide) (find_writeValue hcall hmember)
    (characteristicWriteValue_empty hbody rfl c σ)

section Effects

variable {σ : State} {c : ℕ} {cell : Cell} (h : Shows σ c cell)

include h

/-- A characteristic reports the bytes it holds. -/
theorem Shows.bytes_eq {x : Characteristic} (hx : σ.characteristic c = .ok x) :
    x.valueSize.toNat = cell.bytes.length ∧ x.bytes σ = cell.bytes :=
  ValuesInv.read_take hx h.holds

/-- An array is written if there is memory for it, whether or not there is memory for the reply. -/
theorem characteristicWriteValue_effect (hvalues : ValuesInv σ) {message : Message}
    {elem : Signature} {items rest : List DBusValue}
    (hbody : message.body = .array elem items :: rest) (hfixed : isFixedSignature elem = true)
    (htyped : (DBusValue.array elem items).WellTyped) (hne : items ≠ []) :
    ∃ σ', characteristicWriteValue c message σ =
        .ok (dbusMessageNewMethodReturn σ.bus message, σ') ∧
      Effect σ σ' c ⟨σ.stored (writtenBytes items), cell.notifying⟩ [] := by
  obtain ⟨σ₁, hset, heffect⟩ :=
    characteristicSetValue_effect hvalues h (toNat_ofNat_le (length_le_storage htyped hfixed))
  refine ⟨σ₁, ?_, heffect⟩
  rw [characteristicWriteValue_array hbody hfixed hne, hset, ok_bind, dbusMessageNewMethodReturn,
    dbusMessageNewMethodReturn, heffect.frame.outOfMemory]

/-- An array of bytes is written up to the length that fits into 32 bits. -/
theorem characteristicWriteValue_bytes (hvalues : ValuesInv σ) {message : Message} {bytes : Bytes}
    {rest : List DBusValue} (hbody : message.body = .byteArray bytes :: rest) (hne : bytes ≠ []) :
    ∃ σ', characteristicWriteValue c message σ =
        .ok (dbusMessageNewMethodReturn σ.bus message, σ') ∧
      Effect σ σ' c ⟨σ.stored (narrowed bytes), cell.notifying⟩ [] := by
  rw [← writtenBytes_map_byte]
  exact characteristicWriteValue_effect h hvalues hbody rfl (.byteArray bytes) (by simpa using hne)

variable (hmemory : σ.bus.outOfMemory = false) {message : Message}
  (hcall : message.IsCall bluezGattCharacteristicInterface)

include hmemory hcall

theorem handle_switch {row : Method} {notifying : Bool}
    (hrow : row.call message σ = characteristicSwitch c notifying message σ)
    (hfind : (objectData σ (.characteristic c)).methods.find?
      (fun method => message.isMethodCall method.interface method.method) = some row) :
    ∃ σ', dbusutilsObjectHandleMessage (.characteristic c) message σ
        = .ok (.handled, message, σ') ∧
      Effect σ σ' c ⟨cell.bytes, notifying⟩ [methodReturn []] := by
  obtain ⟨x, hx, -⟩ := h.notifying
  have hset : characteristicSetNotifying c notifying σ = .ok { σ with
      characteristics := σ.characteristics.modify c fun x => { x with notifying } } := by
    rw [characteristicSetNotifying, hx, ok_bind]
  have heffect := Effect.setNotifying h notifying hset
  have hcalled := hrow.trans (characteristicSwitch_eq hx _)
  rw [dbusMessageNewMethodReturn_eq hmemory] at hcalled
  exact ⟨_, handle_reply hcall (by decide) hfind hcalled,
    heffect.trans (.send heffect.shows (methodReturn []))⟩

/-- `StartNotify` and `StopNotify` switch notifications, and keep the bytes. -/
theorem handle_startNotify (hmember : message.member = some bluezMethodStartNotify) :
    ∃ σ', dbusutilsObjectHandleMessage (.characteristic c) message σ
        = .ok (.handled, message, σ') ∧
      Effect σ σ' c ⟨cell.bytes, true⟩ [methodReturn []] :=
  handle_switch h hmemory hcall rfl (find_startNotify hcall hmember)

theorem handle_stopNotify (hmember : message.member = some bluezMethodStopNotify) :
    ∃ σ', dbusutilsObjectHandleMessage (.characteristic c) message σ
        = .ok (.handled, message, σ') ∧
      Effect σ σ' c ⟨cell.bytes, false⟩ [methodReturn []] :=
  handle_switch h hmemory hcall rfl (find_stopNotify hcall hmember)

variable (hvalues : ValuesInv σ)

include hvalues

/-- `ReadValue` is answered with the bytes, and changes nothing. -/
theorem handle_readValue (hmember : message.member = some bluezMethodReadValue)
    (hmax : cell.bytes.length ≤ dbusMaximumArrayLength) :
    ∃ σ', dbusutilsObjectHandleMessage (.characteristic c) message σ
        = .ok (.handled, message, σ') ∧
      Effect σ σ' c cell [methodReturn [.byteArray cell.bytes]] := by
  obtain ⟨x, hx, -⟩ := h.notifying
  obtain ⟨hsize, hbytes⟩ := h.bytes_eq hx
  have hrun : characteristicReadValue c message σ = _ :=
    characteristicReadValue_eq hmemory hvalues hx (hsize ▸ hmax)
  rw [hbytes] at hrun
  exact ⟨_, handle_reply hcall (by decide) (find_readValue hcall hmember) hrun, .send h _⟩

variable (hmember : message.member = some bluezMethodWriteValue) {bytes : Bytes}
  {rest : List DBusValue} (hbody : message.body = .byteArray bytes :: rest)

include hmember hbody

/-- An array of bytes is stored, without any signal. -/
theorem handle_writeValue (hf : σ.buffers.NeverFails) (hne : bytes ≠ []) :
    ∃ σ', dbusutilsObjectHandleMessage (.characteristic c) message σ
        = .ok (.handled, message, σ') ∧
      Effect σ σ' c ⟨narrowed bytes, cell.notifying⟩ [methodReturn []] := by
  obtain ⟨σ₁, hrun, heffect⟩ := characteristicWriteValue_bytes h hvalues hbody hne
  rw [State.stored_of_neverFails hf] at heffect
  rw [dbusMessageNewMethodReturn, hmemory] at hrun
  exact ⟨_, handle_reply hcall (by decide) (find_writeValue hcall hmember) hrun,
    heffect.trans (.send heffect.shows (methodReturn []))⟩

end Effects

end BleSim
