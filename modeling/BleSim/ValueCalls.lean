import BleSim.Calls

/-!
# A characteristic as its clients see it

The script and the D-Bus peers ask five things of a value (`ValueCall`). What a characteristic
shows is a small state machine of its own (`Cell.after`), and every step of the simulator that
asks something of a value takes that machine one step, sends the messages due, and leaves every
other characteristic alone.
-/

namespace BleSim

open Outcomes WriteOnce DBusValue

/-! ## The abstract machine -/

/-- What a step can ask of a value. -/
inductive ValueCall where
  | set (v t : LuaValue)
  | read
  | write (bytes : Bytes)
  | start
  | stop

/-- The bytes a call stores, if it is accepted. -/
def ValueCall.stored : ValueCall → Option Bytes
  | .set v t =>
    match luaiCheckTypeBleDataType t with
    | .raise => none
    | .ret type => (convertedBytes type v).map narrowed
  | .write bytes => if bytes = [] then none else some (narrowed bytes)
  | _ => none

/-- What the characteristic shows after a call. -/
def Cell.after (cell : Cell) (call : ValueCall) : Cell where
  bytes := call.stored.getD cell.bytes
  notifying :=
    match call with
    | .start => true
    | .stop => false
    | _ => cell.notifying

/-- The messages a call makes the process send: a signal is only due when the script sets the
value. -/
def Cell.messages (cell : Cell) (path : CStr) : ValueCall → List Message
  | .set v t => cell.signals path (cell.after (.set v t)).bytes
  | .read => [methodReturn [.byteArray cell.bytes]]
  | .write bytes => if bytes = [] then [] else [methodReturn []]
  | .start | .stop => [methodReturn []]

/-! ## The steps that ask something of a value -/

/-- A step asks something of the value of a characteristic. A peer cannot send an array longer
than D-Bus allows. -/
inductive Op.Asks : Op → ℕ → ValueCall → Prop
  | set (c : ℕ) (v t : LuaValue) : Asks (.setValue c v t) c (.set v t)
  | read {c : ℕ} {m : Message} : m.IsCall bluezGattCharacteristicInterface →
      m.member = some bluezMethodReadValue → Asks (.deliver (.characteristic c) m) c .read
  | write {c : ℕ} {m : Message} {bytes : Bytes} {rest : List DBusValue} :
      m.IsCall bluezGattCharacteristicInterface → m.member = some bluezMethodWriteValue →
      m.body = .byteArray bytes :: rest → bytes.length ≤ dbusMaximumArrayLength →
      Asks (.deliver (.characteristic c) m) c (.write bytes)
  | start {c : ℕ} {m : Message} : m.IsCall bluezGattCharacteristicInterface →
      m.member = some bluezMethodStartNotify → Asks (.deliver (.characteristic c) m) c .start
  | stop {c : ℕ} {m : Message} : m.IsCall bluezGattCharacteristicInterface →
      m.member = some bluezMethodStopNotify → Asks (.deliver (.characteristic c) m) c .stop

/-- Whether a call is the script's. -/
def ValueCall.isSet : ValueCall → Bool
  | .set _ _ => true
  | _ => false

/-- A message asks something of the object it is delivered to. -/
theorem Op.Asks.eq_of_deliver {c e : ℕ} {m : Message} {call : ValueCall}
    (h : Op.Asks (.deliver (.characteristic e) m) c call) : c = e := by
  cases h <;> rfl

/-- What a call needs to be defined: no block is overrun, a reply or a signal fits into an array,
and a signal has a path to come from, which the library takes. -/
def ValueCall.Defined (strings : Heap CStr) (x : Characteristic) (cell : Cell) : ValueCall → Prop
  | .set v t => ∀ type, luaiCheckTypeBleDataType t = .ret type → overruns type v = false ∧
      ∀ bytes, convertedBytes type v = some bytes → cell.notifying = true →
        narrowed bytes ≠ cell.bytes → Sendable strings x (narrowed bytes)
  | .read => cell.bytes.length ≤ dbusMaximumArrayLength
  | _ => True

/-- A reply that says that a value was accepted. -/
def Reply.accepts : Reply → Bool
  | .lua (.ret true) => true
  | .handled .handled _ => true
  | _ => false

theorem narrowed_of_le {bytes : Bytes} (h : bytes.length ≤ dbusMaximumArrayLength) :
    narrowed bytes = bytes :=
  narrowed_of_lt (Nat.lt_of_le_of_lt h (by decide))

/-- Delivering a message to a registered object. -/
theorem exec_deliver {σ σ' : State} {o : Obj} (ho : o ∈ σ.registeredObjects) {m request : Message}
    {result : HandlerResult}
    (h : dbusutilsObjectHandleMessage o m σ = .ok (result, request, σ')) :
    exec (.deliver o m) σ = .ok (.handled result request, σ') := by
  rw [exec, if_pos ho, h]
  rfl

/-- A call of the script that stores nothing leaves the cell alone and is silent. -/
theorem Cell.set_of_stored_none {v t : LuaValue} (hstored : (ValueCall.set v t).stored = none)
    (cell : Cell) (path : CStr) :
    cell.after (.set v t) = cell ∧ cell.messages path (.set v t) = [] := by
  have hcell : cell.after (.set v t) = cell := by simp [Cell.after, hstored]
  refine ⟨hcell, ?_⟩
  rw [Cell.messages, hcell]
  simp [Cell.signals]

section Calls

variable {σ : State} (hvalues : ValuesInv σ) (hf : σ.buffers.NeverFails)
  (hmemory : σ.bus.outOfMemory = false) {c : ℕ} {x : Characteristic}
  (hx : σ.characteristic c = .ok x) {cell : Cell} (h : Shows σ c cell)
include hvalues hf hmemory hx h

/-- `setValue`: an error, a refusal, or a new value. -/
theorem exec_set {v t : LuaValue} (hdefined : (ValueCall.set v t).Defined σ.strings x cell) :
    ∃ exit σ', exec (.setValue c v t) σ = .ok (.lua exit, σ') ∧
      Effect σ σ' c (cell.after (.set v t))
        (cell.messages (σ.strings.read x.node.objectPath) (.set v t)) ∧
      (Reply.lua exit).accepts = (ValueCall.set v t).stored.isSome := by
  cases ht : luaiCheckTypeBleDataType t with
  | raise =>
    -- the data type is turned away before the value is looked at
    have hrun : luaiCharacteristicSetValue c v t σ = .ok (.raise, σ) :=
      luaiCharacteristicSetValue_raise ht
    have hstored : (ValueCall.set v t).stored = none := by simp [ValueCall.stored, ht]
    refine ⟨.raise, σ, by simp [exec, hrun], ?_, by rw [hstored]; rfl⟩
    obtain ⟨hcell, hnone⟩ :=
      Cell.set_of_stored_none hstored cell (σ.strings.read x.node.objectPath)
    rw [hcell, hnone]
    exact .refl h
  | ret type =>
    obtain ⟨hsafe, hsend⟩ := hdefined type ht
    cases hconv : convertedBytes type v with
    | none =>
      have hstored : (ValueCall.set v t).stored = none := by simp [ValueCall.stored, ht, hconv]
      obtain ⟨exit, σ', hrun, hexit, -, heffect⟩ :=
        luaiCharacteristicSetValue_refused hf ht hsafe h hconv
      refine ⟨exit, σ', by simp [exec, hrun], ?_, ?_⟩
      · obtain ⟨hcell, hnone⟩ :=
          Cell.set_of_stored_none hstored cell (σ.strings.read x.node.objectPath)
        rw [hcell, hnone]
        exact heffect
      · rw [hstored]
        rcases hexit with rfl | rfl <;> rfl
    | some bytes =>
      have hstored : (ValueCall.set v t).stored = some (narrowed bytes) := by
        simp [ValueCall.stored, ht, hconv]
      have hcell : cell.after (.set v t) = ⟨narrowed bytes, cell.notifying⟩ := by
        simp [Cell.after, hstored]
      obtain ⟨σ', hrun, heffect⟩ := luaiCharacteristicSetValue_stored hf ht hsafe h hvalues
        hmemory hx hconv (hsend bytes hconv)
      refine ⟨.ret true, σ', by simp [exec, hrun], ?_, by rw [hstored]; rfl⟩
      rw [Cell.messages, hcell]
      exact heffect

omit hx in
/-- `WriteValue`: a new value without a signal, or nothing for an empty one. -/
theorem exec_write (hregistered : Obj.characteristic c ∈ σ.registeredObjects) (path : CStr)
    {m : Message} {bytes : Bytes} {rest : List DBusValue}
    (hcall : m.IsCall bluezGattCharacteristicInterface)
    (hmember : m.member = some bluezMethodWriteValue) (hbody : m.body = .byteArray bytes :: rest) :
    ∃ r σ', exec (.deliver (.characteristic c) m) σ = .ok (r, σ') ∧
      Effect σ σ' c (cell.after (.write bytes)) (cell.messages path (.write bytes)) ∧
      r.accepts = (ValueCall.write bytes).stored.isSome := by
  by_cases hempty : bytes = []
  · subst hempty
    -- an empty array is handled without a reply
    have hrun : dbusutilsObjectHandleMessage (.characteristic c) m σ = _ :=
      handle_writeValue_empty hcall hmember hbody
    exact ⟨_, σ, exec_deliver hregistered hrun, .refl h, rfl⟩
  · have hstored : (ValueCall.write bytes).stored = some (narrowed bytes) := if_neg hempty
    have hcell : cell.after (.write bytes) = ⟨narrowed bytes, cell.notifying⟩ := by
      simp [Cell.after, hstored]
    obtain ⟨σ', hrun, heffect⟩ :=
      handle_writeValue h hmemory hcall hvalues hmember hbody hf hempty
    refine ⟨_, σ', exec_deliver hregistered hrun, ?_, by rw [hstored]; rfl⟩
    rw [Cell.messages, if_neg hempty, hcell]
    exact heffect

/-- A step that asks something of a value takes the abstract machine one step. -/
theorem exec_asks {op : Op} {call : ValueCall} (hasks : op.Asks c call)
    (hreaches : call.isSet = true ∨ Obj.characteristic c ∈ σ.registeredObjects)
    (hdefined : call.Defined σ.strings x cell) :
    ∃ r σ', exec op σ = .ok (r, σ') ∧
      Effect σ σ' c (cell.after call) (cell.messages (σ.strings.read x.node.objectPath) call) ∧
      ((∃ v t, call = .set v t) ∨ (∃ bytes, call = .write bytes) →
        r.accepts = call.stored.isSome) := by
  have hreached : call.isSet = false → Obj.characteristic c ∈ σ.registeredObjects := fun hset =>
    hreaches.resolve_left (by simp [hset])
  -- the other calls write nothing, so that nothing is said of their replies
  have hneither : ∀ {p : Prop}, call = .read ∨ call = .start ∨ call = .stop →
      ((∃ v t, call = .set v t) ∨ (∃ bytes, call = .write bytes) → p) := by
    intro p hcall hwrites
    rcases hcall with rfl | rfl | rfl <;> simp at hwrites
  cases hasks with
  | set _ v t =>
    obtain ⟨exit, σ', hrun, heffect, haccepts⟩ := exec_set hvalues hf hmemory hx h hdefined
    exact ⟨.lua exit, σ', hrun, heffect, fun _ => haccepts⟩
  | read hcall hmember =>
    obtain ⟨σ', hrun, heffect⟩ := handle_readValue h hmemory hcall hvalues hmember hdefined
    exact ⟨_, σ', exec_deliver (hreached rfl) hrun, heffect, hneither (Or.inl rfl)⟩
  | write hcall hmember hbody _ =>
    obtain ⟨r, σ', hrun, heffect, haccepts⟩ :=
      exec_write hvalues hf hmemory h (hreached rfl) _ hcall hmember hbody
    exact ⟨r, σ', hrun, heffect, fun _ => haccepts⟩
  | start hcall hmember =>
    obtain ⟨σ', hrun, heffect⟩ := handle_startNotify h hmemory hcall hmember
    exact ⟨_, σ', exec_deliver (hreached rfl) hrun, heffect, hneither (Or.inr (Or.inl rfl))⟩
  | stop hcall hmember =>
    obtain ⟨σ', hrun, heffect⟩ := handle_stopNotify h hmemory hcall hmember
    exact ⟨_, σ', exec_deliver (hreached rfl) hrun, heffect, hneither (Or.inr (Or.inr rfl))⟩

end Calls

/-! ## Samples -/

/-- A call of a method of a characteristic, as a peer sends it. -/
def characteristicCall (method : CStr) (body : List DBusValue) : Message :=
  ⟨.methodCall, none, some bluezGattCharacteristicInterface, some method, body⟩

/-- A device with one service and one characteristic. -/
def oneCharacteristic : List Op :=
  [.createDevice "lamp".toList, .createService "180F".toList, .createCharacteristic "2A19".toList,
    .add .service (fun _ _ => true) 0 0, .add .characteristic (fun _ _ => true) 0 0]

end BleSim
