import BleSim.MessageTheorems

/-!
# Safety of the dispatcher

Which messages the handler of a registered object gets through without comparing a header field
that is absent, reading an argument that is not there, or asking an object for what it cannot tell.
The interface field is optional in a method call, and the handler compares it first.
-/

namespace BleSim

open Outcomes WriteOnce DBusValue

/-! ## What the dispatcher is for -/

/-- The handler returns, that is, uses nothing that is absent; and a call without an interface is
treated like the call of the same member of some interface, or left to the library. -/
def DispatchSafe (σ : State) (o : Obj) (message : Message) : Prop :=
  ∃ result request σ', dbusutilsObjectHandleMessage o message σ = .ok (result, request, σ') ∧
    (message.interface = none → result = .notYetHandled ∨ ∃ interface,
      dbusutilsObjectHandleMessage o { message with interface := some interface } σ =
        .ok (result, { request with interface := some interface }, σ'))

/-- What a call of the `Properties` interface needs to go through: the properties it asks for can be
read. -/
structure PropertiesReady (σ : State) (o : Obj) (message : Message) : Prop where
  get : message.member = some dbusMethodGet → ∀ interface name,
    message.body = [.string interface, .string name] →
      name ∈ (objectData σ o).properties.map Property.name → Gettable σ o name
  getAll : message.member = some dbusMethodGetAll → (∀ d, o ≠ .device d) → Presentable σ o

/-- What a call of a method of a characteristic needs. -/
structure CharacteristicReady (σ : State) (c : ℕ) (message : Message) : Prop where
  read : message.member = some bluezMethodReadValue → σ.bus.outOfMemory = false →
    Complete σ (.characteristic c)
  write : message.member = some bluezMethodWriteValue → WriteAnswerable σ c message
  notify : message.member = some bluezMethodStartNotify ∨
    message.member = some bluezMethodStopNotify → .characteristic c ∉ σ.finalised

/-- What a method call with the given interface needs. What goes into a reply is needed only if
there is memory for the reply. -/
def CallReady (σ : State) (o : Obj) (interface : CStr) (message : Message) : Prop :=
  if interface = dbusInterfaceProperties then
    σ.bus.outOfMemory = false → PropertiesReady σ o message
  else
    match o with
    | .characteristic c =>
      interface = bluezGattCharacteristicInterface → CharacteristicReady σ c message
    | .device d =>
      interface = dbusInterfaceObjectManager ∧
        message.member = some dbusMethodGetManagedObjects → σ.bus.outOfMemory = false →
        .device d ∉ σ.finalised ∧ ∀ o, Managed σ d o → Describable σ o
    | _ => True

/-- What a message needs: an interface, and if it is a method call, what that call needs. -/
def DispatchReady (σ : State) (o : Obj) (message : Message) : Prop :=
  ∃ interface, message.interface = some interface ∧
    (message.type = .methodCall → CallReady σ o interface message)

/-! ## Messages without an interface, and signals -/

/-- The handler returns. -/
def Returns (σ : State) (o : Obj) (message : Message) : Prop :=
  ∃ r, dbusutilsObjectHandleMessage o message σ = .ok r

section Handle

variable {σ : State} {o : Obj} {message : Message}

theorem not_returns_of_error {e : Fault}
    (h : dbusutilsObjectHandleMessage o message σ = .error e) : ¬ Returns σ o message := by
  rintro ⟨r, hr⟩
  rw [h] at hr
  cases hr

/-- An absent interface is used as a string. -/
theorem not_returns_of_no_interface (hnone : message.interface = none) :
    ¬ Returns σ o message := by
  apply not_returns_of_error (e := .nullPointer)
  rw [dbusutilsObjectHandleMessage, hnone]

theorem dispatchSafe_iff_returns {interface : CStr} (hsome : message.interface = some interface) :
    DispatchSafe σ o message ↔ Returns σ o message := by
  constructor
  · intro ⟨result, request, σ', hrun, _⟩
    exact ⟨_, hrun⟩
  · intro ⟨⟨result, request, σ'⟩, hrun⟩
    refine ⟨result, request, σ', hrun, fun hnone => ?_⟩
    rw [hsome] at hnone
    cases hnone

/-- What is no method call is left to the library. -/
theorem returns_of_signal (htype : message.type ≠ .methodCall) {interface : CStr}
    (hsome : message.interface = some interface) : Returns σ o message := by
  have hnot : ∀ i method, message.isMethodCall i method = false := by
    intro i method
    simp [Message.isMethodCall, htype]
  by_cases hproperties : interface = dbusInterfaceProperties
  · refine ⟨(.notYetHandled, message, σ), ?_⟩
    simp [dbusutilsObjectHandleMessage, hsome, hproperties, handlePropertiesInterface, hnot]
  · refine ⟨(.notYetHandled, message, σ), ?_⟩
    have hnone : (objectData σ o).methods.find?
        (fun method => message.isMethodCall method.interface method.method) = none :=
      List.find?_eq_none.mpr fun row _ => by simp [hnot]
    simp [dbusutilsObjectHandleMessage, hsome, hproperties, handleMethodCall, hnone]

/-! ## Methods in a table -/

variable {interface : CStr} (hcall : message.IsCall interface)
  (hinterface : interface ≠ dbusInterfaceProperties)

include hcall hinterface

theorem returns_unknown (hnone : (objectData σ o).methods.find?
    (fun method => message.isMethodCall method.interface method.method) = none) :
    Returns σ o message := ⟨_, handle_unknown hcall hinterface hnone⟩

variable {row : Method} (hsome : (objectData σ o).methods.find?
  (fun method => message.isMethodCall method.interface method.method) = some row)

include hsome

/-- Whether or not a method has a reply, the handler returns if the method does. -/
theorem returns_of_call {reply : Option Message} {σ' : State}
    (h : row.call message σ = .ok (reply, σ')) : Returns σ o message := by
  cases reply with
  | none => exact ⟨_, handle_no_reply hcall hinterface hsome h⟩
  | some reply => exact ⟨_, handle_reply hcall hinterface hsome h⟩

theorem not_returns_of_call {e : Fault} (h : row.call message σ = .error e) :
    ¬ Returns σ o message := not_returns_of_error (handle_error hcall hinterface hsome h)

end Handle

/-! ## The `Properties` interface -/

section Properties

variable {σ : State} (hpointers : PointersInv σ) (hregistration : RegistrationInv σ)
  (hvalues : ValuesInv σ) {o : Obj} (ho : o ∈ σ.registeredObjects) {message : Message}
  (hcall : message.IsCall dbusInterfaceProperties)

include hcall

/-- Without memory for a reply nothing is read. -/
theorem returns_properties_of_outOfMemory (hmemory : σ.bus.outOfMemory = true) :
    Returns σ o message := by
  have hget : dbusutilsObjectGet σ.bus message (objectData σ o) = .ok (none, message) := by
    unfold dbusutilsObjectGet
    rw [dbusMessageNewMethodReturn_eq_none hmemory]
    cases getPropertyNameFromPropertiesGetMessage message <;> rfl
  have hgetAll : dbusutilsObjectGetAll σ.bus message (objectData σ o) = .ok none := by
    unfold dbusutilsObjectGetAll
    rw [dbusMessageNewMethodReturn_eq_none hmemory]
  rw [Returns, handle_properties hcall]
  simp only [handlePropertiesInterface, hget, hgetAll, ok_bind]
  split_ifs
  · exact ⟨_, rfl⟩
  · exact ⟨_, rfl⟩
  · exact ⟨_, rfl⟩
  · exact ⟨_, rfl⟩

/-- `Set`, and whatever is not one of the three members, does nothing. -/
theorem returns_properties_other (hget : message.member ≠ some dbusMethodGet)
    (hgetAll : message.member ≠ some dbusMethodGetAll) : Returns σ o message := by
  have hnot : ∀ {method : CStr}, message.member ≠ some method →
      message.isMethodCall dbusInterfaceProperties method = false := by
    intro method hne
    rw [← Bool.not_eq_true, hcall.isMethodCall_iff]
    exact fun h => hne h.1
  rw [Returns, handle_properties hcall]
  simp only [handlePropertiesInterface, hnot hget, hnot hgetAll, Bool.false_eq_true, ↓reduceIte]
  split_ifs
  · exact ⟨_, rfl⟩
  · exact ⟨_, rfl⟩

include hpointers hregistration hvalues ho

variable (hmemory : σ.bus.outOfMemory = false)

include hmemory

theorem returns_get_iff (hmember : message.member = some dbusMethodGet) :
    Returns σ o message ↔ ∀ interface name, message.body = [.string interface, .string name] →
      name ∈ (objectData σ o).properties.map Property.name → Gettable σ o name := by
  have hhandle := handle_get (o := o) (σ := σ) hcall hmember
  obtain ⟨hname, hget⟩ | ⟨interface, name, hbody, hcases⟩ :=
    dbusutilsObjectGet_cases hpointers hregistration hvalues hmemory ho message
  · rw [hget, ok_bind] at hhandle
    refine iff_of_true ⟨_, hhandle⟩ fun interface name hbody => ?_
    rw [getPropertyName_eq_some.mpr ⟨interface, hbody⟩] at hname
    cases hname
  · obtain ⟨hready, request, hget⟩ | ⟨hnot, e, hget⟩ := hcases
    · rw [hget, ok_bind] at hhandle
      refine iff_of_true ⟨_, hhandle⟩ fun interface' name' hbody' => ?_
      rw [hbody] at hbody'
      cases hbody'
      exact hready
    · rw [hget, error_bind] at hhandle
      exact iff_of_false (not_returns_of_error hhandle) fun h => hnot (h interface name hbody)

theorem returns_getAll_iff (hmember : message.member = some dbusMethodGetAll) :
    Returns σ o message ↔ ((∀ d, o ≠ .device d) → Presentable σ o) := by
  have hhandle := handle_getAll (o := o) (σ := σ) hcall hmember
  obtain ⟨hready, v, hgetAll⟩ | ⟨hnot, e, hgetAll⟩ :=
    dbusutilsObjectGetAll_cases hpointers hregistration hvalues hmemory ho message
  · rw [hgetAll, ok_bind] at hhandle
    exact iff_of_true ⟨_, hhandle⟩ hready
  · rw [hgetAll, error_bind] at hhandle
    exact iff_of_false (not_returns_of_error hhandle) hnot

theorem returns_properties_iff : Returns σ o message ↔ PropertiesReady σ o message := by
  by_cases hget : message.member = some dbusMethodGet
  · rw [returns_get_iff hpointers hregistration hvalues ho hcall hmemory hget]
    refine ⟨fun h => ⟨fun _ => h, fun heq => ?_⟩, fun h => h.get hget⟩
    rw [hget] at heq
    exact absurd heq (by decide)
  · by_cases hgetAll : message.member = some dbusMethodGetAll
    · rw [returns_getAll_iff hpointers hregistration hvalues ho hcall hmemory hgetAll]
      exact ⟨fun h => ⟨fun heq => absurd heq hget, fun _ => h⟩, fun h => h.getAll hgetAll⟩
    · exact iff_of_true (returns_properties_other hcall hget hgetAll)
        ⟨fun heq => absurd heq hget, fun heq => absurd heq hgetAll⟩

end Properties

/-! ## The methods of a characteristic and of a device -/

section Rows

variable {σ : State} {message : Message} {c : ℕ}
  (hcall : message.IsCall bluezGattCharacteristicInterface)

include hcall

theorem returns_readValue_iff (hvalues : ValuesInv σ)
    (hread : message.member = some bluezMethodReadValue) :
    Returns σ (.characteristic c) message ↔
      (σ.bus.outOfMemory = false → Complete σ (.characteristic c)) := by
  have hfind := find_readValue hcall (σ := σ) (c := c) hread
  cases hmemory : σ.bus.outOfMemory with
  | true =>
    -- without memory for the reply the value is not read
    have hrun : characteristicReadValue c message σ = .ok (none, σ) := by
      unfold characteristicReadValue
      rw [dbusMessageNewMethodReturn_eq_none hmemory]
    exact iff_of_true (returns_of_call hcall (by decide) hfind hrun) (by simp)
  | false =>
    rw [forall_prop_of_true rfl]
    by_cases hready : Complete σ (.characteristic c)
    · obtain ⟨y, hy, hmax⟩ := hready
      exact iff_of_true (returns_of_call hcall (by decide) hfind
        (characteristicReadValue_eq hmemory hvalues hy hmax)) ⟨y, hy, hmax⟩
    · obtain ⟨e, he⟩ : ∃ e, characteristicReadValue c message σ = .error e :=
        characteristicReadValue_fails hmemory hvalues hready
      exact iff_of_false (not_returns_of_call hcall (by decide) hfind he) hready

theorem returns_writeValue_iff {x : Characteristic} (hget : σ.characteristics[c]? = some x)
    (htyped : message.WellTyped) (hwrite : message.member = some bluezMethodWriteValue) :
    Returns σ (.characteristic c) message ↔ WriteAnswerable σ c message := by
  have hfind := find_writeValue hcall (σ := σ) (c := c) hwrite
  obtain ⟨hready, hrun | ⟨σ', hrun, -⟩⟩ | ⟨hnot, e, he⟩ :=
    characteristicWriteValue_cases hget htyped
  · exact iff_of_true (returns_of_call hcall (by decide) hfind hrun) hready
  · exact iff_of_true (returns_of_call hcall (by decide) hfind hrun) hready
  · exact iff_of_false (not_returns_of_call hcall (by decide) hfind he) hnot

theorem returns_notify_iff {x : Characteristic} (hget : σ.characteristics[c]? = some x)
    (hnotify : message.member = some bluezMethodStartNotify ∨
      message.member = some bluezMethodStopNotify) :
    Returns σ (.characteristic c) message ↔ Obj.characteristic c ∉ σ.finalised := by
  obtain ⟨row, notifying, hfind, hrow⟩ := find_switch hcall (σ := σ) (c := c) hnotify
  by_cases hfin : Obj.characteristic c ∈ σ.finalised
  · have herror := hrow.trans (characteristicSwitch_finalised hfin notifying)
    exact iff_of_false (not_returns_of_call hcall (by decide) hfind herror) (not_not.mpr hfin)
  · have hrun := hrow.trans
      (characteristicSwitch_eq (State.characteristic_eq_ok.mpr ⟨hfin, hget⟩) notifying)
    exact iff_of_true (returns_of_call hcall (by decide) hfind hrun) hfin

end Rows

section Main

variable {σ : State} (hpointers : PointersInv σ) (hregistration : RegistrationInv σ)
  (hvalues : ValuesInv σ) {message : Message} {interface : CStr}
  (hcall : message.IsCall interface) (hinterface : interface ≠ dbusInterfaceProperties)

include hpointers hregistration hvalues hcall hinterface

theorem returns_characteristic_iff {c : ℕ} (ho : Obj.characteristic c ∈ σ.registeredObjects)
    (htyped : message.WellTyped) : Returns σ (.characteristic c) message ↔
      (interface = bluezGattCharacteristicInterface → CharacteristicReady σ c message) := by
  obtain ⟨x, hget⟩ := exists_of_registered hpointers hregistration ho
  by_cases hgatt : interface = bluezGattCharacteristicInterface
  · subst hgatt
    rw [forall_prop_of_true rfl]
    have hiff := characteristic_member_iff message
      (returns_readValue_iff (c := c) hcall hvalues)
      (returns_writeValue_iff hcall hget htyped) (returns_notify_iff hcall hget)
      fun hread hwrite hstart hstop => returns_unknown hcall hinterface
        (find_characteristicMethods_none hcall fun _ => ⟨hread, hwrite, hstart, hstop⟩)
    rw [hiff]
    exact ⟨fun h => ⟨h.1, h.2.1, h.2.2⟩, fun h => ⟨h.read, h.write, h.notify⟩⟩
  · have hnone := find_characteristicMethods_none hcall (c := c) fun heq => absurd heq hgatt
    exact iff_of_true (returns_unknown hcall hinterface hnone) fun h => absurd h hgatt

theorem returns_device_iff {children : Kind → ℕ → List ℕ} (hforests : Forests σ children) {d : ℕ}
    (ho : Obj.device d ∈ σ.registeredObjects) : Returns σ (.device d) message ↔
      (interface = dbusInterfaceObjectManager ∧
        message.member = some dbusMethodGetManagedObjects → σ.bus.outOfMemory = false →
        Obj.device d ∉ σ.finalised ∧ ∀ o, Managed σ d o → Describable σ o) := by
  obtain ⟨path, hmem⟩ := mem_registeredObjects.mp ho
  have hlt := (hregistration.devices d path hmem).2
  by_cases hmember : interface = dbusInterfaceObjectManager ∧
      message.member = some dbusMethodGetManagedObjects
  · have hfind := find_getManagedObjects (σ := σ) (d := d) (hmember.1 ▸ hcall) hmember.2
    rw [forall_prop_of_true hmember]
    cases hmemory : σ.bus.outOfMemory with
    | true =>
      -- the device is not looked at before there is a reply
      have hrun : deviceGetManagedObjects d message σ = .ok (none, σ) := by
        unfold deviceGetManagedObjects
        rw [dbusMessageNewMethodReturn_eq_none hmemory]
      exact iff_of_true (returns_of_call hcall hinterface hfind hrun) (by simp)
    | false =>
      rw [forall_prop_of_true rfl]
      obtain ⟨hready, body, hrun⟩ | ⟨hnot, e, he⟩ :=
        deviceGetManagedObjects_cases hpointers hvalues hforests hmemory hlt message
      · exact iff_of_true (returns_of_call hcall hinterface hfind hrun) hready
      · exact iff_of_false (not_returns_of_call hcall hinterface hfind he) hnot
  · exact iff_of_true (returns_unknown hcall hinterface (find_deviceMethods_none hcall hmember))
      fun h => absurd h hmember

end Main

/-- A method call with an interface goes through exactly when what it needs is there. -/
theorem returns_call_iff {σ : State} (hreach : Reachable σ) {o : Obj}
    (ho : o ∈ σ.registeredObjects) {message : Message} {interface : CStr}
    (hcall : message.IsCall interface) (htyped : message.WellTyped) :
    Returns σ o message ↔ CallReady σ o interface message := by
  have hpointers := PointersInv.of_reachable hreach
  have hregistration := RegistrationInv.of_reachable hreach
  have hvalues := ValuesInv.of_reachable hreach
  obtain ⟨children, hforests⟩ := Forests.of_reachable hreach
  unfold CallReady
  split_ifs with hinterface
  · subst hinterface
    cases hmemory : σ.bus.outOfMemory with
    | true => exact iff_of_true (returns_properties_of_outOfMemory hcall hmemory) (by simp)
    | false =>
      rw [forall_prop_of_true rfl]
      exact returns_properties_iff hpointers hregistration hvalues ho hcall hmemory
  · cases o with
    | characteristic c =>
      exact returns_characteristic_iff hpointers hregistration hvalues hcall hinterface ho htyped
    | device d =>
      exact returns_device_iff hpointers hregistration hvalues hcall hinterface hforests ho
    | advertisement d =>
      refine iff_of_true ?_ trivial
      -- `Release` has no reply
      cases hfind : (objectData σ (.advertisement d)).methods.find?
          (fun method => message.isMethodCall method.interface method.method) with
      | none => exact returns_unknown hcall hinterface hfind
      | some row =>
        have hrow : row.call message σ = .ok (none, σ) := by
          rw [List.mem_singleton.mp (List.mem_of_find?_eq_some hfind)]
          rfl
        exact returns_of_call hcall hinterface hfind hrow
    | service s => exact iff_of_true (returns_unknown hcall hinterface rfl) trivial
    | descriptor k => exact iff_of_true (returns_unknown hcall hinterface rfl) trivial

/-- The dispatcher is safe on a message exactly when the message has an interface and, if it is a
method call, what the call needs is there: properties and objects that can be read, and an array
of a fixed-size type for `WriteValue`. -/
theorem dispatchSafe_iff {σ : State} (hreach : Reachable σ) {o : Obj}
    (ho : o ∈ σ.registeredObjects) {message : Message} (htyped : message.WellTyped) :
    DispatchSafe σ o message ↔ DispatchReady σ o message := by
  cases hsome : message.interface with
  | none =>
    refine iff_of_false ?_ ?_
    · rintro ⟨result, request, σ', hrun, -⟩
      exact not_returns_of_no_interface hsome ⟨_, hrun⟩
    · rintro ⟨interface, hinterface, -⟩
      rw [hsome] at hinterface
      cases hinterface
  | some interface =>
    rw [dispatchSafe_iff_returns hsome]
    have hready : DispatchReady σ o message ↔
        (message.type = .methodCall → CallReady σ o interface message) := by
      rw [DispatchReady, hsome]
      simp
    rw [hready]
    by_cases htype : message.type = .methodCall
    · rw [forall_prop_of_true htype]
      exact returns_call_iff hreach ho ⟨htype, hsome⟩ htyped
    · exact iff_of_true (returns_of_signal htype hsome) fun h => absurd h htype

/-- The theorem where a service is asked for all its properties. -/
theorem dispatchSafe_iff_getAll : DispatchSafe (State.after
    [.createDevice "lamp".toList, .createService "180F".toList,
      .add .service (fun _ _ => true) 0 0]) (.service 0)
    (getAllMessage none bluezGattServiceInterface) := by
  refine (dispatchSafe_iff (State.reachable_after (by decide) fun _ _ => trivial)
    (o := .service 0) (by decide) fun v hv => ?_).mpr ⟨dbusInterfaceProperties, rfl, fun _ => ?_⟩
  · rw [List.mem_singleton.mp hv]
    exact .string _
  · unfold CallReady
    rw [if_pos rfl]
    intro _
    refine ⟨fun hget => absurd hget (by decide), fun _ _ => ⟨List.not_mem_nil, ?_⟩⟩
    -- the UUID is UTF-8, and the path of the device a path
    refine (textsTaken_iff (show State.node _ .service 0 = .ok _ from rfl)).mpr ⟨?_, ?_⟩
    · decide
    · decide

/-- A method call without an interface is compared with one. -/
theorem not_dispatchSafe_no_interface : ¬ ∀ (σ : State) (o : Obj) (message : Message),
    Reachable σ → o ∈ σ.registeredObjects → message.WellTyped → DispatchSafe σ o message := by
  intro h
  obtain ⟨result, request, σ', hrun, -⟩ := h (State.after
    [.createDevice "lamp".toList, .createService "180F".toList,
      .add .service (fun _ _ => true) 0 0]) (.service 0)
    ⟨.methodCall, none, none, some dbusMethodGetAll, [.string bluezGattServiceInterface]⟩
    (State.reachable_after (by decide) fun _ _ => trivial) (by decide) fun v hv => by
      rw [List.mem_singleton.mp hv]
      exact .string _
  exact not_returns_of_no_interface rfl ⟨_, hrun⟩

end BleSim
