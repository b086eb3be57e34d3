import BleSim.Calls

/-!
# Answers to method calls

A method call is answered when its handler sends a reply, or leaves the message to the library,
which then answers with an error. This file finds out which calls of a registered object the
handler answers once, and shows that `Get` never answers with a value.
-/

namespace BleSim

open Outcomes WriteOnce DBusValue

/-! ## `Get` -/

/-- Whatever `Get` replies, the body is empty: the value goes into the request. -/
theorem dbusutilsObjectGet_reply {bus : Connection} {message request : Message}
    {object : ObjectData} {reply : Option Message}
    (h : dbusutilsObjectGet bus message object = .ok (reply, request)) :
    reply = none ∨ reply = some (methodReturn []) := by
  unfold dbusutilsObjectGet at h
  split at h
  · cases h
    exact Or.inl rfl
  · cases hreply : dbusMessageNewMethodReturn bus message with
    | none =>
      rw [hreply] at h
      cases h
      exact Or.inl rfl
    | some m =>
      rw [hreply] at h
      have hm : m = methodReturn [] := by
        unfold dbusMessageNewMethodReturn at hreply
        split_ifs at hreply
        exact (Option.some.inj hreply).symm
      simp only at h
      split at h
      · cases h
        exact Or.inr (congrArg some hm)
      · -- the value is appended to the request, and the reply stays empty
        obtain ⟨w₁, -, h⟩ := bind_eq_ok.mp h
        obtain ⟨w₂, -, h⟩ := bind_eq_ok.mp h
        obtain ⟨w₃, -, h⟩ := bind_eq_ok.mp h
        cases h
        exact Or.inr (congrArg some hm)

section Get

variable {bus : Connection} (hmemory : bus.outOfMemory = false) {message : Message}
  {interface name : CStr} (hbody : message.body = [.string interface, .string name])
  {object : ObjectData}

include hmemory hbody

/-- A name without a row in the table is answered with an empty reply. -/
theorem dbusutilsObjectGet_unknown
    (hnone : object.properties.find? (fun property => property.name = name) = none) :
    dbusutilsObjectGet bus message object = .ok (some (methodReturn []), message) := by
  have hname := getPropertyName_eq_some.mpr ⟨interface, hbody⟩
  simp only [dbusutilsObjectGet, hname, dbusMessageNewMethodReturn, hmemory, Bool.false_eq_true,
    ↓reduceIte, hnone]
  rfl

variable {property : Property}
  (hsome : object.properties.find? (fun property => property.name = name) = some property)

include hsome

/-- The value of a known property is appended to the request. -/
theorem dbusutilsObjectGet_known {v : DBusValue} (hget : Writes property.get v)
    (hvalid : v.validTexts = true) :
    dbusutilsObjectGet bus message object = .ok (some (methodReturn []),
      { message with body := message.body ++ [.variant property.signature v] }) := by
  have hname := getPropertyName_eq_some.mpr ⟨interface, hbody⟩
  simp only [dbusutilsObjectGet, hname, dbusMessageNewMethodReturn, hmemory, Bool.false_eq_true,
    ↓reduceIte, hsome]
  rw [Writer.openContainer_eq (Writer.zero_eq_depth _), ok_bind, hget.ok hvalid (by simp),
    ok_bind, Writer.closeContainer_variant (Writer.zero_eq_depth _) rfl]
  rfl

theorem dbusutilsObjectGet_fails (hget : Fails property.get) :
    ∃ e, dbusutilsObjectGet bus message object = .error e := by
  have hname := getPropertyName_eq_some.mpr ⟨interface, hbody⟩
  simp only [dbusutilsObjectGet, hname, dbusMessageNewMethodReturn, hmemory, Bool.false_eq_true,
    ↓reduceIte, hsome]
  rw [Writer.openContainer_eq (Writer.zero_eq_depth _), ok_bind]
  obtain ⟨e, he⟩ := hget _ _ (Writer.depth_opened _ _).symm
  exact ⟨e, by simp only; rw [he, error_bind]⟩

end Get

/-- A call of `Get`, as a caller sends it. -/
def getMessage (path : Option CStr) (interface name : CStr) : Message :=
  ⟨.methodCall, path, some dbusInterfaceProperties, some dbusMethodGet,
    [.string interface, .string name]⟩

/-- A call of `GetAll`. -/
def getAllMessage (path : Option CStr) (interface : CStr) : Message :=
  ⟨.methodCall, path, some dbusInterfaceProperties, some dbusMethodGetAll, [.string interface]⟩

/-- The reply to `GetAll` gives the value `v` for a property. -/
def GetAllGives (σ : State) (o : Obj) (path : Option CStr) (interface name : CStr)
    (v : DBusValue) : Prop :=
  ∃ result request σ' entries,
    dbusutilsObjectHandleMessage o (getAllMessage path interface) σ = .ok (result, request, σ') ∧
      σ'.bus.sent = σ.bus.sent ++ [methodReturn [.array "{sv}".toList entries]] ∧
      .dictEntry (.string name) v ∈ entries

/-- The caller gets an error: the handler sends one, or leaves that to the library. -/
def AnsweredWithError (result : HandlerResult) (σ σ' : State) : Prop :=
  (∃ reply, reply.type = .error ∧ σ'.bus.sent = σ.bus.sent ++ [reply]) ∨
    result = .notYetHandled ∧ σ'.bus.sent = σ.bus.sent

/-- `Get` is answered with the value `GetAll` gives for a property of the table and with an error
for any other name, and the request stays as it was. -/
def GetAgrees (σ : State) (o : Obj) (path : Option CStr) (interface name : CStr) : Prop :=
  ∃ result σ', dbusutilsObjectHandleMessage o (getMessage path interface name) σ
      = .ok (result, getMessage path interface name, σ') ∧
    if name ∈ (objectData σ o).properties.map Property.name then
      ∃ reply v, σ'.bus.sent = σ.bus.sent ++ [reply] ∧ reply.type = .methodReturn ∧
        reply.body = [v] ∧ GetAllGives σ o path interface name v
    else AnsweredWithError result σ σ'

/-- `Get` never agrees with `GetAll`: a reply to it is an empty method return. -/
theorem get_never_agrees (σ : State) (o : Obj) (path : Option CStr) (interface name : CStr) :
    ¬ GetAgrees σ o path interface name := by
  rintro ⟨result, σ', hhandle, hagrees⟩
  obtain ⟨⟨sent, request⟩, hget, heq⟩ := bind_eq_ok.mp hhandle
  simp only [Except.ok.injEq, Prod.mk.injEq] at heq
  obtain ⟨rfl, -, rfl⟩ := heq
  -- whatever the property is, the reply is empty
  have hreply : ∀ {reply : Message},
      (sendReply sent σ).bus.sent = σ.bus.sent ++ [reply] → reply = methodReturn [] := by
    intro reply hsent
    rcases dbusutilsObjectGet_reply hget with rfl | rfl
    · -- nothing was sent at all
      have hnil : [reply] = [] := List.self_eq_append_right.mp hsent
      cases hnil
    · simpa [sendReply, dbusConnectionSend] using hsent.symm
  split_ifs at hagrees
  · obtain ⟨reply, v, hsent, -, hbody, -⟩ := hagrees
    rw [hreply hsent] at hbody
    cases hbody
  · obtain ⟨reply, htype, hsent⟩ | ⟨hresult, -⟩ := hagrees
    · rw [hreply hsent] at htype
      cases htype
    · cases hresult

/-- A service that has been added to a device does not tell its UUID. -/
theorem not_getAgrees_uuid : ¬ ∀ (σ : State) (o : Obj) (path : Option CStr)
    (interface name : CStr), Reachable σ → o ∈ σ.registeredObjects →
      GetAgrees σ o path interface name := by
  intro h
  obtain ⟨result, σ', hhandle, hagrees⟩ := h (State.after
    [.createDevice "lamp".toList, .createService "180F".toList,
      .add .service (fun _ _ => true) 0 0]) (.service 0) none bluezGattServiceInterface
    blePropertyUuid (State.reachable_after (by decide) fun _ _ => trivial) (by decide)
  rw [if_pos (by decide)] at hagrees
  obtain ⟨reply, v, hsent, -, hbody, -⟩ := hagrees
  have hempty : (dbusutilsObjectHandleMessage (.service 0)
      (getMessage none bluezGattServiceInterface blePropertyUuid) (State.after
        [.createDevice "lamp".toList, .createService "180F".toList,
          .add .service (fun _ _ => true) 0 0])).map
      (fun r => r.2.2.bus.sent.map fun m => m.body.isEmpty) = .ok [true] := by
    decide
  rw [hhandle] at hempty
  have hnone : (State.after [.createDevice "lamp".toList, .createService "180F".toList,
      .add .service (fun _ _ => true) 0 0]).bus.sent = [] := rfl
  simp only [Except.map, hsent, hnone, List.nil_append, List.map_cons, List.map_nil,
    hbody] at hempty
  cases hempty

/-! ## Exactly one answer -/

/-- The handler sends one reply and says so, or sends nothing and leaves the answer to the
library. -/
def AnsweredOnce (σ : State) (o : Obj) (message : Message) : Prop :=
  ∃ result request σ', dbusutilsObjectHandleMessage o message σ = .ok (result, request, σ') ∧
    ((result = .handled ∧ ∃ reply, (reply.type = .methodReturn ∨ reply.type = .error) ∧
        σ'.bus.sent = σ.bus.sent ++ [reply]) ∨
      result = .notYetHandled ∧ σ'.bus.sent = σ.bus.sent)

/-- The calls of the `Properties` interface that are answered: `Get` of two strings, if the
property can be read, `GetAll`, if all properties can, and never `Set`. -/
structure PropertiesAnswerable (σ : State) (o : Obj) (message : Message) : Prop where
  get : message.member = some dbusMethodGet → ∃ interface name,
    message.body = [.string interface, .string name] ∧
      (name ∈ (objectData σ o).properties.map Property.name → Gettable σ o name)
  set : message.member ≠ some dbusMethodSet
  getAll : message.member = some dbusMethodGetAll → (∀ d, o ≠ .device d) → Presentable σ o

/-- The calls of methods in the table of a characteristic that are answered. -/
structure CharacteristicAnswerable (σ : State) (c : ℕ) (message : Message) : Prop where
  read : message.member = some bluezMethodReadValue → Complete σ (.characteristic c)
  write : message.member = some bluezMethodWriteValue → WriteAnswerable σ c message
  notify : message.member = some bluezMethodStartNotify ∨
    message.member = some bluezMethodStopNotify → .characteristic c ∉ σ.finalised

/-- The calls that are answered. -/
def Answerable (σ : State) (o : Obj) (interface : CStr) (message : Message) : Prop :=
  if interface = dbusInterfaceProperties then PropertiesAnswerable σ o message
  else
    match o with
    | .characteristic c =>
      interface = bluezGattCharacteristicInterface → CharacteristicAnswerable σ c message
    | .device d =>
      interface = dbusInterfaceObjectManager ∧
        message.member = some dbusMethodGetManagedObjects →
        .device d ∉ σ.finalised ∧ ∀ o, Managed σ d o → Describable σ o
    | _ => True

theorem answeredOnce_of_reply {σ σ' : State} {o : Obj} {message request : Message}
    {body : List DBusValue} (hsent : σ'.bus.sent = σ.bus.sent)
    (h : dbusutilsObjectHandleMessage o message σ
      = .ok (.handled, request, sendReply (some (methodReturn body)) σ')) :
    AnsweredOnce σ o message :=
  ⟨_, _, _, h, Or.inl ⟨rfl, methodReturn body, Or.inl rfl, by
    rw [sendReply, dbusConnectionSend, hsent]⟩⟩

theorem answeredOnce_of_left {σ : State} {o : Obj} {message : Message}
    (h : dbusutilsObjectHandleMessage o message σ = .ok (.notYetHandled, message, σ)) :
    AnsweredOnce σ o message := ⟨_, _, _, h, Or.inr ⟨rfl, rfl⟩⟩

/-- A message that counts as handled although nothing was sent is not answered. -/
theorem not_answeredOnce_of_silent {σ : State} {o : Obj} {message request : Message}
    (h : dbusutilsObjectHandleMessage o message σ = .ok (.handled, request, σ)) :
    ¬ AnsweredOnce σ o message := by
  rintro ⟨result, request', σ', hhandle, hanswer⟩
  rw [h] at hhandle
  cases hhandle
  rcases hanswer with ⟨-, reply, -, hsent⟩ | ⟨hresult, -⟩
  · have hnil : [reply] = [] := List.self_eq_append_right.mp hsent
    cases hnil
  · cases hresult

theorem not_answeredOnce_of_error {σ : State} {o : Obj} {message : Message} {e : Fault}
    (h : dbusutilsObjectHandleMessage o message σ = .error e) : ¬ AnsweredOnce σ o message := by
  rintro ⟨result, request, σ', hhandle, -⟩
  rw [h] at hhandle
  cases hhandle

section Answers

variable {σ : State} (hpointers : PointersInv σ) (hregistration : RegistrationInv σ)
  (hvalues : ValuesInv σ) (hmemory : σ.bus.outOfMemory = false) {o : Obj}
  (ho : o ∈ σ.registeredObjects) {message : Message}

section Properties

/-- `Set` is handled without a reply. -/
theorem not_answeredOnce_set (hcall : message.IsCall dbusInterfaceProperties)
    (hmember : message.member = some dbusMethodSet) : ¬ AnsweredOnce σ o message := by
  have hget : message.isMethodCall dbusInterfaceProperties dbusMethodGet = false := by
    rw [← Bool.not_eq_true, hcall.isMethodCall_iff, hmember]
    decide
  have hhandle : dbusutilsObjectHandleMessage o message σ = .ok (.handled, message, σ) := by
    rw [handle_properties hcall, handlePropertiesInterface, hget,
      if_pos (hcall.isMethodCall_iff.mpr ⟨hmember, rfl⟩)]
    rfl
  exact not_answeredOnce_of_silent hhandle

include hpointers hregistration hvalues hmemory ho

variable (message) in
/-- `Get` of two strings has an empty reply, or fails at a property that cannot be read; other
arguments have no reply. -/
theorem dbusutilsObjectGet_cases :
    (getPropertyNameFromPropertiesGetMessage message = none ∧
      dbusutilsObjectGet σ.bus message (objectData σ o) = .ok (none, message)) ∨
    ∃ interface name, message.body = [.string interface, .string name] ∧
      (((name ∈ (objectData σ o).properties.map Property.name → Gettable σ o name) ∧
        ∃ request, dbusutilsObjectGet σ.bus message (objectData σ o) =
          .ok (some (methodReturn []), request)) ∨
      (¬ (name ∈ (objectData σ o).properties.map Property.name → Gettable σ o name) ∧
        ∃ e, dbusutilsObjectGet σ.bus message (objectData σ o) = .error e)) := by
  cases hname : getPropertyNameFromPropertiesGetMessage message with
  | none =>
    -- the arguments are not two strings, and nothing is sent
    exact Or.inl ⟨rfl, by simp [dbusutilsObjectGet, hname]⟩
  | some name =>
    obtain ⟨interface, hbody⟩ := getPropertyName_eq_some.mp hname
    refine Or.inr ⟨interface, name, hbody, ?_⟩
    cases hfind : (objectData σ o).properties.find? (fun property => property.name = name) with
    | none =>
      -- an unknown property gets an empty reply
      refine Or.inl ⟨fun hmem => ?_, message, dbusutilsObjectGet_unknown hmemory hbody hfind⟩
      obtain ⟨p, hp, rfl⟩ := List.mem_map.mp hmem
      simpa using List.find?_eq_none.mp hfind p hp
    | some p =>
      have hp := List.mem_of_find?_eq_some hfind
      obtain rfl : p.name = name := by simpa using List.find?_some hfind
      obtain ⟨hready, v, hv, hvalid⟩ | ⟨hnot, hfails⟩ :=
        (objectData_decides hpointers hregistration hvalues ho p hp).cases
      · exact Or.inl ⟨fun _ => hready, _, dbusutilsObjectGet_known hmemory hbody hfind hv hvalid⟩
      · exact Or.inr ⟨fun himp => hnot (himp (List.mem_map_of_mem hp)),
          dbusutilsObjectGet_fails hmemory hbody hfind hfails⟩

variable (message) in
/-- `GetAll` has a reply if the object can be told about, and else fails. -/
theorem dbusutilsObjectGetAll_cases :
    (((∀ d, o ≠ .device d) → Presentable σ o) ∧
      ∃ v, dbusutilsObjectGetAll σ.bus message (objectData σ o) = .ok (some (methodReturn [v]))) ∨
    (¬ ((∀ d, o ≠ .device d) → Presentable σ o) ∧
      ∃ e, dbusutilsObjectGetAll σ.bus message (objectData σ o) = .error e) := by
  rw [← forall_gettable_iff]
  -- the reply is complete, or a getter of the table fails
  obtain ⟨hready, v, hv, hvalid⟩ | ⟨hnot, hfails⟩ :=
    (dbusutilsGetObjectPropertyData_decides (validUtf8_names σ o)
      (objectData_decides hpointers hregistration hvalues ho)).cases
  · refine Or.inl ⟨hready, v, ?_⟩
    rw [dbusutilsObjectGetAll_writes hmemory hv, replyWith, if_pos hvalid]
    rfl
  · obtain ⟨e, he⟩ := hfails _ _ (Writer.zero_eq_depth [])
    refine Or.inr ⟨hnot, e, ?_⟩
    simp only [dbusutilsObjectGetAll, dbusMessageNewMethodReturn, hmemory, Bool.false_eq_true,
      ↓reduceIte]
    rw [he, error_bind]

variable (hcall : message.IsCall dbusInterfaceProperties)

include hcall

theorem answeredOnce_get_iff (hmember : message.member = some dbusMethodGet) :
    AnsweredOnce σ o message ↔ ∃ interface name,
      message.body = [.string interface, .string name] ∧
        (name ∈ (objectData σ o).properties.map Property.name → Gettable σ o name) := by
  have hhandle := handle_get (o := o) (σ := σ) hcall hmember
  obtain ⟨hname, hget⟩ | ⟨interface, name, hbody, hcases⟩ :=
    dbusutilsObjectGet_cases hpointers hregistration hvalues hmemory ho message
  · rw [hget, ok_bind] at hhandle
    refine iff_of_false (not_answeredOnce_of_silent hhandle) ?_
    rintro ⟨interface, name, hbody, -⟩
    rw [getPropertyName_eq_some.mpr ⟨interface, hbody⟩] at hname
    cases hname
  · obtain ⟨hready, request, hget⟩ | ⟨hnot, e, hget⟩ := hcases
    · rw [hget, ok_bind] at hhandle
      exact iff_of_true (answeredOnce_of_reply rfl hhandle) ⟨interface, name, hbody, hready⟩
    · rw [hget, error_bind] at hhandle
      refine iff_of_false (not_answeredOnce_of_error hhandle) ?_
      rintro ⟨interface', name', hbody', hready⟩
      rw [hbody] at hbody'
      cases hbody'
      exact hnot hready

theorem answeredOnce_getAll_iff (hmember : message.member = some dbusMethodGetAll) :
    AnsweredOnce σ o message ↔ ((∀ d, o ≠ .device d) → Presentable σ o) := by
  have hhandle := handle_getAll (o := o) (σ := σ) hcall hmember
  obtain ⟨hready, v, hgetAll⟩ | ⟨hnot, e, hgetAll⟩ :=
    dbusutilsObjectGetAll_cases hpointers hregistration hvalues hmemory ho message
  · rw [hgetAll, ok_bind] at hhandle
    exact iff_of_true (answeredOnce_of_reply rfl hhandle) hready
  · rw [hgetAll, error_bind] at hhandle
    exact iff_of_false (not_answeredOnce_of_error hhandle) hnot

theorem answeredOnce_properties_iff :
    AnsweredOnce σ o message ↔ PropertiesAnswerable σ o message := by
  by_cases hget : message.member = some dbusMethodGet
  · rw [answeredOnce_get_iff hpointers hregistration hvalues hmemory ho hcall hget]
    refine ⟨fun h => ⟨fun _ => h, ?_, ?_⟩, fun h => h.get hget⟩
    · rw [hget]
      decide
    · rw [hget]
      exact fun heq => absurd heq (by decide)
  · by_cases hset : message.member = some dbusMethodSet
    · -- `Set` is claimed as handled and never answered
      exact iff_of_false (not_answeredOnce_set hcall hset) fun h => h.set hset
    · by_cases hgetAll : message.member = some dbusMethodGetAll
      · rw [answeredOnce_getAll_iff hpointers hregistration hvalues hmemory ho hcall hgetAll]
        exact ⟨fun h => ⟨fun heq => absurd heq hget, hset, fun _ => h⟩, fun h => h.getAll hgetAll⟩
      · -- any other member is left to libdbus, which replies with an error
        refine iff_of_true (answeredOnce_of_left ?_)
          ⟨fun heq => absurd heq hget, hset, fun heq => absurd heq hgetAll⟩
        have hnot : ∀ {method : CStr}, message.member ≠ some method →
            message.isMethodCall dbusInterfaceProperties method = false := by
          intro method hne
          rw [← Bool.not_eq_true, hcall.isMethodCall_iff]
          exact fun h => hne h.1
        rw [handle_properties hcall, handlePropertiesInterface, hnot hget, hnot hset, hnot hgetAll]
        rfl

end Properties

section Methods

variable {interface : CStr} (hcall : message.IsCall interface)
  (hinterface : interface ≠ dbusInterfaceProperties)

include hcall hinterface

/-- A method that is not in the table is left to the library. -/
theorem answeredOnce_unknown (hnone : (objectData σ o).methods.find?
    (fun method => message.isMethodCall method.interface method.method) = none) :
    AnsweredOnce σ o message := answeredOnce_of_left (handle_unknown hcall hinterface hnone)

section Found

variable {row : Method} (hsome : (objectData σ o).methods.find?
  (fun method => message.isMethodCall method.interface method.method) = some row)

include hsome

theorem answeredOnce_of_call {body : List DBusValue} {σ' : State}
    (h : row.call message σ = .ok (some (methodReturn body), σ'))
    (hsent : σ'.bus.sent = σ.bus.sent) : AnsweredOnce σ o message :=
  answeredOnce_of_reply hsent (handle_reply hcall hinterface hsome h)

theorem answeredOnce_of_no_reply (h : row.call message σ = .ok (none, σ)) :
    AnsweredOnce σ o message :=
  answeredOnce_of_left (handle_no_reply hcall hinterface hsome h)

theorem not_answeredOnce_of_call {e : Fault} (h : row.call message σ = .error e) :
    ¬ AnsweredOnce σ o message :=
  not_answeredOnce_of_error (handle_error hcall hinterface hsome h)

end Found

end Methods

end Answers

section Rows

variable {σ : State} (hmemory : σ.bus.outOfMemory = false) {message : Message}
  (hcall : message.IsCall bluezGattCharacteristicInterface) {c : ℕ}

include hmemory hcall in
theorem answeredOnce_readValue_iff (hvalues : ValuesInv σ)
    (hread : message.member = some bluezMethodReadValue) :
    AnsweredOnce σ (.characteristic c) message ↔ Complete σ (.characteristic c) := by
  have hfind := find_readValue hcall (σ := σ) (c := c) hread
  by_cases hready : Complete σ (.characteristic c)
  · obtain ⟨y, hy, hmax⟩ := hready
    exact iff_of_true (answeredOnce_of_call hcall (by decide) hfind
      (characteristicReadValue_eq hmemory hvalues hy hmax) rfl) ⟨y, hy, hmax⟩
  · obtain ⟨e, he⟩ : ∃ e, characteristicReadValue c message σ = .error e :=
      characteristicReadValue_fails hmemory hvalues hready
    exact iff_of_false (not_answeredOnce_of_call hcall (by decide) hfind he) hready

include hmemory hcall in
theorem answeredOnce_writeValue_iff {x : Characteristic} (hget : σ.characteristics[c]? = some x)
    (htyped : message.WellTyped) (hwrite : message.member = some bluezMethodWriteValue) :
    AnsweredOnce σ (.characteristic c) message ↔ WriteAnswerable σ c message := by
  have hfind := find_writeValue hcall (σ := σ) (c := c) hwrite
  obtain ⟨hready, hrun | ⟨σ', hrun, hsent⟩⟩ | ⟨hnot, e, he⟩ :=
    characteristicWriteValue_cases hget htyped
  · exact iff_of_true (answeredOnce_of_no_reply hcall (by decide) hfind hrun) hready
  · rw [dbusMessageNewMethodReturn_eq hmemory] at hrun
    exact iff_of_true (answeredOnce_of_call hcall (by decide) hfind hrun hsent) hready
  · exact iff_of_false (not_answeredOnce_of_call hcall (by decide) hfind he) hnot

include hmemory hcall in
/-- `StartNotify` and `StopNotify`. -/
theorem answeredOnce_notify_iff {x : Characteristic} (hget : σ.characteristics[c]? = some x)
    (hnotify : message.member = some bluezMethodStartNotify ∨
      message.member = some bluezMethodStopNotify) :
    AnsweredOnce σ (.characteristic c) message ↔ Obj.characteristic c ∉ σ.finalised := by
  obtain ⟨row, notifying, hfind, hrow⟩ := find_switch hcall (σ := σ) (c := c) hnotify
  by_cases hfin : Obj.characteristic c ∈ σ.finalised
  · have herror := hrow.trans (characteristicSwitch_finalised hfin notifying)
    exact iff_of_false (not_answeredOnce_of_call hcall (by decide) hfind herror)
      (not_not.mpr hfin)
  · have hrun : characteristicSwitch c notifying message σ = _ :=
      characteristicSwitch_eq (State.characteristic_eq_ok.mpr ⟨hfin, hget⟩) notifying
    rw [dbusMessageNewMethodReturn_eq hmemory] at hrun
    exact iff_of_true (answeredOnce_of_call hcall (by decide) hfind (hrow.trans hrun) rfl) hfin

end Rows

/-- A message with another interface, or none of the four members, matches no row. -/
theorem find_characteristicMethods_none {message : Message} {interface : CStr}
    (hcall : message.IsCall interface) {c : ℕ}
    (hnone : interface = bluezGattCharacteristicInterface →
      message.member ≠ some bluezMethodReadValue ∧ message.member ≠ some bluezMethodWriteValue ∧
      message.member ≠ some bluezMethodStartNotify ∧
      message.member ≠ some bluezMethodStopNotify) :
    (characteristicMethods c).find?
      (fun method => message.isMethodCall method.interface method.method) = none := by
  apply List.find?_eq_none.mpr
  intro row hrow hmatch
  obtain ⟨hmember, hinterface⟩ := hcall.isMethodCall_iff.mp hmatch
  simp only [characteristicMethods, List.mem_cons, List.not_mem_nil, or_false] at hrow
  rcases hrow with rfl | rfl | rfl | rfl
  · exact (hnone hinterface).1 hmember
  · exact (hnone hinterface).2.1 hmember
  · exact (hnone hinterface).2.2.1 hmember
  · exact (hnone hinterface).2.2.2 hmember

/-- At most one of three conditions is about a message, since the four members differ. -/
theorem characteristic_member_iff (message : Message) {P R W N : Prop}
    (hread : message.member = some bluezMethodReadValue → (P ↔ R))
    (hwrite : message.member = some bluezMethodWriteValue → (P ↔ W))
    (hnotify : message.member = some bluezMethodStartNotify ∨
      message.member = some bluezMethodStopNotify → (P ↔ N))
    (hother : message.member ≠ some bluezMethodReadValue →
      message.member ≠ some bluezMethodWriteValue →
      message.member ≠ some bluezMethodStartNotify →
      message.member ≠ some bluezMethodStopNotify → P) :
    P ↔ (message.member = some bluezMethodReadValue → R) ∧
      (message.member = some bluezMethodWriteValue → W) ∧
      (message.member = some bluezMethodStartNotify ∨
        message.member = some bluezMethodStopNotify → N) := by
  have hdiffer : ∀ {m m' : CStr}, message.member = some m → m ≠ m' →
      message.member ≠ some m' := by
    intro m m' hm hne heq
    exact hne (Option.some.inj (hm.symm.trans heq))
  by_cases hr : message.member = some bluezMethodReadValue
  · rw [hread hr]
    refine ⟨fun h => ⟨fun _ => h, fun hm => ?_, fun hm => ?_⟩, fun h => h.1 hr⟩
    · exact absurd hm (hdiffer hr (by decide))
    · exact absurd hm (not_or.mpr ⟨hdiffer hr (by decide), hdiffer hr (by decide)⟩)
  by_cases hw : message.member = some bluezMethodWriteValue
  · rw [hwrite hw]
    refine ⟨fun h => ⟨fun hm => absurd hm hr, fun _ => h, fun hm => ?_⟩, fun h => h.2.1 hw⟩
    exact absurd hm (not_or.mpr ⟨hdiffer hw (by decide), hdiffer hw (by decide)⟩)
  by_cases hn : message.member = some bluezMethodStartNotify ∨
      message.member = some bluezMethodStopNotify
  · rw [hnotify hn]
    exact ⟨fun h => ⟨fun hm => absurd hm hr, fun hm => absurd hm hw, fun _ => h⟩,
      fun h => h.2.2 hn⟩
  · obtain ⟨hstart, hstop⟩ := not_or.mp hn
    exact iff_of_true (hother hr hw hstart hstop)
      ⟨fun hm => absurd hm hr, fun hm => absurd hm hw, fun hm => absurd hm hn⟩

/-- The table of a device has one method. -/
theorem find_deviceMethods_none {message : Message} {interface : CStr}
    (hcall : message.IsCall interface) {σ : State} {d : ℕ}
    (hother : ¬ (interface = dbusInterfaceObjectManager ∧
      message.member = some dbusMethodGetManagedObjects)) :
    (objectData σ (.device d)).methods.find?
      (fun method => message.isMethodCall method.interface method.method) = none := by
  apply List.find?_eq_none.mpr
  intro row hrow hmatch
  rw [List.mem_singleton.mp hrow] at hmatch
  obtain ⟨hmember, hinterface⟩ := hcall.isMethodCall_iff.mp hmatch
  exact hother ⟨hinterface, hmember⟩

/-- `GetManagedObjects` has a reply if the device is there and everything below it can be told
about, and else fails. -/
theorem deviceGetManagedObjects_cases {σ : State} (hpointers : PointersInv σ)
    (hvalues : ValuesInv σ) {children : Kind → ℕ → List ℕ} (hforests : Forests σ children)
    (hmemory : σ.bus.outOfMemory = false) {d : ℕ} (hlt : d < σ.devices.length)
    (message : Message) :
    ((Obj.device d ∉ σ.finalised ∧ ∀ o, Managed σ d o → Describable σ o) ∧
      ∃ body, deviceGetManagedObjects d message σ = .ok (some (methodReturn body), σ)) ∨
    (¬ (Obj.device d ∉ σ.finalised ∧ ∀ o, Managed σ d o → Describable σ o) ∧
      ∃ e, deviceGetManagedObjects d message σ = .error e) := by
  by_cases hfin : Obj.device d ∈ σ.finalised
  · have hx : σ.device d = .error .noObject := by simp [State.device, State.access, hfin]
    exact Or.inr ⟨fun h => h.1 hfin, _, deviceGetManagedObjects_noDevice hmemory hx message⟩
  · have hx : σ.device d = .ok σ.devices[d] :=
      State.device_eq_ok.mpr ⟨hfin, List.getElem?_eq_getElem hlt⟩
    -- the reply is complete, or one of the objects below cannot be told
    obtain ⟨hready, hrun⟩ | ⟨hnot, hfails⟩ :=
      deviceGetManagedObjects_decides hpointers hvalues hforests hx hmemory message
    · exact Or.inl ⟨⟨hfin, fun o hmanaged => hready o (hforests.managed_iff.mp hmanaged)⟩, _,
        hrun⟩
    · exact Or.inr ⟨fun h => hnot fun o hmem => h.2 o (hforests.managed_iff.mpr hmem), hfails⟩

/-- A registered characteristic has a row in the table of characteristics. -/
theorem exists_of_registered {σ : State} (hpointers : PointersInv σ)
    (hregistration : RegistrationInv σ) {c : ℕ}
    (ho : Obj.characteristic c ∈ σ.registeredObjects) : ∃ x, σ.characteristics[c]? = some x := by
  obtain ⟨n, hn, -⟩ := published_of_registered hpointers hregistration .characteristic ho
  simp only [State.nodes, List.getElem?_map, Option.map_eq_some_iff] at hn
  obtain ⟨x, hget, -⟩ := hn
  exact ⟨x, hget⟩

section Main

variable {σ : State} (hpointers : PointersInv σ) (hregistration : RegistrationInv σ)
  (hvalues : ValuesInv σ) (hmemory : σ.bus.outOfMemory = false) {message : Message}
  {interface : CStr} (hcall : message.IsCall interface)
  (hinterface : interface ≠ dbusInterfaceProperties)

include hpointers hregistration hvalues hmemory hcall hinterface

/-- The rows of the method table of a characteristic, selected by interface and member. -/
theorem answeredOnce_characteristic_iff {c : ℕ}
    (ho : Obj.characteristic c ∈ σ.registeredObjects) (htyped : message.WellTyped) :
    AnsweredOnce σ (.characteristic c) message ↔
      (interface = bluezGattCharacteristicInterface → CharacteristicAnswerable σ c message) := by
  obtain ⟨x, hget⟩ := exists_of_registered hpointers hregistration ho
  by_cases hgatt : interface = bluezGattCharacteristicInterface
  · subst hgatt
    rw [forall_prop_of_true rfl]
    have hiff := characteristic_member_iff message
      (answeredOnce_readValue_iff hmemory hcall (c := c) hvalues)
      (answeredOnce_writeValue_iff hmemory hcall hget htyped)
      (answeredOnce_notify_iff hmemory hcall hget)
      fun hread hwrite hstart hstop => answeredOnce_unknown hcall hinterface
        (find_characteristicMethods_none hcall fun _ => ⟨hread, hwrite, hstart, hstop⟩)
    rw [hiff]
    exact ⟨fun h => ⟨h.1, h.2.1, h.2.2⟩, fun h => ⟨h.read, h.write, h.notify⟩⟩
  · have hnone := find_characteristicMethods_none hcall (c := c) fun heq => absurd heq hgatt
    exact iff_of_true (answeredOnce_unknown hcall hinterface hnone) fun h => absurd h hgatt

theorem answeredOnce_device_iff {children : Kind → ℕ → List ℕ} (hforests : Forests σ children)
    {d : ℕ} (ho : Obj.device d ∈ σ.registeredObjects) :
    AnsweredOnce σ (.device d) message ↔
      (interface = dbusInterfaceObjectManager ∧
        message.member = some dbusMethodGetManagedObjects →
        Obj.device d ∉ σ.finalised ∧ ∀ o, Managed σ d o → Describable σ o) := by
  obtain ⟨path, hmem⟩ := mem_registeredObjects.mp ho
  have hlt := (hregistration.devices d path hmem).2
  by_cases hmember : interface = dbusInterfaceObjectManager ∧
      message.member = some dbusMethodGetManagedObjects
  · have hfind := find_getManagedObjects (σ := σ) (d := d) (hmember.1 ▸ hcall) hmember.2
    rw [forall_prop_of_true hmember]
    obtain ⟨hready, body, hrun⟩ | ⟨hnot, e, he⟩ :=
      deviceGetManagedObjects_cases hpointers hvalues hforests hmemory hlt message
    · exact iff_of_true (answeredOnce_of_call hcall hinterface hfind hrun rfl) hready
    · exact iff_of_false (not_answeredOnce_of_call hcall hinterface hfind he) hnot
  · exact iff_of_true (answeredOnce_unknown hcall hinterface
      (find_deviceMethods_none hcall hmember)) fun h => absurd h hmember

end Main

/-- When a registered object answers a method call exactly once: `Set` is never answered, `Get`
only if it has two string arguments, `WriteValue` only if its first argument is an array of a
fixed-size type, and no value longer than a D-Bus array and no finalised object may be read. -/
theorem answeredOnce_iff {σ : State} (hreach : Reachable σ) (hmemory : σ.bus.outOfMemory = false)
    {o : Obj} (ho : o ∈ σ.registeredObjects) {message : Message} {interface : CStr}
    (hcall : message.IsCall interface) (htyped : message.WellTyped) :
    AnsweredOnce σ o message ↔ Answerable σ o interface message := by
  have hpointers := PointersInv.of_reachable hreach
  have hregistration := RegistrationInv.of_reachable hreach
  have hvalues := ValuesInv.of_reachable hreach
  obtain ⟨children, hforests⟩ := Forests.of_reachable hreach
  unfold Answerable
  split_ifs with hinterface
  · subst hinterface
    exact answeredOnce_properties_iff hpointers hregistration hvalues hmemory ho hcall
  · cases o with
    | characteristic c =>
      exact answeredOnce_characteristic_iff hpointers hregistration hvalues hmemory hcall hinterface
        ho htyped
    | device d =>
      exact answeredOnce_device_iff hpointers hregistration hvalues hmemory hcall hinterface
        hforests ho
    | advertisement d =>
      refine iff_of_true ?_ trivial
      -- `Release` has no reply, so that the library answers it
      cases hfind : (objectData σ (.advertisement d)).methods.find?
          (fun method => message.isMethodCall method.interface method.method) with
      | none => exact answeredOnce_unknown hcall hinterface hfind
      | some row =>
        refine answeredOnce_of_no_reply hcall hinterface hfind ?_
        rw [List.mem_singleton.mp (List.mem_of_find?_eq_some hfind)]
        rfl
    | service s => exact iff_of_true (answeredOnce_unknown hcall hinterface rfl) trivial
    | descriptor k => exact iff_of_true (answeredOnce_unknown hcall hinterface rfl) trivial

/-- The theorem where a service is asked for all its properties. -/
theorem answeredOnce_iff_getAll : AnsweredOnce (State.after
    [.createDevice "lamp".toList, .createService "180F".toList,
      .add .service (fun _ _ => true) 0 0]) (.service 0)
    (getAllMessage none bluezGattServiceInterface) := by
  refine (answeredOnce_iff (State.reachable_after (by decide) fun _ _ => trivial) rfl
    (o := .service 0) (by decide) ⟨rfl, rfl⟩ fun v hv => ?_).mpr ?_
  · rw [List.mem_singleton.mp hv]
    exact .string _
  · refine ⟨fun hget => absurd hget (by decide), by decide, fun _ _ => ⟨List.not_mem_nil, ?_⟩⟩
    -- the UUID is UTF-8, and the path of the device a path
    refine (textsTaken_iff (show State.node _ .service 0 = .ok _ from rfl)).mpr ⟨?_, ?_⟩
    · decide
    · decide

/-- A call of `Set` is never answered. -/
theorem not_answeredOnce_of_set : ¬ ∀ (σ : State) (o : Obj) (message : Message) (interface : CStr),
    Reachable σ → σ.bus.outOfMemory = false → o ∈ σ.registeredObjects →
      message.IsCall interface → message.WellTyped → AnsweredOnce σ o message := by
  intro h
  refine not_answeredOnce_set (σ := State.after [.createDevice "lamp".toList,
    .createService "180F".toList, .add .service (fun _ _ => true) 0 0]) (o := .service 0)
    ⟨rfl, rfl⟩ rfl (h _ _ ⟨.methodCall, none, some dbusInterfaceProperties, some dbusMethodSet, []⟩
      _ (State.reachable_after (by decide) fun _ _ => trivial) rfl (by decide) ⟨rfl, rfl⟩ ?_)
  exact fun v hv => by cases hv

end BleSim
