import BleSim.EncodingTheorems

/-!
# Where signals come from

`characteristic_update_value` asks for a `PropertiesChanged` signal as soon as the value changes
while `notifying` is set, whether or not the characteristic has a path. Only `setValue` calls it,
and nothing else sends signals (`exec_sends`). Paths and attachment are set together by the add
functions, so the signal of an attached characteristic comes from a registered path, and the one of
any other does not.
-/

namespace BleSim

open Outcomes WriteOnce

/-! ## Asking for a signal -/

/-- The path `characteristic_update_value` hands to `dbusutils`, if it gets that far. -/
def askedPath (σ : State) (x : Characteristic) (newValue : Bytes) (valueSize : UInt32) :
    Option (Ptr CStr) :=
  if isNewValue σ x newValue valueSize ∧ x.notifying then some x.node.objectPath else none

/-- Storing a value changes neither the flag nor the path. -/
theorem Stores.asked {c : ℕ} {data : Bytes} {size : UInt32} {σ σ' : State}
    (h : Stores c data size σ σ') {x : Characteristic} (hx : σ.characteristic c = .ok x) :
    ∃ x', σ'.characteristic c = .ok x' ∧ x'.notifying = x.notifying ∧ x'.node = x.node := by
  obtain ⟨y, value, valueSize, buffers, hy, rfl, -⟩ := h.fields
  obtain rfl : x = y := by simpa using hx.symm.trans hy
  exact ⟨_, State.characteristic_modify _ hx rfl rfl, rfl, rfl⟩

/-- An update stores a new value and then sends a signal from the path asked for, if any. -/
theorem characteristicUpdateValue_eq {σ : State} {c : ℕ} {x : Characteristic}
    (hx : σ.characteristic c = .ok x) (newValue : Bytes) (dataSize : ℕ) :
    characteristicUpdateValue c newValue dataSize σ =
      if isNewValue σ x newValue (UInt32.ofNat dataSize) then do
        let σ₁ ← characteristicSetValue c (some newValue) (UInt32.ofNat dataSize) σ
        match askedPath σ x newValue (UInt32.ofNat dataSize) with
        | none => .ok σ₁
        | some path => do
          let x₁ ← σ₁.characteristic c
          let bus ← dbusutilsSendObjectPropertiesChangedSignal σ₁.strings path
            bluezGattCharacteristicInterface
            [⟨blePropertyValue, ['a', 'y'], characteristicGetValue σ₁ x₁⟩] σ₁.bus
          .ok { σ₁ with bus }
      else .ok σ := by
  unfold characteristicUpdateValue askedPath
  simp only [hx, ok_bind]
  cases hnew : isNewValue σ x newValue (UInt32.ofNat dataSize) with
  | false => rfl
  | true =>
    simp only [Bool.not_true, Bool.false_eq_true, ↓reduceIte, true_and]
    cases hset : characteristicSetValue c (some newValue) (UInt32.ofNat dataSize) σ with
    | error e => rfl
    | ok σ₁ =>
      -- storing the value keeps the flag and the path that the signal is sent with
      obtain ⟨x₁, hx₁, hflag, hnode⟩ := (characteristicSetValue_stores hset).asked hx
      simp only [ok_bind, hx₁, hflag, hnode]
      cases x.notifying <;> rfl

/-- A step asks for a signal about a characteristic from a path: only `setValue` updates values,
with what the value has been converted to. -/
def Op.AsksSignal (op : Op) (σ : State) (c : ℕ) (path : Ptr CStr) : Prop :=
  ∃ v t type d buffers x, op = .setValue c v t ∧ luaiCheckTypeBleDataType t = .ret type ∧
    luaiConvert v type σ.buffers = .ok (.ret (some d), buffers) ∧ σ.characteristic c = .ok x ∧
    askedPath { σ with buffers } x (buffers.read d.data) (UInt32.ofNat d.dataSize) = some path

/-- A message is a signal that a step asks for, from the path it asks for it from. -/
def Op.Signals (op : Op) (σ : State) (m : Message) : Prop :=
  ∃ c path text, op.AsksSignal σ c path ∧ σ.strings.PointsTo path text ∧ m.path = some text

/-! ## What a step sends -/

/-- Besides requests and replies some messages have been sent, which satisfy a condition. -/
def Sends (P : Message → Prop) (σ σ' : State) : Prop :=
  ∃ messages, σ'.bus.sent = σ.bus.sent ++ messages ∧ ∀ m ∈ messages, m.type = .signal → P m

namespace Sends

variable {P : Message → Prop} {σ σ₁ σ' : State}

theorem of_same (h : σ'.bus.sent = σ.bus.sent) : Sends P σ σ' :=
  ⟨[], h.trans (List.append_nil _).symm, fun _ hm => absurd hm List.not_mem_nil⟩

theorem of_one {m : Message} (h : σ'.bus.sent = σ.bus.sent ++ [m]) (hm : m.type = .signal → P m) :
    Sends P σ σ' := by
  refine ⟨[m], h, fun m' hm' => ?_⟩
  rw [List.mem_singleton.mp hm']
  exact hm

theorem trans (h : Sends P σ σ₁) (h' : Sends P σ₁ σ') : Sends P σ σ' := by
  obtain ⟨messages, hsent, hall⟩ := h
  obtain ⟨messages', hsent', hall'⟩ := h'
  refine ⟨messages ++ messages', by rw [hsent', hsent, List.append_assoc], fun m hm => ?_⟩
  rcases List.mem_append.mp hm with hm | hm
  · exact hall m hm
  · exact hall' m hm

/-- A reply is no signal. -/
theorem reply {reply : Option Message} (hreply : ∀ m, reply = some m → m.type ≠ .signal)
    (h : σ₁.bus.sent = σ.bus.sent) : Sends P σ (sendReply reply σ₁) := by
  cases reply with
  | none => exact of_same h
  | some m =>
    refine of_one (m := m) ?_ fun htype => absurd htype (hreply m rfl)
    rw [sendReply, dbusConnectionSend, h]

end Sends

theorem dbusMessageNewMethodReturn_type {bus : Connection} {message reply : Message}
    (h : dbusMessageNewMethodReturn bus message = some reply) : reply.type ≠ .signal := by
  unfold dbusMessageNewMethodReturn at h
  split_ifs at h
  cases h
  intro htype
  cases htype

/-- The functions of the `Properties` interface reply with method returns. -/
theorem handlePropertiesInterface_sends {P : Message → Prop} {message request : Message}
    {object : ObjectData} {result : HandlerResult} {σ σ' : State}
    (h : handlePropertiesInterface message object σ = .ok (result, request, σ')) :
    Sends P σ σ' := by
  simp only [handlePropertiesInterface, ite_eq_ok, bind_eq_ok] at h
  rcases h with ⟨-, ⟨reply, m⟩, hget, h⟩ | ⟨-, ⟨-, h⟩ | ⟨-, ⟨-, reply, hgetAll, h⟩ | ⟨-, h⟩⟩⟩
  · cases h
    refine .reply (fun m hm => ?_) rfl
    unfold dbusutilsObjectGet at hget
    split at hget
    · cases hget
      cases hm
    split at hget
    · cases hget
      cases hm
    rename_i r hreturn
    dsimp only at hget
    have htype := dbusMessageNewMethodReturn_type hreturn
    split at hget
    · cases hget
      cases hm
      exact htype
    · simp only [bind_eq_ok] at hget
      obtain ⟨w₁, -, w₂, -, w₃, -, hget⟩ := hget
      cases hget
      cases hm
      exact htype
  · cases h
    exact .of_same rfl
  · cases h
    refine .reply (fun m hm => ?_) rfl
    unfold dbusutilsObjectGetAll at hgetAll
    split at hgetAll
    · cases hgetAll
      cases hm
    · rename_i r hreturn
      obtain ⟨w, -, hgetAll⟩ := bind_eq_ok.mp hgetAll
      have htype := dbusMessageNewMethodReturn_type hreturn
      cases hgetAll
      cases hm
      exact htype
  · cases h
    exact .of_same rfl

/-- The methods reply with method returns, and send nothing themselves. -/
theorem call_sends {o : Obj} {σ τ τ' : State} {row : Method}
    (hrow : row ∈ (objectData σ o).methods) {message : Message} {reply : Option Message}
    (h : row.call message τ = .ok (reply, τ')) :
    τ'.bus.sent = τ.bus.sent ∧ ∀ m, reply = some m → m.type ≠ .signal := by
  constructor
  · obtain rfl | ⟨c, -, hmethod⟩ := call_cases hrow h
    · rfl
    · obtain rfl | ⟨data, size, hset⟩ | ⟨notifying, hset⟩ := characteristicMethods_cases hmethod h
      · rfl
      · obtain ⟨x, value, valueSize, buffers, -, rfl, -⟩ :=
          (characteristicSetValue_stores hset).fields
        rfl
      · obtain ⟨x, -, hset⟩ := bind_eq_ok.mp hset
        cases hset
        rfl
  · intro m hm
    cases hm
    cases o with
    | device d =>
      rw [List.mem_singleton.mp hrow] at h
      dsimp only [deviceGetManagedObjects] at h
      split at h
      · cases h
      · rename_i r hreturn
        have htype := dbusMessageNewMethodReturn_type hreturn
        simp only [bind_eq_ok] at h
        obtain ⟨w₁, -, x, -, w₂, -, w₃, -, h⟩ := h
        cases h
        exact htype
    | advertisement d =>
      rw [List.mem_singleton.mp hrow] at h
      cases h
    | service s => cases hrow
    | descriptor k => cases hrow
    | characteristic c =>
      simp only [objectData, characteristicMethods, List.mem_cons, List.not_mem_nil,
        or_false] at hrow
      rcases hrow with rfl | rfl | rfl | rfl
      · dsimp only [characteristicReadValue] at h
        split at h
        · cases h
        · rename_i r hreturn
          have htype := dbusMessageNewMethodReturn_type hreturn
          simp only [bind_eq_ok] at h
          obtain ⟨x, -, w, -, h⟩ := h
          cases h
          exact htype
      · simp only [characteristicWriteValue, bind_eq_ok, ite_eq_ok] at h
        obtain ⟨array, -, ⟨newValue, count⟩, -, ⟨-, h⟩ | ⟨-, τ₁, -, h⟩⟩ := h
        · cases h
        · exact dbusMessageNewMethodReturn_type (Prod.mk.inj (Except.ok.inj h)).1
      · obtain ⟨τ₁, -, h⟩ := bind_eq_ok.mp h
        exact dbusMessageNewMethodReturn_type (Prod.mk.inj (Except.ok.inj h)).1
      · obtain ⟨τ₁, -, h⟩ := bind_eq_ok.mp h
        exact dbusMessageNewMethodReturn_type (Prod.mk.inj (Except.ok.inj h)).1

/-- Handling a message sends a reply at most. -/
theorem dbusutilsObjectHandleMessage_sends {P : Message → Prop} {o : Obj}
    {message request : Message} {result : HandlerResult} {σ σ' : State}
    (h : dbusutilsObjectHandleMessage o message σ = .ok (result, request, σ')) : Sends P σ σ' := by
  unfold dbusutilsObjectHandleMessage at h
  split at h
  · cases h
  simp only [ite_eq_ok] at h
  rcases h with ⟨-, h⟩ | ⟨-, h⟩
  · exact handlePropertiesInterface_sends h
  · unfold handleMethodCall at h
    split at h
    · cases h
      exact .of_same rfl
    · rename_i row hrow
      obtain ⟨⟨reply, σ₁⟩, hcall, h⟩ := bind_eq_ok.mp h
      obtain ⟨hsent, hreply⟩ := call_sends (List.mem_of_find?_eq_some hrow) hcall
      cases reply with
      | none =>
        cases h
        exact .of_same hsent
      | some m =>
        cases h
        exact .reply hreply hsent

/-- What else changes the state, short of finalising objects, sends requests to BlueZ at most. -/
theorem Change.sends {P : Message → Prop} {op : Op} {σ σ' : State} (h : Change op σ σ')
    (hop : ¬ op.OnValues) (hfini : op.NoFini) : Sends P σ σ' := by
  have hrequest : ∀ {m : Message}, m.type = .methodCall → m.type = .signal → P m := by
    intro m hcall hsignal
    rw [hcall] at hsignal
    cases hsignal
  cases h with
  | @refused kind | @added kind => exact .of_same (by cases kind <;> rfl)
  | requested _ hmessage => exact .of_one rfl (hrequest hmessage)
  | asked _ hmessage => exact .of_one rfl (hrequest hmessage)
  | controller hinit =>
    obtain ⟨x, vc, oc, co, cc, -, rfl, -⟩ := deviceInitController_spec hinit
    exact .of_same rfl
  | advertised hinit =>
    obtain ⟨x, strings, a, i, j, k, -, rfl, -⟩ := deviceInitAdvertisement_spec hinit
    exact .of_same rfl
  | listed =>
    rw [State.listDevice_eq]
    exact .of_same rfl
  | valued hvalues => exact absurd hvalues hop
  | answered hreply =>
    obtain rfl := onRegisterApplicationReply_spec hreply
    exact .of_same rfl
  | advertAnswered hreply =>
    obtain ⟨x, -, rfl⟩ := onRegisterAdvertReply_spec hreply
    exact .of_same rfl
  | finalised => exact absurd hfini id
  | _ => exact .of_same rfl

/-- An update sends one signal at most, from the path it asks for it from. -/
theorem characteristicUpdateValue_sends {P : Message → Prop} {σ σ' : State} {c : ℕ}
    {x : Characteristic} (hx : σ.characteristic c = .ok x) {newValue : Bytes} {dataSize : ℕ}
    (hP : ∀ path text m, askedPath σ x newValue (UInt32.ofNat dataSize) = some path →
      σ.strings.PointsTo path text → m.path = some text → P m)
    (h : characteristicUpdateValue c newValue dataSize σ = .ok σ') : Sends P σ σ' := by
  rw [characteristicUpdateValue_eq hx] at h
  split_ifs at h
  swap
  · cases h
    exact .of_same rfl
  obtain ⟨σ₁, hset, h⟩ := bind_eq_ok.mp h
  obtain ⟨y, value, valueSize, buffers, -, rfl, -⟩ := (characteristicSetValue_stores hset).fields
  split at h
  · cases h
    exact .of_same rfl
  · rename_i path hasked
    obtain ⟨x₁, -, h⟩ := bind_eq_ok.mp h
    obtain ⟨bus, hsignal, h⟩ := bind_eq_ok.mp h
    cases h
    obtain rfl | ⟨text, m, hpath, hfrom, rfl⟩ :=
      dbusutilsSendObjectPropertiesChangedSignal_cases hsignal
    · exact .of_same rfl
    · exact .of_one rfl fun _ => hP path text m hasked (libraryPath_eq_ok.mp hpath).1 hfrom

/-- A step sends no signals but those it asks for. -/
theorem exec_sends {op : Op} {σ σ' : State} {r : Reply} (hpointers : PointersInv σ)
    (h : exec op σ = .ok (r, σ')) : Sends (op.Signals σ) σ σ' := by
  by_cases hfini : ∃ o, op = .fini o
  · obtain ⟨o, rfl⟩ := hfini
    obtain ⟨σ₁, hfini, h⟩ := bind_eq_ok.mp h
    cases h
    obtain ⟨-, -, oc, rfl⟩ := hpointers.finiObject_spec hfini
    exact .of_same rfl
  by_cases hop : op.OnValues
  · cases op with
    | setNotifying c notifying =>
      obtain ⟨σ₁, hset, h⟩ := bind_eq_ok.mp h
      cases h
      obtain ⟨x, -, hset⟩ := bind_eq_ok.mp hset
      cases hset
      exact .of_same rfl
    | setValue c v t =>
      obtain ⟨⟨exit, σ₁⟩, hset, h⟩ := bind_eq_ok.mp h
      cases h
      unfold luaiCharacteristicSetValue at hset
      split at hset
      · cases hset
        exact .of_same rfl
      rename_i type ht
      obtain ⟨⟨exit', buffers⟩, hconv, hset⟩ := bind_eq_ok.mp hset
      dsimp only at hset
      split at hset
      · cases hset
        exact .of_same rfl
      · cases hset
        exact .of_same rfl
      · rename_i data dataSize
        obtain ⟨σ₂, hupdate, hset⟩ := bind_eq_ok.mp hset
        cases hset
        obtain ⟨x, hx, -⟩ := bind_eq_ok.mp hupdate
        -- the conversion has touched nothing but the buffers
        have hsends : Sends (Op.Signals (.setValue c v t) σ) { σ with buffers } σ₂ := by
          refine characteristicUpdateValue_sends hx (fun path text m hasked htext hm => ?_) hupdate
          exact ⟨c, path, text, ⟨v, t, type, ⟨data, dataSize⟩, buffers, x, rfl, ht, hconv, hx,
            hasked⟩, htext, hm⟩
        exact hsends
    | deliver object message =>
      simp only [exec, ite_eq_ok, bind_eq_ok] at h
      rcases h with ⟨-, ⟨result, request, σ₁⟩, hhandle, h⟩ | ⟨-, h⟩
      · cases h
        exact dbusutilsObjectHandleMessage_sends hhandle
      · cases h
        exact .of_same rfl
    | _ => exact absurd hop id
  · have hnofini : op.NoFini := by
      cases op with
      | fini o => exact hfini ⟨o, rfl⟩
      | _ => trivial
    have hinv : Sends (op.Signals σ) σ σ := .of_same rfl
    exact (exec_changes h).invariant
      (fun τ τ' hchange hsends => hsends.trans (hchange.sends hop hnofini)) hinv

/-! ## Published characteristics -/

/-- A path is that under which a characteristic is registered, and the characteristic is in the
list of a service. -/
def PublishedAt (σ : State) (c : ℕ) (path : Ptr CStr) : Prop :=
  ∃ text, σ.strings.PointsTo path text ∧ (text, .characteristic c) ∈ σ.bus.registered ∧
    ∃ s, ListedChild σ .characteristic s c

/-- The path of an attached characteristic is the one it is published at. -/
theorem publishedAt_of_attached {σ : State} (hreach : Reachable σ) {c : ℕ} {x : Characteristic}
    (hx : σ.characteristic c = .ok x) (hattached : x.node.parentPath ≠ .null) :
    PublishedAt σ c x.node.objectPath := by
  have hpointers := PointersInv.of_reachable hreach
  obtain ⟨children, hforests⟩ := Forests.of_reachable hreach
  obtain ⟨hfin, hget⟩ := State.characteristic_eq_ok.mp hx
  have hnode : (σ.nodes .characteristic)[c]? = some x.node := by simp [State.nodes, hget]
  obtain ⟨id, text, hpath, hregistered⟩ :=
    (RegistrationInv.of_reachable hreach).attached .characteristic c x.node hnode hattached
  refine ⟨text, ⟨id, ?_, hpath⟩, hregistered, ?_⟩
  · -- the slot has not been freed: the characteristic is there and has a parent
    refine hpointers.owns.live (.node .characteristic c .objectPath) id text ?_
      ((State.slot_node hnode _).trans hpath)
    intro hfreed
    rcases hfreed with hfreed | ⟨kind, c', hslot, hnull⟩
    · exact hfin hfreed
    · cases hslot
      rw [State.slot_node hnode] at hnull
      exact hattached hnull
  · obtain ⟨s, hs⟩ := ((hforests .characteristic).wellFormed.owned_iff c).mp
      ⟨x.node, hnode, hattached⟩
    exact ⟨s, (hforests .characteristic).listedChild_iff.mpr hs⟩

/-! ## Steps -/

/-- What a step ought to do: every signal it asks for comes from the path its characteristic is
published at, and every signal it sends is one of these; and `setValue` on a characteristic that is
not attached stores the value, as long as memory does not run out, and asks for none. -/
structure SignalsPublished (op : Op) (σ : State) : Prop where
  published : ∀ c path, op.AsksSignal σ c path → PublishedAt σ c path
  sent : ∀ r σ', exec op σ = .ok (r, σ') → ∃ messages, σ'.bus.sent = σ.bus.sent ++ messages ∧
    ∀ m ∈ messages, m.type = .signal → ∃ c path text, op.AsksSignal σ c path ∧
      σ.strings.PointsTo path text ∧ m.path = some text ∧
      (text, .characteristic c) ∈ σ.bus.registered
  unattached : ∀ c v t x, op = .setValue c v t → σ.characteristic c = .ok x →
    x.node.parentPath = .null → (∀ path, ¬ op.AsksSignal σ c path) ∧
      (σ.buffers.NeverFails → σ.bus.outOfMemory = false →
        ∀ type bytes, luaiCheckTypeBleDataType t = .ret type →
          convertedBytes type v = some bytes →
          ∃ σ', exec op σ = .ok (.lua (.ret true), σ') ∧ Holds σ' c bytes ∧
            σ'.bus.sent = σ.bus.sent)

/-- When `setValue` does so: on a characteristic that is not attached, no block is overrun, the
encoding is shorter than `2 ^ 32` bytes, and while notifications are on the value stays. -/
def QuietUnattached (op : Op) (σ : State) : Prop :=
  ∀ c v t x type, op = .setValue c v t → σ.characteristic c = .ok x →
    x.node.parentPath = .null → luaiCheckTypeBleDataType t = .ret type →
    overruns type v = false ∧ ∀ bytes, convertedBytes type v = some bytes →
      bytes.length < 2 ^ 32 ∧ (x.notifying = true → Holds σ c bytes)

/-- A quiet step on a characteristic that is not attached asks for no signal. -/
theorem QuietUnattached.not_asksSignal {σ : State} {op : Op}
    (h : QuietUnattached op σ) {c : ℕ} {x : Characteristic} (hx : σ.characteristic c = .ok x)
    (hunattached : x.node.parentPath = .null) (path : Ptr CStr) : ¬ op.AsksSignal σ c path := by
  intro hasks
  obtain ⟨v, t, type, d, buffers, y, rfl, ht, hconv, hy, hasked⟩ := hasks
  obtain rfl : x = y := by simpa using hx.symm.trans hy
  unfold askedPath at hasked
  split_ifs at hasked with hboth
  obtain ⟨hnew, hnotifying⟩ := hboth
  obtain ⟨-, hquiet⟩ := h c v t x type rfl hx hunattached ht
  obtain ⟨hlength, hsame⟩ := hquiet _ (luaiConvert_some hconv)
  have hok := luaiConvert_ok hconv
  obtain ⟨bytes, hdata, hsize⟩ := hok.data d rfl
  rw [hdata.read] at hlength hsame hnew
  -- the old value is still what the buffer holds, so that it is no new one
  have hheld : Holds { σ with buffers } c bytes := by
    obtain ⟨z, hz, hzsize, hvalue⟩ := hsame hnotifying
    exact ⟨z, hz, hzsize, hvalue.imp_right hok.extend.pointsTo⟩
  have hnarrow : (UInt32.ofNat d.dataSize).toNat = bytes.length := by
    rw [UInt32.toNat_ofNat', hsize, Nat.mod_eq_of_lt hlength]
  rw [isNewValue_eq hheld hx (Nat.le_of_eq hnarrow), hnarrow, List.take_length] at hnew
  exact hnew rfl

/-- A quiet step does what it ought to. -/
theorem QuietUnattached.signalsPublished {σ : State} (hreach : Reachable σ) {op : Op}
    (h : QuietUnattached op σ) : SignalsPublished op σ := by
  have hinv := ValuesInv.of_reachable hreach
  have hpublished : ∀ c path, op.AsksSignal σ c path → PublishedAt σ c path := by
    intro c path hasks
    obtain ⟨v, t, type, d, buffers, x, hop, ht, hconv, hx, hasked⟩ := id hasks
    -- a characteristic that asks for a signal is attached
    have hattached : x.node.parentPath ≠ .null := fun hnull =>
      h.not_asksSignal hx hnull path hasks
    unfold askedPath at hasked
    split_ifs at hasked
    cases hasked
    exact publishedAt_of_attached hreach hx hattached
  refine ⟨hpublished, fun r σ' hexec => ?_, ?_⟩
  · obtain ⟨messages, hsent, hall⟩ := exec_sends (.of_reachable hreach) hexec
    refine ⟨messages, hsent, fun m hm htype => ?_⟩
    obtain ⟨c, path, text, hasks, htext, hfrom⟩ := hall m hm htype
    obtain ⟨text', htext', hregistered, -⟩ := hpublished c path hasks
    obtain rfl : text = text' := htext.read.symm.trans htext'.read
    exact ⟨c, path, text, hasks, htext, hfrom, hregistered⟩
  · intro c v t x hop hx hunattached
    refine ⟨h.not_asksSignal hx hunattached, ?_⟩
    intro hf hmemory type bytes ht hconv
    obtain ⟨hsafe, hquiet⟩ := h c v t x type hop hx hunattached ht
    obtain ⟨hlength, hsame⟩ := hquiet bytes hconv
    obtain ⟨old, hold⟩ := hinv.holds hx
    have hshows := hold.shows hx
    have hnarrowed := narrowed_of_lt hlength
    have hchanged : x.notifying = true → narrowed bytes = old := by
      intro hnotifying
      rw [hnarrowed]
      exact (hsame hnotifying).unique hold
    obtain ⟨σ', hrun, heffect⟩ := luaiCharacteristicSetValue_stored hf ht hsafe hshows hinv
      hmemory hx hconv fun hnotifying hne => absurd (hchanged hnotifying) hne
    -- the value stays the same or nobody is told
    have hsilent : Cell.signals ⟨old, x.notifying⟩ (σ.strings.read x.node.objectPath)
        (narrowed bytes) = [] := if_neg fun hboth => hboth.2 (hchanged hboth.1)
    rw [hsilent] at heffect
    refine ⟨σ', ?_, ?_, ?_⟩
    · rw [hop, exec, hrun]
      rfl
    · rw [← hnarrowed]
      exact heffect.shows.holds
    · rw [heffect.sent, List.append_nil]

/-- In every run whose `setValue` steps on unattached characteristics are quiet, every signal asked
for, and so every signal sent, comes from the registered path of an attached characteristic. -/
theorem signals_published {σ₀ : State} (hinit : σ₀.IsInitial) {ops : List Op}
    (hquiet : AllSteps exec QuietUnattached ops σ₀) : AllSteps exec SignalsPublished ops σ₀ := by
  have hstep : ∀ op σ, QuietUnattached op σ → Reachable σ →
      SignalsPublished op σ ∧ ∀ r σ', exec op σ = .ok (r, σ') → Reachable σ' := by
    intro op σ hop hreach
    exact ⟨hop.signalsPublished hreach, fun r σ' hexec => hreach.step op trivial hexec⟩
  exact AllSteps.of_invariant hstep hquiet ⟨σ₀, [], [], hinit, by simp, rfl⟩

/-- A characteristic whose value is set before it is added to a service, and again when it has been
added and notifies. -/
def setTwice : List Op :=
  [.createCharacteristic "2A19".toList, .setValue 0 (.integer 5) (.integer 2),
    .createDevice "lamp".toList, .createService "180F".toList,
    .add .service (fun _ _ => true) 0 0, .add .characteristic (fun _ _ => true) 0 0,
    .setNotifying 0 true, .setValue 0 (.integer 7) (.integer 2)]

/-- The theorem for this run, which sends a signal in its last step. -/
theorem signals_published_twice : AllSteps exec SignalsPublished setTwice State.empty ∧
    (State.after setTwice).bus.sent.map (fun m => (m.type, m.path)) =
      [(.signal, some "/dev0/serv0/char0".toList)] := by
  have hother : ∀ op σ, (∀ c v t, op ≠ .setValue c v t) → QuietUnattached op σ :=
    fun op σ hop c v t x type heq => absurd heq (hop c v t)
  have htwo : luaiCheckTypeBleDataType (.integer 2) = .ret 2 := by decide
  -- before it has been added it does not notify
  have hsilent : ∀ σ : State, (σ.characteristic 0).map Characteristic.notifying = .ok false →
      QuietUnattached (.setValue 0 (.integer 5) (.integer 2)) σ := by
    intro σ hflag c v t x type hop hx _ ht
    cases hop
    rw [hx] at hflag
    obtain rfl : (2 : UInt32) = type := LuaExit.ret.inj (htwo.symm.trans ht)
    refine ⟨by decide, fun bytes hconv => ?_⟩
    have hbytes : convertedBytes 2 (.integer 5) = some [5] := by decide
    obtain rfl : [5] = bytes := Option.some.inj (hbytes.symm.trans hconv)
    refine ⟨by decide, fun hnotifying => ?_⟩
    exact absurd ((Except.ok.inj hflag).symm.trans hnotifying) (by simp)
  have hattached : ∀ σ : State,
      (σ.characteristic 0).map (fun x => decide (x.node.parentPath = .null)) = .ok false →
      QuietUnattached (.setValue 0 (.integer 7) (.integer 2)) σ := by
    intro σ hflag c v t x type hop hx hnull
    cases hop
    rw [hx] at hflag
    exact absurd hnull (of_decide_eq_false (Except.ok.inj hflag))
  refine ⟨signals_published State.isInitial_empty ?_, by decide +kernel⟩
  exact ⟨hother _ _ (by simp), hsilent _ rfl, hother _ _ (by simp), hother _ _ (by simp),
    hother _ _ (by simp), hother _ _ (by simp), hother _ _ (by simp), hattached _ rfl, trivial⟩

/-- The steps that create and add objects and those on values. -/
def Op.OnCharacteristics : Op → Prop
  | .createDevice _ | .createService _ | .createCharacteristic _ | .createDescriptor _ => True
  | .add .. | .setNotifying .. | .setValue .. | .deliver .. => True
  | _ => False

/-- The script may switch notifications on before it adds the characteristic: setting the value then
asks for a signal without a path. -/
theorem not_signals_published : ¬ ∀ (σ₀ : State) (ops : List Op), σ₀.IsInitial →
    (∀ op ∈ ops, op.OnCharacteristics) → AllSteps exec SignalsPublished ops σ₀ := by
  intro h
  obtain ⟨-, -, hset, -⟩ := h State.empty
    [.createCharacteristic "2A19".toList, .setNotifying 0 true,
      .setValue 0 (.integer 5) (.integer 2)] State.isInitial_empty (by
        simp [Op.OnCharacteristics])
  obtain ⟨text, ⟨id, -, hnull⟩, -⟩ := hset.published 0 .null
    ⟨.integer 5, .integer 2, 2, _, _, _, rfl, by decide, rfl, rfl, by decide⟩
  cases hnull

end BleSim
