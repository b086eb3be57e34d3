import BleSim.Lib.Registers
import BleSim.Cells
import BleSim.ValueCalls

/-!
# The last write wins

The script and the peers write values, and four readers show them: `ReadValue`, `GetAll`,
`GetManagedObjects` and the signals. Along a run all of them show, for each characteristic, the
bytes last written to that one.
-/

namespace BleSim

open Outcomes WriteOnce DBusValue Registers

/-! ## Writes -/

/-- The bytes a `WriteValue` carries, if its first argument is an array of bytes. -/
def Message.writtenBytes (m : Message) : Option Bytes :=
  match m.body with
  | .array ['y'] items :: _ => some (items.flatMap DBusValue.storage)
  | _ => none

/-- The bytes `setValue` is asked to store, if the arguments are acceptable. -/
def setBytes (v t : LuaValue) : Option Bytes :=
  match luaiCheckTypeBleDataType t with
  | .ret type => convertedBytes type v
  | .raise => none

/-- What a step has written to a characteristic: the bytes of a `setValue` that returned true, or
of a `WriteValue` that was answered. -/
def Op.writes : Op → Reply → ℕ → Option Bytes
  | .setValue e v t, .lua (.ret true), c =>
    if e = c then setBytes v t else none
  | .deliver (.characteristic e) m, .handled .handled _, c =>
    if e = c ∧ m.isMethodCall bluezGattCharacteristicInterface bluezMethodWriteValue = true then
      m.writtenBytes
    else none
  | _, _, _ => none

/-- The bytes last written to each characteristic in a run, and the empty array if there are
none. -/
def latest : List Op → List Reply → ℕ → Bytes := lastWrites Op.writes fun _ => []

/-! ## The steps of a run -/

/-- What a call stores fits into a D-Bus array, and no block is overrun on the way. -/
def ValueCall.Fits : ValueCall → Prop
  | .set v t => ∀ type, luaiCheckTypeBleDataType t = .ret type → overruns type v = false ∧
      ∀ bytes, convertedBytes type v = some bytes → bytes.length ≤ dbusMaximumArrayLength
  | _ => True

/-- The condition on a step: a call on a value does not overrun a block, and any other step but
`setNotifying` and finalisations returns. -/
inductive Op.Sound (σ : State) : Op → Prop
  | value {op : Op} {c : ℕ} {call : ValueCall} : op.Asks c call → call.Fits →
      c < σ.characteristics.length → Sound σ op
  | getAll {c : ℕ} {m : Message} : m.IsCall dbusInterfaceProperties →
      m.member = some dbusMethodGetAll → Sound σ (.deliver (.characteristic c) m)
  | getManagedObjects {d : ℕ} {m : Message} : m.IsCall dbusInterfaceObjectManager →
      m.member = some dbusMethodGetManagedObjects → Sound σ (.deliver (.device d) m)
  | other {op : Op} : op.Elsewhere → (exec op σ).isOk = true → Sound σ op

/-- Whether the library takes the texts that a step tells: the path of a signal, and what is in the
reply to `GetAll` and to `GetManagedObjects`. -/
structure Op.TextsTaken (σ : State) (op : Op) : Prop where
  setValue : ∀ c v t, op = .setValue c v t → PathTaken σ (.characteristic c)
  getAll : ∀ c m, op = .deliver (.characteristic c) m → m.IsCall dbusInterfaceProperties →
    m.member = some dbusMethodGetAll → BleSim.TextsTaken σ (.characteristic c)
  getManagedObjects : ∀ d m, op = .deliver (.device d) m → m.IsCall dbusInterfaceObjectManager →
    m.member = some dbusMethodGetManagedObjects → TreeTextsTaken σ d

theorem Message.IsCall.noMethod {m : Message} {interface : CStr} (h : m.IsCall interface)
    (hinterface : interface ≠ bluezGattCharacteristicInterface) (o : Obj) : m.NoMethod o := by
  intro c _ method hmethod
  rw [← Bool.not_eq_true, h.isMethodCall_iff]
  rintro ⟨-, heq⟩
  simp only [characteristicMethods, List.mem_cons, List.not_mem_nil, or_false] at hmethod
  rcases hmethod with rfl | rfl | rfl | rfl <;> exact hinterface heq

/-- Calls on values are the calls of methods of characteristics. -/
theorem Op.Asks.not_elsewhere {op : Op} {c : ℕ} {call : ValueCall} (h : op.Asks c call) :
    ¬ op.Elsewhere := by
  intro helse
  -- each of the four messages matches a row of the table
  have hmethod : ∀ {m : Message} (method : Method), m.NoMethod (.characteristic c) →
      method ∈ characteristicMethods c → m.IsCall bluezGattCharacteristicInterface →
      m.member = some method.method →
      method.interface = bluezGattCharacteristicInterface → False := by
    intro m method hno hmem hcall hmember hinterface
    have hmatch := hno c rfl method hmem
    rw [hcall.isMethodCall_iff.mpr ⟨hmember, hinterface.symm⟩] at hmatch
    cases hmatch
  cases h with
  | set => exact helse
  | read hcall hmember =>
    exact hmethod ⟨_, _, _⟩ helse List.mem_cons_self hcall hmember rfl
  | write hcall hmember =>
    exact hmethod ⟨_, _, _⟩ helse (.tail _ List.mem_cons_self) hcall hmember rfl
  | start hcall hmember =>
    exact hmethod ⟨_, _, _⟩ helse (.tail _ (.tail _ List.mem_cons_self)) hcall hmember rfl
  | stop hcall hmember =>
    exact hmethod ⟨_, _, _⟩ helse (.tail _ (.tail _ (.tail _ List.mem_cons_self))) hcall
      hmember rfl

/-- Steps elsewhere write nothing. -/
theorem Op.Elsewhere.writes {op : Op} (h : op.Elsewhere) (r : Reply) (c : ℕ) :
    op.writes r c = none := by
  cases op with
  | setValue => exact absurd h id
  | deliver o m =>
    cases o with
    | characteristic e =>
      refine match r with
        | .handled .handled _ => if_neg fun hwrite => ?_
        | .handled .notYetHandled _ | .created _ | .bool _ | .lua _ | .none => rfl
      have hmatch := h e rfl ⟨bluezGattCharacteristicInterface, bluezMethodWriteValue,
        characteristicWriteValue e⟩ (.tail _ List.mem_cons_self)
      rw [hwrite.2] at hmatch
      cases hmatch
    | _ => rfl
  | _ => rfl

theorem Op.Asks.noFini {op : Op} {c : ℕ} {call : ValueCall} (h : op.Asks c call) : op.NoFini := by
  cases h <;> trivial

/-- A step asks one thing of one characteristic. -/
theorem Op.Asks.unique {op : Op} {c e : ℕ} {call call' : ValueCall} (h : op.Asks c call)
    (h' : op.Asks e call') : c = e := by
  cases h <;> cases h' <;> rfl

theorem Op.Asks.isCall {c e : ℕ} {m : Message} {call : ValueCall}
    (h : Op.Asks (.deliver (.characteristic c) m) e call) :
    m.IsCall bluezGattCharacteristicInterface := by
  cases h <;> assumption

theorem Op.Asks.eq_read {c e : ℕ} {m : Message} {call : ValueCall}
    (h : Op.Asks (.deliver (.characteristic c) m) e call)
    (hmember : m.member = some bluezMethodReadValue) : call = .read := by
  have hdiffer : ∀ {method : CStr}, m.member = some method → bluezMethodReadValue ≠ method →
      False := by
    intro method hmethod hne
    exact hne (Option.some.inj (hmember.symm.trans hmethod))
  cases h with
  | read => rfl
  | write _ hmethod => exact (hdiffer hmethod (by decide)).elim
  | start _ hmethod => exact (hdiffer hmethod (by decide)).elim
  | stop _ hmethod => exact (hdiffer hmethod (by decide)).elim

/-- The only signals are those that tell the new value. -/
theorem eq_valueSignal_of_mem {cell : Cell} {path : CStr} {call : ValueCall} {m : Message}
    (hm : m ∈ cell.messages path call) (htype : m.type = .signal) :
    m = valueSignal path (cell.after call).bytes := by
  -- everything but `setValue` answers with method returns only
  have hreturn : ∀ {body : List DBusValue}, m = methodReturn body → False := by
    rintro body rfl
    cases htype
  cases call with
  | set v t =>
    rw [Cell.messages, Cell.signals] at hm
    split_ifs at hm
    · exact List.mem_singleton.mp hm
    · cases hm
  | write bytes =>
    rw [Cell.messages] at hm
    split_ifs at hm
    · cases hm
    · exact (hreturn (List.mem_singleton.mp hm)).elim
  | _ => exact (hreturn (List.mem_singleton.mp hm)).elim

theorem ValueCall.Fits.stored {v t : LuaValue} (h : (ValueCall.set v t).Fits) :
    (ValueCall.set v t).stored = setBytes v t := by
  rw [ValueCall.stored, setBytes]
  cases ht : luaiCheckTypeBleDataType t with
  | raise => rfl
  | ret type =>
    cases hconv : convertedBytes type v with
    | none => simp [hconv]
    | some bytes => simp [hconv, narrowed_of_le ((h type ht).2 bytes hconv)]

/-- What is stored fits into an array. -/
theorem Op.Asks.length_stored {op : Op} {c : ℕ} {call : ValueCall} (hasks : op.Asks c call)
    (hfits : call.Fits) {bytes : Bytes} (hstored : call.stored = some bytes) :
    bytes.length ≤ dbusMaximumArrayLength := by
  cases hasks with
  | set _ v t =>
    rw [hfits.stored, setBytes] at hstored
    split at hstored
    · rename_i type ht
      exact (hfits type ht).2 bytes hstored
    · cases hstored
  | write _ _ _ hmax =>
    rw [ValueCall.stored] at hstored
    split_ifs at hstored
    obtain rfl := Option.some.inj hstored
    rwa [narrowed_of_le hmax]
  | _ => cases hstored

theorem writtenBytes_byteArray {m : Message} {bytes : Bytes} {rest : List DBusValue}
    (hbody : m.body = .byteArray bytes :: rest) : m.writtenBytes = some bytes := by
  rw [Message.writtenBytes, hbody]
  simp only [DBusValue.byteArray, List.flatMap_map]
  exact congrArg some (List.flatMap_singleton' bytes)

/-- A step on another characteristic writes nothing to this one. -/
theorem Op.Asks.writes_other {op : Op} {c e : ℕ} {call : ValueCall} (hasks : op.Asks c call)
    (hne : e ≠ c) (r : Reply) : op.writes r e = none := by
  cases hasks with
  | set _ v t =>
    exact match r with
      | .lua (.ret true) => if_neg hne.symm
      | .lua (.ret false) | .lua .raise | .created _ | .bool _ | .handled .. | .none => rfl
  | _ =>
    exact match r with
      | .handled .handled _ => if_neg fun hwrite => hne hwrite.1.symm
      | .handled .notYetHandled _ | .created _ | .bool _ | .lua _ | .none => rfl

/-- What a call has written is what it stores, if the reply says that the value was accepted. -/
theorem Op.Asks.writes {op : Op} {c : ℕ} {call : ValueCall} (hasks : op.Asks c call)
    (hfits : call.Fits) {σ σ' : State} {r : Reply} (hexec : exec op σ = .ok (r, σ'))
    (haccepts : (∃ v t, call = .set v t) ∨ (∃ bytes, call = .write bytes) →
      r.accepts = call.stored.isSome) :
    op.writes r c = call.stored := by
  have hother : ∀ {m : Message}, m.IsCall bluezGattCharacteristicInterface →
      m.member ≠ some bluezMethodWriteValue →
      (Op.deliver (.characteristic c) m).writes r c = none := by
    intro m hcall hmember
    exact match r with
      | .handled .handled _ => if_neg fun hwrite =>
        hmember (hcall.isMethodCall_iff.mp hwrite.2).1
      | .handled .notYetHandled _ | .created _ | .bool _ | .lua _ | .none => rfl
  cases hasks with
  | set _ v t =>
    obtain ⟨⟨exit, σ₁⟩, -, hexec⟩ := bind_eq_ok.mp hexec
    cases hexec
    have hstored := haccepts (Or.inl ⟨v, t, rfl⟩)
    rw [hfits.stored] at hstored ⊢
    match exit with
    | .ret true => exact if_pos rfl
    | .ret false | .raise =>
      have hnone : setBytes v t = none := by simpa [Reply.accepts] using hstored.symm
      exact hnone.symm
  | read hcall hmember => exact hother hcall (by rw [hmember]; decide)
  | @write _ m bytes rest hcall hmember hbody hmax =>
    have hstored := haccepts (Or.inr ⟨bytes, rfl⟩)
    have hreply : ∃ result request, r = .handled result request := by
      simp only [exec, ite_eq_ok, bind_eq_ok] at hexec
      rcases hexec with ⟨-, ⟨result, request, σ₁⟩, -, hexec⟩ | ⟨-, hexec⟩
      · cases hexec
        exact ⟨result, request, rfl⟩
      · cases hexec
        exact ⟨.notYetHandled, m, rfl⟩
    obtain ⟨result, request, rfl⟩ := hreply
    by_cases hempty : bytes = []
    · rw [ValueCall.stored, if_pos hempty] at hstored ⊢
      cases result with
      | handled => cases hstored
      | notYetHandled => rfl
    · rw [ValueCall.stored, if_neg hempty] at hstored ⊢
      cases result with
      | notYetHandled => cases hstored
      | handled =>
        have hwrite := hcall.isMethodCall_iff.mpr ⟨hmember, rfl⟩
        rw [narrowed_of_le hmax, ← writtenBytes_byteArray hbody]
        exact if_pos ⟨rfl, hwrite⟩
  | start hcall hmember => exact hother hcall (by rw [hmember]; decide)
  | stop hcall hmember => exact hother hcall (by rw [hmember]; decide)

/-- A call writes to no other characteristic. -/
theorem write_other_of_asks {op : Op} {c e : ℕ} {call : ValueCall} (hasks : op.Asks c call)
    (hne : e ≠ c) {bytes : ℕ → Bytes} {r : Reply} : write Op.writes bytes op r e = bytes e :=
  write_of_eq_none (hasks.writes_other hne r)

/-- What it has written is what the characteristic holds afterwards. -/
theorem write_own_of_writes {op : Op} {c : ℕ} {call : ValueCall} {r : Reply}
    (hwrites : op.writes r c = call.stored) {bytes : ℕ → Bytes} {notifying : Bool} :
    write Op.writes bytes op r c = (Cell.after ⟨bytes c, notifying⟩ call).bytes := by
  rw [write, hwrites]
  rfl

/-! ## What a step shows -/

/-- The entries give one value for the property `Value`. -/
def Carry (properties : List DBusValue) (bytes : Bytes) : Prop :=
  ∀ v, .dictEntry (.string blePropertyValue) v ∈ properties ↔
    v = .variant ['a', 'y'] (.byteArray bytes)

/-- The path of a characteristic. -/
def HasPath (σ : State) (c : ℕ) (path : CStr) : Prop :=
  ∃ x, σ.characteristic c = .ok x ∧ path = σ.strings.read x.node.objectPath

/-- All that a step shows of the values agrees with `bytes`, which gives the bytes of each
characteristic after the step. -/
structure Views (op : Op) (σ σ' : State) (bytes : ℕ → Bytes) : Prop where
  holds : ∀ c x, σ'.characteristic c = .ok x → Holds σ' c (bytes c)
  readValue : ∀ c m, op = .deliver (.characteristic c) m →
    .characteristic c ∈ σ.registeredObjects → m.IsCall bluezGattCharacteristicInterface →
    m.member = some bluezMethodReadValue →
    σ'.bus.sent = σ.bus.sent ++ [methodReturn [.byteArray (bytes c)]]
  getAll : ∀ c m, op = .deliver (.characteristic c) m →
    .characteristic c ∈ σ.registeredObjects → m.IsCall dbusInterfaceProperties →
    m.member = some dbusMethodGetAll →
    ∃ properties, σ'.bus.sent
      = σ.bus.sent ++ [methodReturn [.array "{sv}".toList properties]] ∧ Carry properties (bytes c)
  getManagedObjects : ∀ d m, op = .deliver (.device d) m → .device d ∈ σ.registeredObjects →
    m.IsCall dbusInterfaceObjectManager → m.member = some dbusMethodGetManagedObjects →
    ∃ entries, σ'.bus.sent
      = σ.bus.sent ++ [methodReturn [.array "{oa{sa{sv}}}".toList entries]] ∧
      (∀ c, Managed σ d (.characteristic c) → ∃ path properties, HasPath σ c path ∧
        objectEntry path bluezGattCharacteristicInterface properties ∈ entries ∧
          Carry properties (bytes c)) ∧
      ∀ path properties, objectEntry path bluezGattCharacteristicInterface properties ∈ entries →
        ∃ c, Managed σ d (.characteristic c) ∧ HasPath σ c path ∧ Carry properties (bytes c)
  signals : ∀ c call, op.Asks c call → ∃ messages, σ'.bus.sent = σ.bus.sent ++ messages ∧
    ∀ m ∈ messages, m.type = .signal → ∃ path, HasPath σ c path ∧ m = valueSignal path (bytes c)
  others : ∀ c call, op.Asks c call → ∀ e cell, e ≠ c → Shows σ e cell → Shows σ' e cell

/-- The state of a run, with the bytes last written to each characteristic. -/
structure Current (σ : State) (bytes : ℕ → Bytes) : Prop where
  reachable : ReachableBy Op.NoFini σ
  fails : σ.buffers.NeverFails
  memory : σ.bus.outOfMemory = false
  holds : ∀ c x, σ.characteristic c = .ok x → Holds σ c (bytes c)
  fresh : ∀ c, σ.characteristics.length ≤ c → bytes c = []
  short : ∀ c, (bytes c).length ≤ dbusMaximumArrayLength
  listened : ∀ c x, σ.characteristic c = .ok x → x.notifying = true →
    .characteristic c ∈ σ.registeredObjects

/-- The property table of a characteristic gives the value once. -/
theorem carry_characteristicValues (σ : State) (x : Characteristic) :
    Carry (tableEntries (characteristicProperties σ (.ok x)) (characteristicValues σ x))
      (x.bytes σ) := by
  intro v
  have huuid : blePropertyValue ≠ blePropertyUuid := by decide
  have hservice : blePropertyValue ≠ blePropertyService := by decide
  have hflags : blePropertyValue ≠ blePropertyFlags := by decide
  simp [tableEntries, characteristicProperties, characteristicValues, propertyEntry, huuid,
    hservice, hflags]

/-- The entries with the interface of characteristics are those of characteristics. -/
theorem State.entry_eq_characteristic {σ : State} {o : Obj} {path : CStr}
    {properties : List DBusValue}
    (h : σ.entry o = some (objectEntry path bluezGattCharacteristicInterface properties)) :
    ∃ c x, o = .characteristic c ∧ σ.characteristics[c]? = some x ∧
      path = σ.strings.read x.node.objectPath ∧
      properties = tableEntries (characteristicProperties σ (.ok x))
        (characteristicValues σ x) := by
  -- the interfaces tell the kinds of entries apart
  have hservice : bluezGattServiceInterface ≠ bluezGattCharacteristicInterface := by decide
  have hdescriptor : bluezGattDescriptorInterface ≠ bluezGattCharacteristicInterface := by decide
  cases o with
  | characteristic c =>
    obtain ⟨x, hx, hentry⟩ := Option.map_eq_some_iff.mp h
    obtain ⟨hpath, hproperties⟩ : _ = path ∧ _ = properties := by
      simpa [characteristicEntry, objectEntry] using hentry
    exact ⟨c, x, rfl, hx, hpath.symm, hproperties.symm⟩
  | service s =>
    obtain ⟨x, -, hentry⟩ := Option.map_eq_some_iff.mp h
    simp [serviceEntry, objectEntry, hservice] at hentry
  | descriptor k =>
    obtain ⟨x, -, hentry⟩ := Option.map_eq_some_iff.mp h
    simp [descriptorEntry, objectEntry, hdescriptor] at hentry
  | device e => cases h
  | advertisement e => cases h

namespace Current

variable {σ σ' : State} {bytes : ℕ → Bytes} (h : Current σ bytes)

include h

theorem pointers : PointersInv σ := .of_reachable h.reachable.reachable

theorem registrations : RegistrationInv σ := .of_reachable h.reachable.reachable

theorem values : ValuesInv σ := .of_reachable h.reachable.reachable

/-- A characteristic shows the bytes last written to it. -/
theorem shows {c : ℕ} {x : Characteristic} (hx : σ.characteristic c = .ok x) :
    Shows σ c ⟨bytes c, x.notifying⟩ := ⟨h.holds c x hx, x, hx, rfl⟩

theorem bytes_eq {c : ℕ} {x : Characteristic} (hx : σ.characteristic c = .ok x) :
    x.bytes σ = bytes c ∧ x.valueSize.toNat ≤ dbusMaximumArrayLength := by
  obtain ⟨hsize, hbytes⟩ := (h.shows hx).bytes_eq hx
  exact ⟨hbytes, hsize ▸ h.short c⟩

/-- As nothing is finalised, a characteristic that was created is there. -/
theorem exists_characteristic {c : ℕ} (hlt : c < σ.characteristics.length) :
    ∃ x, σ.characteristic c = .ok x := by
  have hthere := notMem_finalised h.reachable (.characteristic c)
  exact ⟨_, State.characteristic_eq_ok.mpr ⟨hthere, List.getElem?_eq_getElem hlt⟩⟩

/-- `GetAll` of a registered characteristic has a reply if the library takes its texts. -/
theorem getAll {c : ℕ} (hregistered : Obj.characteristic c ∈ σ.registeredObjects) {m : Message}
    (hcall : m.IsCall dbusInterfaceProperties) (hmember : m.member = some dbusMethodGetAll) :
    ∃ properties, Carry properties (bytes c) ∧
      (DBusValue.validTextsAll properties = true ↔ TextsTaken σ (.characteristic c)) ∧
      exec (.deliver (.characteristic c) m) σ =
        (fun reply => (.handled .handled m, sendReply (some reply) σ)) <$>
          replyWith (.array "{sv}".toList properties) := by
  obtain ⟨n, hn, hpublished⟩ :=
    published_of_registered h.pointers h.registrations .characteristic hregistered
  obtain ⟨x, hx⟩ := h.exists_characteristic
    (by simpa [State.nodes] using (List.getElem?_eq_some_iff.mp hn).1)
  obtain rfl : x.node = n := by
    simpa [State.nodes, (State.characteristic_eq_ok.mp hx).2] using hn
  obtain ⟨hbytes, hmax⟩ := h.bytes_eq hx
  have hfin := (State.characteristic_eq_ok.mp hx).1
  have htable : (objectData σ (.characteristic c)).properties =
      characteristicProperties σ (.ok x) := by
    simp only [objectData, hx]
  have hwrites := dbusutilsGetObjectPropertyData_writes
    (characteristicProperties_writes h.values hx (hpublished hfin).2 hmax)
  rw [← htable] at hwrites
  refine ⟨_, hbytes ▸ carry_characteristicValues σ x,
    validTexts_dump htable (characteristicValues_texts hx), ?_⟩
  rw [exec, if_pos hregistered, handle_getAll hcall hmember,
    dbusutilsObjectGetAll_writes h.memory hwrites, htable]
  unfold replyWith
  split_ifs
  · rfl
  · rfl

/-- A characteristic below a device is there. -/
theorem exists_managed {children : Kind → ℕ → List ℕ} (hforests : Forests σ children) {d c : ℕ}
    (hmanaged : Managed σ d (.characteristic c)) : ∃ x, σ.characteristic c = .ok x := by
  cases hmanaged with
  | characteristic _ hc =>
    obtain ⟨n, hn, -⟩ := (hforests .characteristic).mem_nodes
      ((hforests .characteristic).listedChild_iff.mp hc)
    apply h.exists_characteristic
    simpa [State.nodes] using (List.getElem?_eq_some_iff.mp hn).1

/-- Everything below a device can be read, as nothing is finalised and no value is too long. -/
theorem complete {children : Kind → ℕ → List ℕ} (hforests : Forests σ children) {d : ℕ}
    {o : Obj} (ho : o ∈ managedObjects children d) : Complete σ o := by
  have halive := notMem_finalised h.reachable
  cases o with
  | characteristic c =>
    obtain ⟨x, hx⟩ := h.exists_managed hforests (hforests.managed_iff.mpr ho)
    exact ⟨x, hx, (h.bytes_eq hx).2⟩
  | _ => exact halive _

/-- `GetManagedObjects` of a registered device has a reply if the library takes the texts in its
tree. -/
theorem getManagedObjects {d : ℕ} (hregistered : Obj.device d ∈ σ.registeredObjects) {m : Message}
    (hcall : m.IsCall dbusInterfaceObjectManager)
    (hmember : m.member = some dbusMethodGetManagedObjects) :
    ∃ entries,
      ((∀ c, Managed σ d (.characteristic c) → ∃ path properties, HasPath σ c path ∧
        objectEntry path bluezGattCharacteristicInterface properties ∈ entries ∧
          Carry properties (bytes c)) ∧
      ∀ path properties, objectEntry path bluezGattCharacteristicInterface properties ∈ entries →
        ∃ c, Managed σ d (.characteristic c) ∧ HasPath σ c path ∧ Carry properties (bytes c)) ∧
      (DBusValue.validTextsAll entries = true ↔ TreeTextsTaken σ d) ∧
      exec (.deliver (.device d) m) σ =
        (fun reply => (.handled .handled m, sendReply (some reply) σ)) <$>
          replyWith (.array "{oa{sa{sv}}}".toList entries) := by
  obtain ⟨children, hforests⟩ := Forests.of_reachable h.reachable.reachable
  obtain ⟨path, hmem⟩ := mem_registeredObjects.mp hregistered
  have hlt := (h.registrations.devices d path hmem).2
  have hx : σ.device d = .ok σ.devices[d] :=
    State.device_eq_ok.mpr ⟨notMem_finalised h.reachable _, List.getElem?_eq_getElem hlt⟩
  have hcomplete : ∀ o ∈ managedObjects children d, Complete σ o := fun o ho =>
    h.complete hforests ho
  have hserves :=
    (deviceGetManagedObjects_serves h.pointers h.values hforests hx h.memory m).1 hcomplete
  refine ⟨σ.entries (managedObjects children d),
    ⟨fun c hc => ?_, fun path properties hentry => ?_⟩, ?_, ?_⟩
  · -- a managed characteristic has its entry
    obtain ⟨x, hx⟩ := h.exists_managed hforests hc
    refine ⟨_, _, ⟨x, hx, rfl⟩, ?_, (h.bytes_eq hx).1 ▸ carry_characteristicValues σ x⟩
    refine List.mem_filterMap.mpr ⟨_, hforests.managed_iff.mp hc, ?_⟩
    simp [State.entry, (State.characteristic_eq_ok.mp hx).2, characteristicEntry]
  · -- an entry with this interface is the one of a managed characteristic
    obtain ⟨o, ho, hentry⟩ := List.mem_filterMap.mp hentry
    have hmanaged := hforests.managed_iff.mpr ho
    obtain ⟨c, x, rfl, hget, rfl, rfl⟩ := State.entry_eq_characteristic hentry
    obtain ⟨y, hy⟩ := h.exists_managed hforests hmanaged
    obtain rfl : x = y := Option.some.inj (hget.symm.trans (State.characteristic_eq_ok.mp hy).2)
    exact ⟨c, hmanaged, ⟨x, hy, rfl⟩, (h.bytes_eq hy).1 ▸ carry_characteristicValues σ x⟩
  · rw [validTexts_entries hcomplete]
    constructor
    · intro hall o hmanaged
      obtain ⟨⟨-, htexts⟩, hpath⟩ := hall o (hforests.managed_iff.mp hmanaged)
      exact ⟨htexts, hpath⟩
    · intro htaken o ho
      obtain ⟨htexts, hpath⟩ := htaken o (hforests.managed_iff.mpr ho)
      exact ⟨⟨hcomplete o ho, htexts⟩, hpath⟩
  · rw [exec, if_pos hregistered]
    unfold replyWith at hserves ⊢
    split_ifs at hserves ⊢
    · rw [handle_reply hcall (by decide) (find_getManagedObjects hcall hmember) hserves]
      rfl
    · rw [handle_error hcall (by decide) (find_getManagedObjects hcall hmember) hserves]
      rfl

omit h in
/-- A reply that was built has been sent. -/
theorem replied {m : Message} {v : DBusValue} {r : Reply} (hreply : Except.ok (r, σ') =
    (fun reply => (Reply.handled .handled m, sendReply (some reply) σ)) <$> replyWith v) :
    v.validTexts = true ∧ σ' = sendReply (some (methodReturn [v])) σ := by
  unfold replyWith at hreply
  split_ifs at hreply with hvalid
  · cases hreply
    exact ⟨hvalid, rfl⟩
  · cases hreply

/-- A step elsewhere leaves the values as they are. -/
theorem elsewhere {op : Op} (hop : op.Elsewhere) {r : Reply} (hexec : exec op σ = .ok (r, σ')) :
    Current σ' (write Op.writes bytes op r) ∧ Views op σ σ' (write Op.writes bytes op r) := by
  have hsame : write Op.writes bytes op r = bytes :=
    funext fun c => write_of_eq_none (hop.writes r c)
  have hfini : op.NoFini := by
    cases op with
    | fini => exact hop
    | _ => trivial
  have hkeeps := exec_keeps hop hexec
  have hshows : ∀ c x', σ'.characteristic c = .ok x' → ∃ notifying,
      Shows σ' c ⟨bytes c, notifying⟩ ∧
        (notifying = true → .characteristic c ∈ σ.registeredObjects) := by
    intro c x' hx'
    by_cases hlt : c < σ.characteristics.length
    · obtain ⟨x, hx⟩ := h.exists_characteristic hlt
      exact ⟨x.notifying, hkeeps.shows (h.shows hx), h.listened c x hx⟩
    · -- the step has created it
      have hle := Nat.le_of_not_lt hlt
      refine ⟨false, ?_, fun hflag => by cases hflag⟩
      rw [h.fresh c hle]
      exact hkeeps.shows_new hle hx'
  have hholds : ∀ c x', σ'.characteristic c = .ok x' → Holds σ' c (bytes c) := fun c x' hx' => by
    obtain ⟨notifying, hshown, -⟩ := hshows c x' hx'
    exact hshown.holds
  rw [hsame]
  refine ⟨⟨h.reachable.step op hfini hexec, fun n => (congrFun hkeeps.fails n).trans (h.fails n),
    hkeeps.outOfMemory.trans h.memory, hholds,
    fun c hle => h.fresh c (Nat.le_trans hkeeps.length hle), h.short, fun c x' hx' hflag => ?_⟩,
    ⟨hholds, ?_, ?_, ?_, ?_, ?_⟩⟩
  · obtain ⟨notifying, ⟨-, y, hy, hflag'⟩, hregistered⟩ := hshows c x' hx'
    obtain rfl : x' = y := by simpa using hx'.symm.trans hy
    exact hkeeps.registered _ (hregistered (hflag'.symm.trans hflag))
  · rintro c m rfl - hcall hmember
    exact absurd hop (Op.Asks.read hcall hmember).not_elsewhere
  · rintro c m rfl hregistered hcall hmember
    obtain ⟨properties, hcarry, -, hreply⟩ := h.getAll hregistered hcall hmember
    obtain ⟨-, rfl⟩ := replied (hexec.symm.trans hreply)
    exact ⟨properties, rfl, hcarry⟩
  · rintro d m rfl hregistered hcall hmember
    obtain ⟨entries, ⟨hgives, honly⟩, -, hreply⟩ := h.getManagedObjects hregistered hcall hmember
    obtain ⟨-, rfl⟩ := replied (hexec.symm.trans hreply)
    exact ⟨entries, rfl, hgives, honly⟩
  · exact fun c call hasks => absurd hop hasks.not_elsewhere
  · exact fun c call hasks => absurd hop hasks.not_elsewhere

/-- A call whose value fits and whose texts are taken has an outcome: whoever listens does so on a
registered path. -/
theorem defined_of_taken {op : Op} {c : ℕ} {call : ValueCall} (hasks : op.Asks c call)
    (hfits : call.Fits) (htaken : op.TextsTaken σ) {x : Characteristic}
    (hx : σ.characteristic c = .ok x) : call.Defined σ.strings x ⟨bytes c, x.notifying⟩ := by
  cases hasks with
  | set _ v t =>
    intro type ht
    obtain ⟨hsafe, hmax⟩ := hfits type ht
    refine ⟨hsafe, fun b hconv hflag _ => ⟨?_, ?_⟩⟩
    · -- a characteristic that is listened to is registered, so it has a path
      obtain ⟨hfin, hget⟩ := State.characteristic_eq_ok.mp hx
      obtain ⟨n, hn, hpublished⟩ := published_of_registered h.pointers h.registrations
        .characteristic (h.listened c x hx hflag)
      obtain rfl : x.node = n := by simpa [State.nodes, hget] using hn
      obtain ⟨path, hpoints⟩ := (hpublished hfin).2.objectPath
      have hvalid := htaken.setValue c v t rfl .characteristic c _ rfl (hpublished hfin).1
      exact ⟨path, hpoints, by rwa [hpoints.read] at hvalid⟩
    · rw [narrowed_of_le (hmax b hconv)]
      exact hmax b hconv
  | read _ _ => exact h.short c
  | _ => trivial

/-- A call that has an outcome has told what it had to tell. -/
theorem defined_of_returns {op : Op} {c : ℕ} {call : ValueCall} (hasks : op.Asks c call)
    (hfits : call.Fits) {r : Reply} (hexec : exec op σ = .ok (r, σ')) {x : Characteristic}
    (hx : σ.characteristic c = .ok x) : call.Defined σ.strings x ⟨bytes c, x.notifying⟩ := by
  cases hasks with
  | set _ v t =>
    intro type ht
    obtain ⟨hsafe, -⟩ := hfits type ht
    refine ⟨hsafe, fun b hconv hflag hne => ?_⟩
    by_contra hsend
    obtain ⟨e, he⟩ := luaiCharacteristicSetValue_fails h.fails ht hsafe (h.shows hx) h.values
      h.memory hx hconv hflag hne hsend
    rw [exec, he] at hexec
    cases hexec
  | read _ _ => exact h.short c
  | _ => trivial

/-- After a call, every characteristic shows what was last written to it, and only registered ones
are listened to. -/
theorem shows_after {op : Op} {c : ℕ} {call : ValueCall} (hasks : op.Asks c call)
    {x : Characteristic} (hx : σ.characteristic c = .ok x)
    (hreaches : call.isSet = true ∨ .characteristic c ∈ σ.registeredObjects) {r : Reply}
    (hwrites : op.writes r c = call.stored) {messages : List Message}
    (heffect : Effect σ σ' c (Cell.after ⟨bytes c, x.notifying⟩ call) messages) {e : ℕ}
    {y : Characteristic} (hy : σ'.characteristic e = .ok y) :
    ∃ notifying, Shows σ' e ⟨write Op.writes bytes op r e, notifying⟩ ∧
      (notifying = true → .characteristic e ∈ σ.registeredObjects) := by
  -- the characteristic of the call, and all others
  by_cases hec : e = c
  · subst hec
    refine ⟨_, by rw [write_own_of_writes hwrites]; exact heffect.shows, fun hflag => ?_⟩
    cases call with
    | start => exact hreaches.resolve_left (by simp [ValueCall.isSet])
    | stop => cases hflag
    | _ => exact h.listened e x hx hflag
  · obtain ⟨z, hz⟩ := heffect.frame.characteristic_of hy
    rw [write_other_of_asks hasks hec]
    exact ⟨z.notifying, heffect.others e _ hec (h.shows hz), h.listened e z hz⟩

/-- A call leads to a state with the bytes it has written. -/
theorem after_call {op : Op} {c : ℕ} {call : ValueCall} (hasks : op.Asks c call)
    (hfits : call.Fits) {x : Characteristic} (hx : σ.characteristic c = .ok x)
    (hreaches : call.isSet = true ∨ .characteristic c ∈ σ.registeredObjects) {r : Reply}
    (hexec : exec op σ = .ok (r, σ')) (hwrites : op.writes r c = call.stored)
    {messages : List Message}
    (heffect : Effect σ σ' c (Cell.after ⟨bytes c, x.notifying⟩ call) messages) :
    Current σ' (write Op.writes bytes op r) := by
  refine ⟨h.reachable.step op hasks.noFini hexec, fun n => ?_, ?_, fun e y hy => ?_,
    fun e hle => ?_, fun e => ?_, fun e y hy hflag => ?_⟩
  · exact (congrFun heffect.fails n).trans (h.fails n)
  · exact heffect.frame.outOfMemory.trans h.memory
  · obtain ⟨notifying, hshown, -⟩ := h.shows_after hasks hx hreaches hwrites heffect hy
    exact hshown.holds
  · -- a call creates no characteristic
    rw [heffect.frame.length] at hle
    have hlt := (List.getElem?_eq_some_iff.mp (State.characteristic_eq_ok.mp hx).2).1
    have hne : e ≠ c := by omega
    rw [write_other_of_asks hasks hne, h.fresh e hle]
  · by_cases hec : e = c
    · rw [hec, write, hwrites]
      cases hstored : call.stored with
      | none => exact h.short c
      | some b => exact hasks.length_stored hfits hstored
    · rw [write_other_of_asks hasks hec]
      exact h.short e
  · obtain ⟨notifying, ⟨-, z, hz, hflag'⟩, hregistered⟩ :=
      h.shows_after hasks hx hreaches hwrites heffect hy
    obtain rfl : y = z := by simpa using hy.symm.trans hz
    rw [State.registeredObjects, heffect.frame.registered]
    exact hregistered (hflag'.symm.trans hflag)

/-- A call on a registered characteristic, or by the script. -/
theorem value {op : Op} {c : ℕ} {call : ValueCall} (hasks : op.Asks c call) (hfits : call.Fits)
    {x : Characteristic} (hx : σ.characteristic c = .ok x)
    (hdefined : call.Defined σ.strings x ⟨bytes c, x.notifying⟩)
    (hreaches : call.isSet = true ∨ .characteristic c ∈ σ.registeredObjects) :
    ∃ r σ', exec op σ = .ok (r, σ') ∧
      Current σ' (write Op.writes bytes op r) ∧ Views op σ σ' (write Op.writes bytes op r) := by
  obtain ⟨r, σ', hexec, heffect, haccepts⟩ :=
    exec_asks h.values h.fails h.memory hx (h.shows hx) hasks hreaches hdefined
  have hwrites := hasks.writes hfits hexec haccepts
  have hown : write Op.writes bytes op r c = (Cell.after ⟨bytes c, x.notifying⟩ call).bytes :=
    write_own_of_writes hwrites
  have hafter := h.after_call hasks hfits hx hreaches hexec hwrites heffect
  refine ⟨r, σ', hexec, hafter, hafter.holds, ?_, ?_, ?_, ?_, ?_⟩
  · intro e m hop _ _ hmember
    subst hop
    obtain rfl := hasks.eq_of_deliver
    obtain rfl := hasks.eq_read hmember
    rw [heffect.sent, hown]
    rfl
  · -- the message is for the interface of characteristics, not for the properties
    intro e m hop _ hcall _
    subst hop
    have hinterface := hcall.interface.symm.trans hasks.isCall.interface
    exact absurd (Option.some.inj hinterface) (by decide)
  · intro d m hop _ _ _
    subst hop
    cases hasks
  · intro e call' hasks'
    obtain rfl := hasks.unique hasks'
    refine ⟨_, heffect.sent, fun m hm htype => ⟨_, ⟨x, hx, rfl⟩, ?_⟩⟩
    rw [hown]
    exact eq_valueSignal_of_mem hm htype
  · intro e call' hasks' e' cell' hne hshown
    obtain rfl := hasks.unique hasks'
    exact heffect.others e' cell' hne hshown

/-- A message for a characteristic that is not registered changes nothing. -/
theorem undelivered {c : ℕ} {m : Message} (hnot : Obj.characteristic c ∉ σ.registeredObjects) :
    ∃ r σ', exec (.deliver (.characteristic c) m) σ = .ok (r, σ') ∧
      Current σ' (write Op.writes bytes (.deliver (.characteristic c) m) r) ∧
      Views (.deliver (.characteristic c) m) σ σ'
        (write Op.writes bytes (.deliver (.characteristic c) m) r) := by
  have hexec : exec (.deliver (.characteristic c) m) σ = .ok (.handled .notYetHandled m, σ) :=
    if_neg hnot
  have hsame : write Op.writes bytes (.deliver (.characteristic c) m) (.handled .notYetHandled m)
      = bytes := rfl
  refine ⟨_, σ, hexec, hsame ▸ h, hsame ▸ ⟨h.holds, ?_, ?_, ?_, ?_, ?_⟩⟩
  · rintro e m' heq hregistered - -
    cases heq
    exact absurd hregistered hnot
  · rintro e m' heq hregistered - -
    cases heq
    exact absurd hregistered hnot
  · rintro d m' heq - - -
    cases heq
  · exact fun e call _ => ⟨[], (List.append_nil _).symm, fun m hm => by cases hm⟩
  · exact fun e call _ e' cell _ hshown => hshown

/-- A step that meets the condition keeps up with the bytes, if it returns. -/
theorem step {op : Op} (hop : op.Sound σ) {r : Reply} (hexec : exec op σ = .ok (r, σ')) :
    Current σ' (write Op.writes bytes op r) ∧ Views op σ σ' (write Op.writes bytes op r) := by
  -- a step has one outcome
  have hunique : (∃ r' σ₁, exec op σ = .ok (r', σ₁) ∧ Current σ₁ (write Op.writes bytes op r') ∧
      Views op σ σ₁ (write Op.writes bytes op r')) →
      Current σ' (write Op.writes bytes op r) ∧ Views op σ σ' (write Op.writes bytes op r) := by
    intro ⟨r', σ₁, hexec', hafter⟩
    obtain ⟨rfl, rfl⟩ : r = r' ∧ σ' = σ₁ := by simpa using hexec.symm.trans hexec'
    exact hafter
  cases hop with
  | @value op c call hasks hfits hlt =>
    obtain ⟨x, hx⟩ := h.exists_characteristic hlt
    have hdefined := h.defined_of_returns hasks hfits hexec hx
    by_cases hregistered : Obj.characteristic c ∈ σ.registeredObjects
    · exact hunique (h.value hasks hfits hx hdefined (Or.inr hregistered))
    · -- the script reaches the object itself, a message does not
      cases hasks with
      | set _ v t => exact hunique (h.value (.set c v t) hfits hx hdefined (Or.inl rfl))
      | _ => exact hunique (h.undelivered hregistered)
  | @getAll c m hcall hmember =>
    have hop : (Op.deliver (.characteristic c) m).Elsewhere := hcall.noMethod (by decide) _
    exact h.elsewhere hop hexec
  | @getManagedObjects d m hcall hmember =>
    have hop : (Op.deliver (.device d) m).Elsewhere := hcall.noMethod (by decide) _
    exact h.elsewhere hop hexec
  | other hop _ => exact h.elsewhere hop hexec

/-- It returns if the library takes the texts it tells. -/
theorem returns {op : Op} (hop : op.Sound σ) (htaken : op.TextsTaken σ) :
    ∃ r σ', exec op σ = .ok (r, σ') := by
  cases hop with
  | @value op c call hasks hfits hlt =>
    obtain ⟨x, hx⟩ := h.exists_characteristic hlt
    have hdefined := h.defined_of_taken hasks hfits htaken hx
    by_cases hregistered : Obj.characteristic c ∈ σ.registeredObjects
    · obtain ⟨r, σ', hexec, -⟩ := h.value hasks hfits hx hdefined (Or.inr hregistered)
      exact ⟨r, σ', hexec⟩
    · cases hasks with
      | set _ v t =>
        obtain ⟨r, σ', hexec, -⟩ := h.value (.set c v t) hfits hx hdefined (Or.inl rfl)
        exact ⟨r, σ', hexec⟩
      | _ => exact ⟨_, σ, if_neg hregistered⟩
  | @getAll c m hcall hmember =>
    by_cases hregistered : Obj.characteristic c ∈ σ.registeredObjects
    · obtain ⟨properties, -, hvalid, hreply⟩ := h.getAll hregistered hcall hmember
      rw [replyWith, DBusValue.validTexts,
        if_pos (hvalid.mpr (htaken.getAll c m rfl hcall hmember)), ok_map] at hreply
      exact ⟨_, _, hreply⟩
    · exact ⟨_, σ, if_neg hregistered⟩
  | @getManagedObjects d m hcall hmember =>
    by_cases hregistered : Obj.device d ∈ σ.registeredObjects
    · obtain ⟨entries, -, hvalid, hreply⟩ := h.getManagedObjects hregistered hcall hmember
      rw [replyWith, DBusValue.validTexts,
        if_pos (hvalid.mpr (htaken.getManagedObjects d m rfl hcall hmember)), ok_map] at hreply
      exact ⟨_, _, hreply⟩
    · exact ⟨_, σ, if_neg hregistered⟩
  | other _ hok =>
    obtain ⟨⟨r, σ'⟩, hexec⟩ := exists_of_isOk hok
    exact ⟨r, σ', hexec⟩

end Current

/-- Nothing has been written yet, and there are no characteristics. -/
theorem Current.of_isInitial {σ : State} (hinit : σ.IsInitial) (hf : σ.buffers.NeverFails)
    (hmemory : σ.bus.outOfMemory = false) : Current σ fun _ => [] := by
  obtain ⟨strings, buffers, fails, outOfMemory, rfl⟩ := hinit
  have hnone : ∀ c x,
      (State.initial strings buffers fails outOfMemory).characteristic c ≠ .ok x := by
    intro c x hx
    have hget := (State.characteristic_eq_ok.mp hx).2
    simp [State.initial] at hget
  exact ⟨⟨_, [], [], ⟨_, _, _, _, rfl⟩, by simp, rfl⟩, hf, hmemory,
    fun c x hx => absurd hx (hnone c x), fun _ _ => rfl, fun _ => Nat.zero_le _,
    fun c x hx => absurd hx (hnone c x)⟩

/-- In every run of calls on values that overrun no block, and of any steps in between that
return, a characteristic holds the bytes last written to it, and all readers and signals agree on
them. Only a text that the library does not take can keep a run from going on. -/
theorem values_agree {σ₀ : State} (hinit : σ₀.IsInitial) (hf : σ₀.buffers.NeverFails)
    (hmemory : σ₀.bus.outOfMemory = false) {ops : List Op}
    (hops : AllSteps exec (fun op σ => op.Sound σ) ops σ₀) :
    (AllSteps exec (fun op σ => op.TextsTaken σ) ops σ₀ →
      ∃ replies σ, execAll ops σ₀ = .ok (replies, σ)) ∧
    ∀ replies σ, execAll ops σ₀ = .ok (replies, σ) →
      (∀ c x, σ.characteristic c = .ok x → Holds σ c (latest ops replies c)) ∧
      ∀ op, op.Sound σ → (op.TextsTaken σ → ∃ r σ', exec op σ = .ok (r, σ')) ∧
        ∀ r σ', exec op σ = .ok (r, σ') →
          Views op σ σ' (latest (ops ++ [op]) (replies ++ [r])) := by
  have hstart := Current.of_isInitial hinit hf hmemory
  constructor
  · intro htaken
    obtain ⟨replies, σ, hrun, -⟩ := lastWrites_run Op.writes
      (fun op σ bytes hop h => by
        obtain ⟨r, σ', hexec⟩ := h.returns hop.1 hop.2
        exact ⟨r, σ', hexec, (h.step hop.1 hexec).1⟩) (hops.and htaken) hstart
    exact ⟨replies, σ, hrun⟩
  · intro replies σ hrun
    have hstep : ∀ op (τ : State) bytes r τ', op.Sound τ → Current τ bytes →
        exec op τ = .ok (r, τ') → Current τ' (write Op.writes bytes op r) :=
      fun op τ bytes r τ' hop h hexec => (h.step hop hexec).1
    have hcurrent := lastWrites_invariant Op.writes hstep hops hstart hrun
    refine ⟨hcurrent.holds, fun op hop => ⟨hcurrent.returns hop, fun r σ' hexec => ?_⟩⟩
    rw [latest, lastWrites_append (runAll_length hrun)]
    exact (hcurrent.step hop hexec).2

/-- The theorem where the script sets a value after a characteristic has been set up. -/
theorem values_agree_set : ∃ replies σ, execAll oneCharacteristic State.empty = .ok (replies, σ) ∧
    ∃ r σ', exec (.setValue 0 (.integer 5) (.integer 2)) σ = .ok (r, σ') ∧
      Views (.setValue 0 (.integer 5) (.integer 2)) σ σ'
        (latest (oneCharacteristic ++ [.setValue 0 (.integer 5) (.integer 2)])
          (replies ++ [r])) := by
  have helse : ∀ op ∈ oneCharacteristic, op.Elsewhere := by
    intro op hop
    simp only [oneCharacteristic, List.mem_cons, List.not_mem_nil, or_false] at hop
    rcases hop with rfl | rfl | rfl | rfl | rfl <;> trivial
  have hops : AllSteps exec (fun op σ => op.Sound σ) oneCharacteristic State.empty :=
    ((allSteps_of_forall helse _).and (allSteps_isOk (by decide))).mono
      fun op σ h => .other h.1 h.2
  have htaken : AllSteps exec (fun op σ => op.TextsTaken σ) oneCharacteristic State.empty := by
    refine (allSteps_of_forall (P := fun op => op ∈ oneCharacteristic) (fun op h => h) _).mono
      fun op σ hop => ?_
    constructor
    · rintro c v t rfl
      simp [oneCharacteristic] at hop
    · rintro c m rfl - -
      simp [oneCharacteristic] at hop
    · rintro d m rfl - -
      simp [oneCharacteristic] at hop
  obtain ⟨hreturns, hviews⟩ := values_agree State.isInitial_empty (fun _ => rfl) rfl hops
  obtain ⟨replies, σ, hrun⟩ := hreturns htaken
  have hsound : (Op.setValue 0 (.integer 5) (.integer 2)).Sound σ := by
    refine .value (.set 0 _ _) (fun type ht => ?_) ?_
    · have htwo : luaiCheckTypeBleDataType (.integer 2) = .ret 2 := by decide
      obtain rfl : (2 : UInt32) = type := LuaExit.ret.inj (htwo.symm.trans ht)
      refine ⟨by decide, fun bytes hconv => ?_⟩
      have hbytes : convertedBytes 2 (.integer 5) = some [5] := by decide
      obtain rfl : [5] = bytes := Option.some.inj (hbytes.symm.trans hconv)
      decide
    · have hlength : (execAll oneCharacteristic State.empty).map
          (·.2.characteristics.length) = .ok 1 := by decide
      rw [hrun] at hlength
      rw [show σ.characteristics.length = 1 from Except.ok.inj hlength]
      decide
  have hexec : ((execAll oneCharacteristic State.empty).bind fun p =>
      exec (.setValue 0 (.integer 5) (.integer 2)) p.2).isOk = true := by decide
  rw [hrun] at hexec
  obtain ⟨⟨r, σ'⟩, hexec⟩ := exists_of_isOk hexec
  exact ⟨replies, σ, hrun, r, σ', hexec, ((hviews replies σ hrun).2 _ hsound).2 r σ' hexec⟩

/-- Setting a number of type `INT32` writes four bytes into a block of one. -/
theorem not_values_agree_int32 : ¬ ∃ replies σ,
    execAll [.createCharacteristic "2A19".toList, .setValue 0 (.integer 7) (.integer 5)] State.empty
      = .ok (replies, σ) ∧
    ∀ c x, σ.characteristic c = .ok x → Holds σ c (latest
      [.createCharacteristic "2A19".toList, .setValue 0 (.integer 7) (.integer 5)] replies c) := by
  rintro ⟨replies, σ, hrun, -⟩
  have hfault : (execAll [.createCharacteristic "2A19".toList,
      .setValue 0 (.integer 7) (.integer 5)] State.empty).isOk = false := by
    decide
  rw [hrun] at hfault
  cases hfault

end BleSim
