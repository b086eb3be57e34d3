import BleSim.MessageTheorems

/-!
# Types of message bodies

A container records the signature it was opened with, so what an iterator that checks every
value against that signature would let through can be read off the finished value: it is well
typed (`finish_wellTyped_iff`). This file types the values the property getters write, and from
them the bodies of the messages that are put together from the tables.
-/

namespace BleSim

open Outcomes WriteOnce DBusValue

/-! ## A checking iterator -/

/-- Whether an iterator that checks signatures lets a value be appended to an open container: an
array takes values of its element signature, a variant one value of its signature, and a dict
entry a key and a value. -/
def Frame.Admits (f : Frame) (v : DBusValue) : Prop :=
  match f.container with
  | .array elem => v.signature = elem
  | .variant sig => f.items = [] ∧ v.signature = sig
  | .dictEntry => f.items.length < 2

/-- The container as it was when the item at `i` was appended. -/
def Frame.before (f : Frame) (i : ℕ) : Frame := { f with items := f.items.take i }

/-- Every value in a container is well typed, and was admitted when it was appended. -/
def Frame.Checked (f : Frame) : Prop :=
  ∀ i item, f.items[i]? = some item → (f.before i).Admits item ∧ item.WellTyped

/-- The values of an array are checked one by one. -/
theorem array_wellTyped_iff (elem : Signature) (items : List DBusValue) :
    (DBusValue.array elem items).WellTyped ↔ Frame.Checked ⟨.array elem, items⟩ := by
  constructor
  · intro hv
    cases hv with
    | array hsignature htyped =>
      intro i item hitem
      have hmem := List.mem_of_getElem? hitem
      exact ⟨hsignature item hmem, htyped item hmem⟩
  · intro hall
    apply WellTyped.array
    · intro item hmem
      obtain ⟨i, hi⟩ := List.mem_iff_getElem?.mp hmem
      exact (hall i item hi).1
    · intro item hmem
      obtain ⟨i, hi⟩ := List.mem_iff_getElem?.mp hmem
      exact (hall i item hi).2

/-- So is the one value of a variant. -/
theorem variant_wellTyped_iff (sig : Signature) (value : DBusValue) :
    (DBusValue.variant sig value).WellTyped ↔ Frame.Checked ⟨.variant sig, [value]⟩ := by
  constructor
  · intro hv
    cases hv with
    | variant hsignature htyped =>
      intro i item hitem
      cases i with
      | zero =>
        cases hitem
        exact ⟨⟨rfl, hsignature⟩, htyped⟩
      | succ i => cases hitem
  · intro hall
    obtain ⟨⟨-, hsignature⟩, htyped⟩ := hall 0 _ rfl
    exact .variant hsignature htyped

/-- A dict entry admits any key and any value. -/
theorem dictEntry_wellTyped_iff (key value : DBusValue) :
    (DBusValue.dictEntry key value).WellTyped ↔ Frame.Checked ⟨.dictEntry, [key, value]⟩ := by
  constructor
  · intro hv
    cases hv with
    | dictEntry hkey hvalue =>
      intro i item hitem
      match i with
      | 0 =>
        cases hitem
        exact ⟨Nat.zero_lt_two, hkey⟩
      | 1 =>
        cases hitem
        exact ⟨Nat.one_lt_two, hvalue⟩
      | i + 2 => cases hitem
  · intro hall
    exact .dictEntry (hall 0 _ rfl).2 (hall 1 _ rfl).2

/-- A finished container is well typed exactly when every value in it is, and was admitted when it
was appended. -/
theorem finish_wellTyped_iff {f : Frame} {v : DBusValue} (h : f.finish = some v) :
    v.WellTyped ↔
      ∀ i item, f.items[i]? = some item → (f.before i).Admits item ∧ item.WellTyped := by
  show v.WellTyped ↔ f.Checked
  obtain ⟨container, items⟩ := f
  cases container with
  | array elem =>
    cases h
    exact array_wellTyped_iff elem items
  | variant sig =>
    -- a variant is finished with one value in it
    rcases items with _ | ⟨value, _ | ⟨_, _⟩⟩
    · cases h
    · cases h
      exact variant_wellTyped_iff sig value
    · cases h
  | dictEntry =>
    -- a dict entry is finished with a key and a value in it
    rcases items with _ | ⟨key, _ | ⟨value, _ | ⟨_, _⟩⟩⟩
    · cases h
    · cases h
    · cases h
      exact dictEntry_wellTyped_iff key value
    · cases h

/-- A value that is well typed and has the given signature. -/
def DBusValue.HasType (v : DBusValue) (sig : Signature) : Prop := v.WellTyped ∧ v.signature = sig

/-- A message whose body is well typed and has the given signature. -/
def Message.Carries (m : Message) (sig : Signature) : Prop := m.WellTyped ∧ m.signature = sig

/-- `get` appends exactly one complete value, of the given type. -/
def WritesType (get : Iter → Writer → Outcome Writer) (sig : Signature) : Prop :=
  ∃ v, Writes get v ∧ v.HasType sig

/-! ## Values of properties -/

/-- Each value has the type in its row. -/
abbrev TypedTable (table : List Property) (values : List DBusValue) : Prop :=
  List.Forall₂ (fun p v => DBusValue.HasType v p.signature) table values

theorem hasType_array {elem : Signature} {items : List DBusValue}
    (h : ∀ v ∈ items, v.HasType elem) : (DBusValue.array elem items).HasType ('a' :: elem) :=
  ⟨.array (fun v hv => (h v hv).2) fun v hv => (h v hv).1, rfl⟩

theorem hasType_byteArray (bytes : Bytes) : (DBusValue.byteArray bytes).HasType ['a', 'y'] := by
  apply hasType_array
  intro v hv
  obtain ⟨b, -, rfl⟩ := List.mem_map.mp hv
  exact ⟨.byte b, rfl⟩

/-- Booleans and arrays of bytes hold no texts. -/
theorem DBusValue.HasType.validTexts {v : DBusValue} {sig : Signature} (h : v.HasType sig)
    (hsig : sig = ['b'] ∨ sig = ['a', 'y']) : v.validTexts = true := by
  obtain ⟨htyped, hsignature⟩ := h
  cases htyped with
  | string | objectPath | variant | dictEntry =>
    rcases hsig with rfl | rfl <;> cases hsignature
  | @array elem items hitems _ =>
    rcases hsig with rfl | rfl
    · cases hsignature
    · cases hsignature
      rw [DBusValue.validTexts, validTextsAll_iff]
      intro item hitem
      -- the items are bytes
      have hbyte := hitems item hitem
      cases item with
      | string | objectPath => cases hbyte
      | array | variant | dictEntry => cases hbyte
      | _ => rfl
  | _ => rfl

theorem hasType_flagNames (table : List ObjectFlag) (flags : UInt32) :
    (DBusValue.array ['s'] (flagNames table flags)).HasType ['a', 's'] := by
  apply hasType_array
  intro v hv
  obtain ⟨flag, -, rfl⟩ := List.mem_map.mp hv
  exact ⟨.string _, rfl⟩

theorem serviceValues_typed (σ : State) (x : Service) :
    TypedTable (serviceProperties σ (.ok x)) (serviceValues σ x) :=
  .cons ⟨.string _, rfl⟩ (.cons ⟨.objectPath _, rfl⟩ (.cons ⟨.boolean _, rfl⟩ .nil))

theorem characteristicValues_typed (σ : State) (x : Characteristic) :
    TypedTable (characteristicProperties σ (.ok x)) (characteristicValues σ x) :=
  .cons ⟨.string _, rfl⟩ (.cons ⟨.objectPath _, rfl⟩
    (.cons (hasType_flagNames _ _) (.cons (hasType_byteArray _) .nil)))

theorem descriptorValues_typed (σ : State) (x : Descriptor) :
    TypedTable (descriptorProperties σ (.ok x)) (descriptorValues σ x) :=
  .cons ⟨.string _, rfl⟩ (.cons ⟨.objectPath _, rfl⟩
    (.cons (hasType_flagNames _ _) (.cons (hasType_byteArray _) .nil)))

/-! ## Bodies -/

/-- A value of the type in its row makes an entry of type `{sv}`. -/
theorem propertyEntry_hasType {name : CStr} {sig : Signature} {v : DBusValue} (h : v.HasType sig) :
    (propertyEntry name sig v).HasType "{sv}".toList :=
  ⟨.dictEntry (.string name) (.variant h.2 h.1), rfl⟩

/-- A table whose values have the types in their rows is dumped as `a{sv}`. -/
theorem tableEntries_hasType {table : List Property} {values : List DBusValue}
    (h : TypedTable table values) :
    (DBusValue.array "{sv}".toList (tableEntries table values)).HasType "a{sv}".toList := by
  apply hasType_array
  induction h with
  | nil =>
    intro v hv
    cases hv
  | @cons p value table values hvalue _ ih =>
    intro v hv
    rcases List.mem_cons.mp hv with rfl | hv
    · exact propertyEntry_hasType hvalue
    · exact ih v hv

/-- The entry of an object has type `{oa{sa{sv}}}`. -/
theorem objectEntry_hasType {path interface : CStr} {table : List Property}
    {values : List DBusValue} (h : TypedTable table values) :
    (objectEntry path interface (tableEntries table values)).HasType "{oa{sa{sv}}}".toList := by
  have hdump := tableEntries_hasType h
  have hinterface : (DBusValue.array "{sa{sv}}".toList
      [.dictEntry (.string interface) (.array "{sv}".toList (tableEntries table values))]).HasType
        "a{sa{sv}}".toList := by
    apply hasType_array
    intro v hv
    rw [List.mem_singleton.mp hv]
    exact ⟨.dictEntry (.string interface) hdump.1, rfl⟩
  exact ⟨.dictEntry (.objectPath path) hinterface.1, rfl⟩

/-- So do all entries of `GetManagedObjects`. -/
theorem entries_hasType (σ : State) (objects : List Obj) :
    (DBusValue.array "{oa{sa{sv}}}".toList (σ.entries objects)).HasType
      "a{oa{sa{sv}}}".toList := by
  apply hasType_array
  intro v hv
  obtain ⟨o, -, hentry⟩ := List.mem_filterMap.mp hv
  cases o with
  | service s =>
    obtain ⟨x, -, rfl⟩ := Option.map_eq_some_iff.mp hentry
    exact objectEntry_hasType (serviceValues_typed σ x)
  | characteristic c =>
    obtain ⟨x, -, rfl⟩ := Option.map_eq_some_iff.mp hentry
    exact objectEntry_hasType (characteristicValues_typed σ x)
  | descriptor k =>
    obtain ⟨x, -, rfl⟩ := Option.map_eq_some_iff.mp hentry
    exact objectEntry_hasType (descriptorValues_typed σ x)
  | device d => cases hentry
  | advertisement d => cases hentry

/-! ## What is sent -/

theorem bluezRegisterMessage_carries (controllerPath interface method objectPath : CStr) :
    (bluezRegisterMessage controllerPath interface method objectPath).Carries "oa{sv}".toList := by
  refine ⟨?_, rfl⟩
  intro v hv
  simp only [bluezRegisterMessage, List.mem_cons, List.not_mem_nil, or_false] at hv
  rcases hv with rfl | rfl
  · exact .objectPath objectPath
  · exact .array (fun v hv => by cases hv) fun v hv => by cases hv

theorem methodReturn_carries {v : DBusValue} {sig : Signature} (h : v.HasType sig) :
    (methodReturn [v]).Carries sig := by
  refine ⟨?_, ?_⟩
  · intro w hw
    rw [List.mem_singleton.mp hw]
    exact h.1
  · rw [Message.signature, methodReturn, List.flatMap_cons, h.2]
    exact List.append_nil sig

/-- The signal that `characteristic_update_value` sends about the value of a characteristic. -/
def valueChangedSignal (σ : State) (x : Characteristic) : Outcome Connection :=
  dbusutilsSendObjectPropertiesChangedSignal σ.strings x.node.objectPath
    bluezGattCharacteristicInterface
    [⟨blePropertyValue, ['a', 'y'], characteristicGetValue σ x⟩] σ.bus

/-- Whatever a registered object is asked to write is written and well typed: its getters write one
complete value each, of the type in its row, and the messages made from them carry what they
should. (A message that could not be allocated is not there, and neither is one with a text that the
library does not take.) -/
structure BodiesTyped (σ : State) (o : Obj) : Prop where
  getters : ∀ p ∈ (objectData σ o).properties, WritesType p.get p.signature
  getAll : TextsTaken σ o → ∀ message, ∃ reply,
    dbusutilsObjectGetAll σ.bus message (objectData σ o) = .ok reply ∧
      ∀ m ∈ reply, m.Carries "a{sv}".toList
  managedObjects : ∀ d, o = .device d → TreeTextsTaken σ d → ∀ message, ∃ reply,
    deviceGetManagedObjects d message σ = .ok (reply, σ) ∧
      ∀ m ∈ reply, m.Carries "a{oa{sa{sv}}}".toList
  readValue : ∀ c, o = .characteristic c → ∀ message, ∃ reply,
    characteristicReadValue c message σ = .ok (reply, σ) ∧ ∀ m ∈ reply, m.Carries "ay".toList
  propertiesChanged : ∀ c, o = .characteristic c → PathTaken σ o →
    ∃ x signals, σ.characteristic c = .ok x ∧
      valueChangedSignal σ x = .ok { σ.bus with sent := σ.bus.sent ++ signals } ∧
        ∀ m ∈ signals, m.Carries "sa{sv}as".toList
  registerApplication : ∀ d env σ', o = .device d →
    deviceRegisterWithBluez d env σ = .ok (true, σ') →
      ∃ m, σ'.bus.sent = σ.bus.sent ++ [m] ∧ m.Carries "oa{sv}".toList
  registerAdvertisement : ∀ d x controllerPath env bus, o = .advertisement d →
    σ.device d = .ok x →
    advertisementRegisterWithBluez σ.strings x.advertisement d controllerPath env σ.bus
      = .ok (true, bus) →
      ∃ m, bus.sent = σ.bus.sent ++ [m] ∧ m.Carries "oa{sv}".toList

/-- Whether a registered object that is no advertisement can write all it is asked to write: it, and
for a device everything in its tree, is still there, and values fit into arrays. A device is not
asked for anything but a reply that can be allocated, with texts that are taken. -/
def Tellable (σ : State) (o : Obj) : Prop :=
  match o with
  | .advertisement _ => False
  | .device d => σ.bus.outOfMemory = false → TreeTextsTaken σ d →
      .device d ∉ σ.finalised ∧ ∀ o, Managed σ d o → Complete σ o
  | o => Complete σ o

/-- A getter writes one value, if it writes one the library takes. -/
theorem Writes.unique {get : Iter → Writer → Outcome Writer} {v v' : DBusValue}
    (h : Writes get v) (hv : v.validTexts = true) (h' : Writes get v') : v' = v := by
  have hsame := (h (.initAppend []) 0 rfl).symm.trans (h' (.initAppend []) 0 rfl)
  rw [Writer.append, if_pos hv, Writer.append] at hsame
  split_ifs at hsame
  rw [Except.ok.injEq, Writer.push_initAppend, Writer.push_initAppend] at hsame
  simpa using (congrArg Writer.body hsame).symm

/-- `Includes` of an advertisement is declared as `as` and written as `aas`. -/
theorem not_writesType_includes : ¬ WritesType advertisementGetIncludes ['a', 's'] := by
  intro h
  obtain ⟨v, hv, -, hsignature⟩ := h
  have hincludes : Writes advertisementGetIncludes (.array ['a', 's'] []) := WritesAll.nil.array _
  rw [hincludes.unique rfl hv] at hsignature
  revert hsignature
  decide

/-- A table whose rows write values of their types is dumped in full. -/
theorem table_typed {table : List Property} {values : List DBusValue}
    (hwrites : WritesTable table values) (htyped : TypedTable table values) (methods : List Method)
    (bus : Connection) :
    (∀ p ∈ table, WritesType p.get p.signature) ∧
      (DBusValue.validTextsAll (tableEntries table values) = true → ∀ message, ∃ reply,
        dbusutilsObjectGetAll bus message ⟨table, methods⟩ = .ok reply ∧
          ∀ m ∈ reply, m.Carries "a{sv}".toList) := by
  constructor
  · induction hwrites with
    | nil =>
      intro p hp
      cases hp
    | @cons p v table values hwrite _ ih =>
      obtain ⟨hvalue, hrest⟩ := List.forall₂_cons.mp htyped
      rw [List.forall_mem_cons]
      exact ⟨⟨v, hwrite, hvalue⟩, ih hrest⟩
  · intro hvalid message
    cases hmemory : bus.outOfMemory with
    | true =>
      -- without memory no reply is created
      refine ⟨none, ?_, fun m hm => by cases hm⟩
      simp [dbusutilsObjectGetAll, dbusMessageNewMethodReturn, hmemory]
    | false =>
      have hrun : dbusutilsObjectGetAll bus message ⟨table, methods⟩ = some <$> replyWith _ :=
        dbusutilsObjectGetAll_writes hmemory (dbusutilsGetObjectPropertyData_writes hwrites)
      rw [replyWith, DBusValue.validTexts, if_pos hvalid, ok_map] at hrun
      refine ⟨_, hrun, ?_⟩
      intro m hm
      cases hm
      exact methodReturn_carries (tableEntries_hasType htyped)

section Bodies

variable {σ : State}

/-- The requests to BlueZ carry what they should in any case. -/
theorem registerApplication_carries {d : ℕ} {env : BluezEnv} {σ' : State}
    (h : deviceRegisterWithBluez d env σ = .ok (true, σ')) :
    ∃ m, σ'.bus.sent = σ.bus.sent ++ [m] ∧ m.Carries "oa{sv}".toList := by
  simp only [deviceRegisterWithBluez, bind_eq_ok, ite_eq_ok] at h
  obtain ⟨x, -, ⟨-, h⟩ | ⟨-, request, hrequest, h⟩⟩ := h
  · cases h
  cases request with
  | none => cases h
  | some message =>
    obtain ⟨controllerPath, objectPath, rfl⟩ := bluezRegisterRequest_some hrequest
    cases h
    exact ⟨_, rfl, bluezRegisterMessage_carries _ _ _ _⟩

theorem registerAdvertisement_carries {x : Advertisement} {d : ℕ} {controllerPath : Ptr CStr}
    {env : BluezEnv} {bus : Connection}
    (h : advertisementRegisterWithBluez σ.strings x d controllerPath env σ.bus
      = .ok (true, bus)) :
    ∃ m, bus.sent = σ.bus.sent ++ [m] ∧ m.Carries "oa{sv}".toList := by
  obtain ⟨request, hrequest, h⟩ := bind_eq_ok.mp h
  cases request with
  | none => cases h
  | some message =>
    obtain ⟨path, objectPath, rfl⟩ := bluezRegisterRequest_some hrequest
    cases h
    exact ⟨_, rfl, bluezRegisterMessage_carries _ _ _ _⟩

/-- The signal about a value that fits into an array. -/
theorem valueChangedSignal_carries {x : Characteristic} {bytes : Bytes} {path : CStr}
    (hpath : libraryPath σ.strings x.node.objectPath = .ok path)
    (hwrites : Writes (characteristicGetValue σ x) (.byteArray bytes)) :
    ∃ signals, valueChangedSignal σ x = .ok { σ.bus with sent := σ.bus.sent ++ signals } ∧
      ∀ m ∈ signals, m.Carries "sa{sv}as".toList := by
  unfold valueChangedSignal
  cases hmemory : σ.bus.outOfMemory with
  | true =>
    refine ⟨[], ?_, fun m hm => by cases hm⟩
    rw [List.append_nil, dbusutilsSendObjectPropertiesChangedSignal_outOfMemory hpath _ hmemory]
  | false =>
    rw [sendValueSignal_eq hpath hmemory hwrites]
    refine ⟨_, rfl, ?_⟩
    intro m hm
    rw [List.mem_singleton.mp hm]
    have hdump : (DBusValue.array "{sv}".toList (tableEntries
        [⟨blePropertyValue, ['a', 'y'], characteristicGetValue σ x⟩]
        [.byteArray bytes])).HasType "a{sv}".toList :=
      tableEntries_hasType (.cons (hasType_byteArray bytes) .nil)
    refine ⟨?_, rfl⟩
    intro v hv
    simp only [valueSignal, propertiesChangedMessage, List.mem_cons, List.not_mem_nil,
      or_false] at hv
    -- the interface, the table of the one property, and no invalidated ones
    rcases hv with rfl | rfl | rfl
    · exact .string _
    · exact hdump.1
    · exact .array (fun v hv => by cases hv) fun v hv => by cases hv

variable (hpointers : PointersInv σ) (hregistration : RegistrationInv σ) (hvalues : ValuesInv σ)
  {o : Obj} (ho : o ∈ σ.registeredObjects)
include hpointers hregistration hvalues ho

/-- A registered object whose getters all write has nothing that cannot be read: what a row without
texts writes is taken. -/
theorem readable_of_writesType {p : Property} (hp : p ∈ (objectData σ o).properties)
    (htextless : p.signature = ['b'] ∨ p.signature = ['a', 'y'])
    (h : WritesType p.get p.signature) : Readable σ o p.name := by
  by_contra hnot
  obtain ⟨e, he⟩ := (objectData_decides hpointers hregistration hvalues ho p hp).fails hnot
    (.initAppend []) 0 rfl
  obtain ⟨v, hv, htype⟩ := h
  -- the same call would write its value and fail
  have hsame := (hv.ok (htype.validTexts htextless) (Writer.zero_eq_depth [])).symm.trans he
  cases hsame

/-- The table of a registered object that is neither a device nor an advertisement. -/
theorem table_of_complete (hchild : ∃ kind i, o = Kind.object kind i)
    (h : Complete σ o) : ∃ values, WritesTable (objectData σ o).properties values ∧
      TypedTable (objectData σ o).properties values ∧
      (DBusValue.validTextsAll (tableEntries (objectData σ o).properties values) = true ↔
        TextsTaken σ o) := by
  obtain ⟨kind, i, rfl⟩ := hchild
  obtain ⟨n, hn, hpublished⟩ := published_of_registered hpointers hregistration kind ho
  cases kind with
  | service =>
    simp only [State.nodes, List.getElem?_map, Option.map_eq_some_iff] at hn
    obtain ⟨x, hx, rfl⟩ := hn
    have hok : σ.service i = .ok x := State.service_eq_ok.mpr ⟨h, hx⟩
    have htable : (objectData σ (.service i)).properties = serviceProperties σ (.ok x) := by
      simp only [objectData, hok]
    rw [Kind.object, htable]
    exact ⟨_, serviceProperties_writes (hpublished h).2, serviceValues_typed σ x,
      validTexts_dump htable (serviceValues_texts hok)⟩
  | characteristic =>
    -- a characteristic has to be there, and its value has to fit
    obtain ⟨x, hok, hmax⟩ := h
    have hx := (State.characteristic_eq_ok.mp hok).2
    obtain rfl : x.node = n := by simpa [State.nodes, hx] using hn
    have htable : (objectData σ (.characteristic i)).properties =
        characteristicProperties σ (.ok x) := by
      simp only [objectData, hok]
    have hfin := (State.characteristic_eq_ok.mp hok).1
    rw [Kind.object, htable]
    exact ⟨_, characteristicProperties_writes hvalues hok (hpublished hfin).2 hmax,
      characteristicValues_typed σ x, validTexts_dump htable (characteristicValues_texts hok)⟩
  | descriptor =>
    simp only [State.nodes, List.getElem?_map, Option.map_eq_some_iff] at hn
    obtain ⟨x, hx, rfl⟩ := hn
    have hok : σ.descriptor i = .ok x := State.descriptor_eq_ok.mpr ⟨h, hx⟩
    have htable : (objectData σ (.descriptor i)).properties =
        descriptorProperties σ (.ok x) := by
      simp only [objectData, hok]
    rw [Kind.object, htable]
    exact ⟨_, descriptorProperties_writes (hpublished h).2
      (hvalues.descriptors x (List.mem_of_getElem? hx)), descriptorValues_typed σ x,
      validTexts_dump htable (descriptorValues_texts hok)⟩

/-- An advertisement is not well typed, and what else is well typed is there and fits. -/
theorem BodiesTyped.tellable {children : Kind → ℕ → List ℕ} (hforests : Forests σ children)
    (h : BodiesTyped σ o) : Tellable σ o := by
  have hreadable : ∀ p ∈ (objectData σ o).properties,
      p.signature = ['b'] ∨ p.signature = ['a', 'y'] → Readable σ o p.name := fun p hp htextless =>
    readable_of_writesType hpointers hregistration hvalues ho hp htextless (h.getters p hp)
  cases o with
  | service s =>
    exact hreadable ⟨blePropertyPrimary, ['b'], _⟩ (.tail _ (.tail _ (.head _))) (Or.inl rfl)
  | characteristic c =>
    obtain ⟨x, hx, hmax⟩ := hreadable ⟨blePropertyValue, ['a', 'y'], _⟩
      (.tail _ (.tail _ (.tail _ (.head _)))) (Or.inr rfl)
    exact ⟨x, hx, hmax rfl⟩
  | descriptor k =>
    exact hreadable ⟨blePropertyValue, ['a', 'y'], _⟩ (.tail _ (.tail _ (.tail _ (.head _))))
      (Or.inr rfl)
  | advertisement d =>
    apply not_writesType_includes
    apply h.getters ⟨blePropertyIncludes, ['a', 's'], advertisementGetIncludes⟩
    simp [objectData, advertisementProperties]
  | device d =>
    -- a reply that could be built tells about everything in the tree
    intro hmemory htexts
    obtain ⟨reply, hrun, -⟩ := h.managedObjects d rfl htexts (getAllMessage none [])
    obtain ⟨x, hx⟩ : ∃ x, σ.device d = .ok x := by
      cases hx : σ.device d with
      | ok x => exact ⟨x, rfl⟩
      | error e =>
        rw [deviceGetManagedObjects_noDevice hmemory hx] at hrun
        cases hrun
    refine ⟨(State.device_eq_ok.mp hx).1, ?_⟩
    by_contra hnot
    obtain ⟨e, he⟩ := (deviceGetManagedObjects_serves hpointers hvalues hforests hx hmemory
      (getAllMessage none [])).2 fun hall => hnot fun o hmanaged =>
        hall o (hforests.managed_iff.mp hmanaged)
    rw [he] at hrun
    cases hrun

end Bodies

section Told

variable {σ : State} (hpointers : PointersInv σ) (hregistration : RegistrationInv σ)
  (hvalues : ValuesInv σ)
include hpointers hregistration hvalues

/-- What a child that can be told writes of its properties. -/
theorem properties_typed (kind : Kind) {i : ℕ} (ho : kind.object i ∈ σ.registeredObjects)
    (h : Complete σ (kind.object i)) :
    (∀ p ∈ (objectData σ (kind.object i)).properties, WritesType p.get p.signature) ∧
      (TextsTaken σ (kind.object i) → ∀ message, ∃ reply,
        dbusutilsObjectGetAll σ.bus message (objectData σ (kind.object i)) = .ok reply ∧
          ∀ m ∈ reply, m.Carries "a{sv}".toList) := by
  obtain ⟨values, hwrites, htyped, htexts⟩ :=
    table_of_complete hpointers hregistration hvalues ho ⟨kind, i, rfl⟩ h
  rw [← htexts]
  exact table_typed hwrites htyped _ _

/-- What a characteristic with a value that fits writes of its value. -/
theorem value_typed {c : ℕ} {x : Characteristic}
    (ho : Obj.characteristic c ∈ σ.registeredObjects) (hx : σ.characteristic c = .ok x)
    (hmax : x.valueSize.toNat ≤ dbusMaximumArrayLength) :
    (∀ message, ∃ reply, characteristicReadValue c message σ = .ok (reply, σ) ∧
      ∀ m ∈ reply, m.Carries "ay".toList) ∧
    (PathTaken σ (.characteristic c) →
      ∃ signals, valueChangedSignal σ x = .ok { σ.bus with sent := σ.bus.sent ++ signals } ∧
        ∀ m ∈ signals, m.Carries "sa{sv}as".toList) := by
  constructor
  · intro message
    cases hmemory : σ.bus.outOfMemory with
    | true =>
      refine ⟨none, ?_, fun m hm => by cases hm⟩
      simp [characteristicReadValue, dbusMessageNewMethodReturn, hmemory]
    | false =>
      refine ⟨_, characteristicReadValue_eq hmemory hvalues hx hmax, ?_⟩
      intro m hm
      cases hm
      exact methodReturn_carries (hasType_byteArray _)
  · intro htaken
    obtain ⟨hfin, hget⟩ := State.characteristic_eq_ok.mp hx
    obtain ⟨n, hn, hpublished⟩ :=
      published_of_registered hpointers hregistration .characteristic ho
    obtain rfl : x.node = n := by simpa [State.nodes, hget] using hn
    obtain ⟨path, hpoints⟩ := (hpublished hfin).2.objectPath
    have hvalid := htaken .characteristic c _ rfl (hpublished hfin).1
    rw [hpoints.read] at hvalid
    exact valueChangedSignal_carries (libraryPath_eq_ok.mpr ⟨hpoints, hvalid⟩)
      ((characteristicGetValue_decides hvalues hx).1 hmax)

omit hregistration in
/-- What a device writes whose tree can be told. -/
theorem managedObjects_typed {children : Kind → ℕ → List ℕ} (hforests : Forests σ children) {d : ℕ}
    (hlt : d < σ.devices.length) (htexts : TreeTextsTaken σ d)
    (hready : σ.bus.outOfMemory = false → TreeTextsTaken σ d →
      Obj.device d ∉ σ.finalised ∧ ∀ o, Managed σ d o → Complete σ o)
    (message : Message) : ∃ reply, deviceGetManagedObjects d message σ = .ok (reply, σ) ∧
      ∀ m ∈ reply, m.Carries "a{oa{sa{sv}}}".toList := by
  cases hmemory : σ.bus.outOfMemory with
  | true =>
    refine ⟨none, ?_, fun m hm => by cases hm⟩
    simp [deviceGetManagedObjects, dbusMessageNewMethodReturn, hmemory]
  | false =>
    obtain ⟨hfin, hready⟩ := hready hmemory htexts
    have hx : σ.device d = .ok σ.devices[d] :=
      State.device_eq_ok.mpr ⟨hfin, List.getElem?_eq_getElem hlt⟩
    have hall : ∀ o ∈ managedObjects children d, Complete σ o := fun o ho =>
      hready o (hforests.managed_iff.mpr ho)
    have hvalid := (validTexts_entries hall).mpr fun o ho =>
      have hmanaged := htexts o (hforests.managed_iff.mpr ho)
      ⟨⟨hall o ho, hmanaged.1⟩, hmanaged.2⟩
    have hrun :=
      (deviceGetManagedObjects_serves hpointers hvalues hforests hx hmemory message).1 hall
    rw [replyWith, DBusValue.validTexts, if_pos hvalid, ok_map] at hrun
    refine ⟨_, hrun, ?_⟩
    intro m hm
    cases hm
    exact methodReturn_carries (entries_hasType σ _)

theorem Tellable.bodiesTyped {children : Kind → ℕ → List ℕ} (hforests : Forests σ children)
    {o : Obj} (ho : o ∈ σ.registeredObjects) (h : Tellable σ o) : BodiesTyped σ o := by
  have happlication : ∀ d env σ', o = .device d →
      deviceRegisterWithBluez d env σ = .ok (true, σ') →
        ∃ m, σ'.bus.sent = σ.bus.sent ++ [m] ∧ m.Carries "oa{sv}".toList :=
    fun d env σ' _ hrun => registerApplication_carries hrun
  have hadvertisement : ∀ d x controllerPath env bus, o = .advertisement d →
      σ.device d = .ok x →
      advertisementRegisterWithBluez σ.strings x.advertisement d controllerPath env σ.bus
        = .ok (true, bus) →
      ∃ m, bus.sent = σ.bus.sent ++ [m] ∧ m.Carries "oa{sv}".toList :=
    fun d x controllerPath env bus _ _ hrun => registerAdvertisement_carries hrun
  cases o with
  | advertisement d => exact absurd h id
  | service s =>
    obtain ⟨hgetters, hgetAll⟩ :=
      properties_typed hpointers hregistration hvalues .service ho h
    exact ⟨hgetters, hgetAll, by simp, by simp, by simp, happlication, hadvertisement⟩
  | descriptor k =>
    obtain ⟨hgetters, hgetAll⟩ :=
      properties_typed hpointers hregistration hvalues .descriptor ho h
    exact ⟨hgetters, hgetAll, by simp, by simp, by simp, happlication, hadvertisement⟩
  | characteristic c =>
    obtain ⟨hgetters, hgetAll⟩ :=
      properties_typed hpointers hregistration hvalues .characteristic ho h
    obtain ⟨x, hx, hmax⟩ := h
    obtain ⟨hread, hsignal⟩ := value_typed hpointers hregistration hvalues ho hx hmax
    refine ⟨hgetters, hgetAll, by simp, ?_, ?_, happlication, hadvertisement⟩
    · intro c' hc
      cases hc
      exact hread
    · intro c' hc htaken
      cases hc
      obtain ⟨signals, hsignals, hcarries⟩ := hsignal htaken
      exact ⟨x, signals, hx, hsignals, hcarries⟩
  | device d =>
    obtain ⟨path, hmem⟩ := mem_registeredObjects.mp ho
    have hlt := (hregistration.devices d path hmem).2
    -- a device has no properties of its own: its table is empty
    obtain ⟨hgetters, hgetAll⟩ := table_typed .nil .nil (deviceMethods d) σ.bus
    refine ⟨hgetters, fun _ => hgetAll rfl, ?_, by simp, by simp, happlication,
      hadvertisement⟩
    intro d' hd htexts message
    cases hd
    exact managedObjects_typed hpointers hvalues hforests hlt htexts h message

end Told

/-- All that a registered object is asked to write is written with the types it is declared with
exactly when the object is no advertisement, it and what it has to tell about are still there, and
no value is longer than a D-Bus array. -/
theorem bodiesTyped_iff {σ : State} (hreach : Reachable σ) {o : Obj}
    (ho : o ∈ σ.registeredObjects) : BodiesTyped σ o ↔ Tellable σ o := by
  have hpointers := PointersInv.of_reachable hreach
  have hregistration := RegistrationInv.of_reachable hreach
  have hvalues := ValuesInv.of_reachable hreach
  obtain ⟨children, hforests⟩ := Forests.of_reachable hreach
  constructor
  · intro h
    exact h.tellable hpointers hregistration hvalues ho hforests
  · intro h
    exact h.bodiesTyped hpointers hregistration hvalues hforests ho

/-- The theorem for a service that has been added to a device. -/
theorem bodiesTyped_iff_service : BodiesTyped (State.after
    [.createDevice "lamp".toList, .createService "180F".toList,
      .add .service (fun _ _ => true) 0 0]) (.service 0) :=
  (bodiesTyped_iff (State.reachable_after (by decide) fun _ _ => trivial) (o := .service 0)
    (by decide)).mpr (show Obj.service 0 ∉ _ from List.not_mem_nil)

/-- What a kernel, BlueZ and the library do when nothing fails. -/
def allSucceeds : RegisterEnv := ⟨fun _ _ => true, some 1, ⟨true, true, true⟩⟩

/-- The advertisement of a device that has been registered declares `Includes` as `as` and writes
`aas`. -/
theorem not_bodiesTyped_advertisement : ¬ ∀ (σ : State) (o : Obj), Reachable σ →
    o ∈ σ.registeredObjects → BodiesTyped σ o := by
  intro h
  have hbodies := h (State.after [.createDevice "lamp".toList, .registerDevice allSucceeds 0])
    (.advertisement 0) (State.reachable_after (by decide) fun _ _ => trivial) (by decide)
  refine not_writesType_includes (hbodies.getters
    ⟨blePropertyIncludes, ['a', 's'], advertisementGetIncludes⟩ ?_)
  simp [objectData, advertisementProperties]

end BleSim
