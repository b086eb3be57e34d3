import BleSim.MessageTheorems
import BleSim.ServerValues

/-!
# What clients see of the server

The property tables of the registered objects tell the facts of the server (`Property.Tells`), and
messages to registered objects are handled as the server answers them.
-/

namespace BleSim

open Outcomes WriteOnce Refinement

/-! ## Tables and facts -/

/-- A row of a property table tells a fact. -/
structure Property.Tells (p : Property) (fact : Fact) : Prop where
  name : p.name = fact.name
  signature : p.signature = fact.signature
  valid : validUtf8 p.name = true
  writes : ∀ v, fact.value = some v → Writes p.get v ∧ v.validTexts = true
  fails : fact.value = none → Fails p.get

/-- The rows of a table tell the facts of a list, one by one. -/
abbrev TableTells (table : List Property) (facts : List Fact) : Prop :=
  List.Forall₂ Property.Tells table facts

namespace Property.Tells

variable {name : CStr} (hname : validUtf8 name = true) {sig : Signature}
  {get : Iter → Writer → Outcome Writer} {v : DBusValue} (h : Writes get v)

include hname h

theorem of_writes (hvalid : v.validTexts = true) :
    Property.Tells ⟨name, sig, get⟩ ⟨name, sig, some v⟩ := by
  refine ⟨rfl, rfl, hname, fun w hw => ?_, fun hnone => ?_⟩
  · cases hw
    exact ⟨h, hvalid⟩
  · cases hnone

/-- A text that may not be taken. -/
theorem of_texts :
    Property.Tells ⟨name, sig, get⟩ ⟨name, sig, if v.validTexts then some v else none⟩ := by
  split_ifs with hvalid
  · exact of_writes hname h hvalid
  · refine ⟨rfl, rfl, hname, fun w hw => ?_, fun _ w iter hiter => ?_⟩
    · cases hw
    · exact ⟨.invalidText, (h w iter hiter).trans (if_neg hvalid)⟩

end Property.Tells

namespace TableTells

variable {table : List Property} {facts : List Fact}

/-- If all facts can be told, the table is dumped as the array of their entries; if not, the first
that cannot be told stops it. -/
theorem decides (h : TableTells table facts) :
    (∀ entries, facts.mapM Fact.entry = some entries →
      Writes (dbusutilsGetObjectPropertyData table) (.array "{sv}".toList entries) ∧
        DBusValue.validTextsAll entries = true) ∧
    (facts.mapM Fact.entry = none → Fails (dbusutilsGetObjectPropertyData table)) := by
  -- either all rows write their values, or there is a first one that does not
  have hsplit : (∃ values, WritesTable table values ∧
        facts.mapM Fact.entry = some (tableEntries table values) ∧
        DBusValue.validTextsAll (tableEntries table values) = true) ∨
      facts.mapM Fact.entry = none ∧ ∃ before values p after, table = before ++ p :: after ∧
        WritesTable before values ∧ Fails p.get := by
    induction h with
    | nil => exact Or.inl ⟨[], .nil, rfl, rfl⟩
    | @cons p fact table facts hp _ ih =>
      cases hvalue : fact.value with
      | none =>
        exact Or.inr ⟨by simp [Fact.entry, hvalue], [], [], p, table, rfl, .nil, hp.fails hvalue⟩
      | some v =>
        obtain ⟨hwrites, hvalid⟩ := hp.writes v hvalue
        have hentry : fact.entry = some (propertyEntry p.name p.signature v) := by
          rw [Fact.entry, hvalue, hp.name, hp.signature]
          rfl
        rcases ih with ⟨values, hvalues, hentries, hall⟩ |
          ⟨hnone, before, values, q, after, rfl, hvalues, hfails⟩
        · refine Or.inl ⟨v :: values, .cons hwrites hvalues, ?_, ?_⟩
          · simp [hentry, hentries, tableEntries]
          · have hfirst : (propertyEntry p.name p.signature v).validTexts = true := by
              simp only [propertyEntry, DBusValue.validTexts, hp.valid, hvalid, Bool.and_self]
            rw [tableEntries] at hall ⊢
            rw [List.zipWith_cons_cons, DBusValue.validTextsAll, hfirst, hall, Bool.and_self]
        · exact Or.inr ⟨by simp [hentry, hnone],
            p :: before, v :: values, q, after, rfl, .cons hwrites hvalues, hfails⟩
  rcases hsplit with ⟨values, hvalues, hentries, hvalid⟩ |
    ⟨hnone, before, values, p, after, rfl, hvalues, hfails⟩
  · refine ⟨fun entries h => ?_, fun hnone => ?_⟩
    · obtain rfl := Option.some.inj (hentries.symm.trans h)
      exact ⟨dbusutilsGetObjectPropertyData_writes hvalues, hvalid⟩
    · rw [hentries] at hnone
      cases hnone
  · refine ⟨fun entries h => ?_, fun _ =>
      dbusutilsGetObjectPropertyData_fails hvalues p after hfails⟩
    rw [hnone] at h
    cases h

/-- A name is that of a row of the table if it is that of a fact. -/
theorem find (h : TableTells table facts) (name : CStr) :
    (table.find? (fun p => p.name = name) = none ∧
      facts.find? (fun fact => fact.name = name) = none) ∨
    ∃ p fact, table.find? (fun p => p.name = name) = some p ∧
      facts.find? (fun fact => fact.name = name) = some fact ∧ p.Tells fact := by
  induction h with
  | nil => exact Or.inl ⟨rfl, rfl⟩
  | @cons p fact table facts hp _ ih =>
    by_cases hname : fact.name = name
    · exact Or.inr ⟨p, fact, by simp [hp.name, hname], by simp [hname], hp⟩
    · simpa [hp.name, hname] using ih

end TableTells

/-- A table that cannot be dumped is not sent. -/
theorem dbusutilsObjectGetAll_fails {bus : Connection} (hmemory : bus.outOfMemory = false)
    {object : ObjectData} (h : Fails (dbusutilsGetObjectPropertyData object.properties))
    (message : Message) : ∃ e, dbusutilsObjectGetAll bus message object = .error e := by
  obtain ⟨e, he⟩ := h _ _ (Writer.zero_eq_depth [])
  refine ⟨e, ?_⟩
  simp only [dbusutilsObjectGetAll, dbusMessageNewMethodReturn, hmemory, Bool.false_eq_true,
    ↓reduceIte]
  rw [he, error_bind]

/-! ## What registered objects tell -/

/-- What a table of fields holds, the table of the objects does. -/
theorem State.exists_of_access_map {α β : Type} {σ : State} {o : Obj} {table : List α} {i : ℕ}
    {f : α → β} {b : β} (h : σ.access o (table.map f) i = .ok b) :
    ∃ a, σ.access o table i = .ok a ∧ f a = b := by
  rw [State.access_map] at h
  cases ha : σ.access o table i with
  | error e =>
    rw [ha] at h
    cases h
  | ok a =>
    rw [ha] at h
    exact ⟨a, rfl, Except.ok.inj h⟩

/-- An attribute that has been added to a parent. -/
def HasParent (σ : State) (kind : Kind) (c : ℕ) : Prop :=
  ∃ n, (σ.nodes kind)[c]? = some n ∧ n.parentPath ≠ .null

namespace Represents

variable {σ σ' : State} {g : Server} (h : Represents σ g)

include h

theorem mem_objects {o : Obj} : o ∈ g.objects ↔ o ∈ σ.registeredObjects := by
  rw [Server.objects, State.registeredObjects, h.registered]

/-- An attribute with a parent, as the program reads it. -/
theorem exists_attached {kind : Kind} {c : ℕ} (hattached : HasParent σ kind c) :
    ∃ n uuid place, σ.node kind c = .ok n ∧ n.Published σ.strings ∧ place.Taken ∧
      g.attributeAt kind c = some ⟨uuid, some place⟩ ∧ σ.strings.read n.uuid = uuid ∧
      σ.strings.read n.parentPath = place.parentPath ∧
      σ.strings.read n.objectPath = place.path := by
  obtain ⟨n, hn, hparent⟩ := hattached
  obtain ⟨⟨uuid, place?⟩, ha, htexts⟩ := h.exists_attribute hn
  have hnode : σ.node kind c = .ok n := State.node_eq_ok.mpr ⟨h.standing.notMem_finalised _, hn⟩
  have hplace := (h.place_isSome_iff hn htexts).mpr hparent
  obtain ⟨place, rfl⟩ := Option.isSome_iff_exists.mp hplace
  obtain ⟨hpublished, htaken, hread, hpath⟩ := h.read_place hnode htexts rfl
  exact ⟨n, uuid, place, hnode, hpublished, htaken, ha, h.read_uuid hnode htexts, hread, hpath⟩

/-- Registered attributes have a parent, and so have those in the tree of a device. -/
theorem attached_of_registered {kind : Kind} {c : ℕ}
    (hregistered : kind.object c ∈ σ.registeredObjects) : HasParent σ kind c := by
  obtain ⟨path, hmem⟩ := mem_registeredObjects.mp hregistered
  obtain ⟨n, id, hn, hattached, -⟩ := h.standing.registration.nodes kind c path hmem
  exact ⟨n, hn, hattached⟩

theorem serviceProperties_tells {s : ℕ} (hattached : HasParent σ .service s) :
    TableTells (serviceProperties σ (σ.service s)) (g.facts (.service s)) := by
  obtain ⟨n, uuid, place, hn, hpublished, htaken, ha, huuid, hparent, -⟩ :=
    h.exists_attached hattached
  obtain ⟨x, (hx : σ.service s = .ok x), rfl⟩ := State.exists_of_access_map hn
  have hprimary : x.primary = true := h.standing.constants.primary _
    (List.mem_map_of_mem (List.mem_of_getElem? (State.service_eq_ok.mp hx).2))
  have hu : Writes (serviceGetUuid σ x) (.string uuid) := huuid ▸ appendField_read hpublished.uuid
  have hp : Writes (serviceGetDevicePath σ x) (.objectPath place.parentPath) :=
    hparent ▸ appendField_read hpublished.parentPath
  have hb : Writes (serviceGetPrimary x) (.boolean true) := hprimary ▸ appendBasic_writes _
  simp only [Server.facts, Server.kindFacts, ha, Server.attributeFacts, serviceProperties, hx,
    getFromObject_ok, serviceFacts]
  exact .cons (.of_texts (by decide) hu) (.cons (.of_writes (by decide) hp htaken.parentPath)
    (.cons (.of_writes (by decide) hb rfl) .nil))

theorem descriptorProperties_tells {k : ℕ} (hattached : HasParent σ .descriptor k) :
    TableTells (descriptorProperties σ (σ.descriptor k)) (g.facts (.descriptor k)) := by
  obtain ⟨n, uuid, place, hn, hpublished, htaken, ha, huuid, hparent, -⟩ :=
    h.exists_attached hattached
  obtain ⟨x, (hx : σ.descriptor k = .ok x), rfl⟩ := State.exists_of_access_map hn
  have hmem := List.mem_of_getElem? (State.descriptor_eq_ok.mp hx).2
  have hflags : x.flags = descriptorFlagsAllEnabled :=
    h.standing.constants.descriptorFlags _ (List.mem_map_of_mem hmem)
  have hu : Writes (descriptorGetUuid σ x) (.string uuid) :=
    huuid ▸ appendField_read hpublished.uuid
  have hp : Writes (descriptorGetCharacteristic σ x) (.objectPath place.parentPath) :=
    hparent ▸ appendField_read hpublished.parentPath
  have hf : Writes (descriptorGetFlags x)
      (.array ['s'] (flagNames descriptorFlags descriptorFlagsAllEnabled.toUInt32)) :=
    hflags ▸ appendFlags_writes _ _
  have hv : Writes (descriptorGetValue σ x) (.byteArray []) :=
    descriptorGetValue_writes (h.standing.values.descriptors x hmem)
  simp only [Server.facts, Server.kindFacts, ha, Server.attributeFacts, descriptorProperties, hx,
    getFromObject_ok, descriptorFacts]
  exact .cons (.of_texts (by decide) hu) (.cons (.of_writes (by decide) hp htaken.parentPath)
    (.cons (.of_writes (by decide) hf (validTexts_flagNames (by decide) _))
      (.cons (.of_writes (by decide) hv (DBusValue.validTexts_byteArray _)) .nil)))

/-- A characteristic tells its bytes if they fit into an array. -/
theorem characteristicProperties_tells {c : ℕ}
    (hattached : HasParent σ .characteristic c) :
    TableTells (characteristicProperties σ (σ.characteristic c)) (g.facts (.characteristic c)) := by
  obtain ⟨n, uuid, place, hn, hpublished, htaken, ha, huuid, hparent, -⟩ :=
    h.exists_attached hattached
  obtain ⟨x, (hx : σ.characteristic c = .ok x), rfl⟩ := State.exists_of_access_map hn
  have hflags : x.flags = characteristicFlagsAllEnabled := h.standing.constants.characteristicFlags
    _ (List.mem_map_of_mem (List.mem_of_getElem? (State.characteristic_eq_ok.mp hx).2))
  obtain ⟨cell, hcell⟩ := h.exists_cell hx
  obtain ⟨hsize, hbytes⟩ := (h.cells c cell hcell).bytes_eq hx
  have hu : Writes (characteristicGetUuid σ x) (.string uuid) :=
    huuid ▸ appendField_read hpublished.uuid
  have hp : Writes (characteristicGetService σ x) (.objectPath place.parentPath) :=
    hparent ▸ appendField_read hpublished.parentPath
  have hf : Writes (characteristicGetFlags x)
      (.array ['s'] (flagNames characteristicFlags characteristicFlagsAllEnabled)) :=
    hflags ▸ appendFlags_writes _ _
  have hv : Property.Tells ⟨blePropertyValue, ['a', 'y'], characteristicGetValue σ x⟩
      ⟨blePropertyValue, ['a', 'y'], if cell.bytes.length ≤ dbusMaximumArrayLength then
        some (.byteArray cell.bytes) else none⟩ := by
    have hdecides := characteristicGetValue_decides h.standing.values hx
    rw [hsize, hbytes] at hdecides
    split_ifs with hmax
    · exact .of_writes (by decide) (hdecides.1 hmax) (DBusValue.validTexts_byteArray _)
    · have hname : validUtf8 blePropertyValue = true := by decide
      refine ⟨rfl, rfl, hname, fun _ hv => ?_, fun _ => hdecides.2 hmax⟩
      cases hv
  simp only [Server.facts, Server.kindFacts, ha, Server.attributeFacts, characteristicProperties,
    hx, getFromObject_ok, characteristicFacts, Server.bytes, hcell, Option.map_some,
    Option.getD_some]
  exact .cons (.of_texts (by decide) hu) (.cons (.of_writes (by decide) hp htaken.parentPath)
    (.cons (.of_writes (by decide) hf (validTexts_flagNames (by decide) _)) (.cons hv .nil)))

/-- An advertisement that is registered has been set up, and has the defaults. -/
theorem advertisementProperties_tells {d : ℕ}
    (hregistered : Obj.advertisement d ∈ σ.registeredObjects) :
    TableTells (advertisementProperties σ (Device.advertisement <$> σ.device d))
      advertisementFacts := by
  obtain ⟨path, hmem⟩ := mem_registeredObjects.mp hregistered
  obtain ⟨-, x, hx, hset⟩ := h.standing.registration.adverts d path hmem
  have hdevice : σ.device d = .ok x :=
    State.device_eq_ok.mpr ⟨h.standing.notMem_finalised _, hx⟩
  obtain hunset | hnamed := (h.standing.pointers.devices d x hx).advertisement
  · exact absurd hunset.objectPath hset
  obtain hunset | hdefault := h.standing.constants.advertisements _
    (List.mem_map_of_mem (List.mem_of_getElem? hx))
  · exact absurd hunset.objectPath hset
  obtain ⟨id, htype⟩ := hnamed.type
  have hpoints : σ.strings.PointsTo x.advertisement.type advertisementTypeDefault :=
    h.standing.pointers.pointsTo_device hdevice (show x.field .advertType = _ from htype)
  have ht : Writes (advertisementGetType σ x.advertisement) (.string advertisementTypeDefault) :=
    appendField_writes hpoints
  have hm := advertisementGetManufacturerData_writes hnamed.manufacturerData
  have hb : Writes (advertisementGetDiscoverable x.advertisement)
      (.boolean x.advertisement.discoverable) := appendBasic_writes _
  have hq : Writes (advertisementGetDiscoverableTimeout x.advertisement)
      (.uint16 x.advertisement.discoverableTimeout) := appendBasic_writes _
  have hi : Writes advertisementGetIncludes (.array ['a', 's'] []) := WritesAll.nil.array _
  have hd : Writes (advertisementGetDuration x.advertisement) (.uint16 x.advertisement.duration) :=
    appendBasic_writes _
  have ho : Writes (advertisementGetTimeout x.advertisement) (.uint16 x.advertisement.timeout) :=
    appendBasic_writes _
  have hmin : Writes (advertisementGetMinInterval x.advertisement)
      (.uint32 x.advertisement.minInterval) := appendBasic_writes _
  have hmax : Writes (advertisementGetMaxInterval x.advertisement)
      (.uint32 x.advertisement.maxInterval) := appendBasic_writes _
  rw [show x.advertisement.manufacturerId = _ from hdefault.manufacturerId,
    show x.advertisement.manufacturerData = _ from hdefault.manufacturerData] at hm
  rw [show x.advertisement.discoverable = _ from hdefault.discoverable] at hb
  rw [show x.advertisement.discoverableTimeout = _ from hdefault.discoverableTimeout] at hq
  rw [show x.advertisement.duration = _ from hdefault.duration] at hd
  rw [show x.advertisement.timeout = _ from hdefault.timeout] at ho
  rw [show x.advertisement.minInterval = _ from hdefault.minInterval] at hmin
  rw [show x.advertisement.maxInterval = _ from hdefault.maxInterval] at hmax
  simp only [advertisementProperties, hdevice, Except.map_ok, getFromObject_ok, advertisementFacts]
  exact .cons (.of_writes (by decide) ht (by decide)) (.cons (.of_writes (by decide) hm (by decide))
    (.cons (.of_writes (by decide) hb rfl) (.cons (.of_writes (by decide) hq rfl)
      (.cons (.of_writes (by decide) hi rfl) (.cons (.of_writes (by decide) hd rfl)
        (.cons (.of_writes (by decide) ho rfl) (.cons (.of_writes (by decide) hmin rfl)
          (.cons (.of_writes (by decide) hmax rfl) .nil))))))))

/-- The table of a registered object tells what the server knows of it. -/
theorem objectData_tells {o : Obj} (ho : o ∈ σ.registeredObjects) :
    TableTells (objectData σ o).properties (g.facts o) := by
  cases o with
  | device d => exact .nil
  | advertisement d => exact h.advertisementProperties_tells ho
  | service s => exact h.serviceProperties_tells (h.attached_of_registered ho)
  | characteristic c => exact h.characteristicProperties_tells (h.attached_of_registered ho)
  | descriptor k => exact h.descriptorProperties_tells (h.attached_of_registered ho)

/-! ### `GetManagedObjects` -/

omit h in
/-- An attribute can be told about if it can be read and its UUID is UTF-8: its paths are taken. -/
theorem describable_iff {kind : Kind} {c : ℕ} {n : Node} {place : Place}
    (hn : σ.node kind c = .ok n) (htaken : place.Taken)
    (hparent : σ.strings.read n.parentPath = place.parentPath)
    (hpath : σ.strings.read n.objectPath = place.path) : Describable σ (kind.object c) ↔
      Complete σ (kind.object c) ∧ validUtf8 (σ.strings.read n.uuid) = true := by
  rw [Describable, Presentable, textsTaken_iff hn, pathTaken_iff hn, Node.TextsTaken, hparent,
    hpath]
  simp only [htaken.parentPath, htaken.path, and_true]

/-- The entry of an attribute that can be told about, and none of one that cannot. -/
theorem kindEntry_eq {kind : Kind} {c : ℕ} (hattached : HasParent σ kind c) :
    (Describable σ (kind.object c) →
      ∃ v, g.kindEntry kind c = some v ∧ σ.entry (kind.object c) = some v) ∧
    (¬ Describable σ (kind.object c) → g.kindEntry kind c = none) := by
  obtain ⟨n, uuid, place, hn, -, htaken, ha, huuid, hparent, hpath⟩ := h.exists_attached hattached
  have hplace : g.place kind c = some place := by
    rw [Server.place, ha]
    rfl
  have hfacts : g.kindFacts kind c = g.attributeFacts kind c uuid place := by
    rw [Server.kindFacts, ha]
  rw [describable_iff hn htaken hparent hpath, huuid, Server.kindEntry, hplace, hfacts]
  have halive := h.standing.notMem_finalised
  cases kind with
  | service =>
    obtain ⟨x, (hx : σ.service c = .ok x), rfl⟩ := State.exists_of_access_map hn
    have hget := (State.service_eq_ok.mp hx).2
    have hprimary : x.primary = true := h.standing.constants.primary _
      (List.mem_map_of_mem (List.mem_of_getElem? hget))
    constructor
    · rintro ⟨-, hvalid⟩
      rw [Server.attributeFacts, serviceFacts, uuidFact, if_pos hvalid]
      refine ⟨_, rfl, ?_⟩
      simp [State.entry, Kind.object, hget, serviceEntry, serviceProperties, serviceValues,
        tableEntries, hpath, huuid, hparent, hprimary, Kind.interface]
    · intro hnot
      have hvalid : validUtf8 uuid = false := by
        simpa using fun hvalid => hnot ⟨halive _, hvalid⟩
      simp [Server.attributeFacts, serviceFacts, uuidFact, hvalid, Fact.entry]
  | characteristic =>
    obtain ⟨x, (hx : σ.characteristic c = .ok x), rfl⟩ := State.exists_of_access_map hn
    have hget := (State.characteristic_eq_ok.mp hx).2
    have hflags : x.flags = characteristicFlagsAllEnabled :=
      h.standing.constants.characteristicFlags _ (List.mem_map_of_mem (List.mem_of_getElem? hget))
    obtain ⟨cell, hcell⟩ := h.exists_cell hx
    obtain ⟨hsize, hbytes⟩ := (h.cells c cell hcell).bytes_eq hx
    have hcomplete : Complete σ (Kind.characteristic.object c) ↔
        cell.bytes.length ≤ dbusMaximumArrayLength := by
      constructor
      · rintro ⟨y, hy, hmax⟩
        obtain rfl : x = y := by simpa using hx.symm.trans hy
        rwa [← hsize]
      · exact fun hmax => ⟨x, hx, hsize ▸ hmax⟩
    rw [hcomplete]
    simp only [Server.attributeFacts, characteristicFacts, Server.bytes, hcell, Option.map_some,
      Option.getD_some]
    constructor
    · rintro ⟨hmax, hvalid⟩
      rw [uuidFact, if_pos hvalid, if_pos hmax]
      refine ⟨_, rfl, ?_⟩
      simp [State.entry, Kind.object, hget, characteristicEntry, characteristicProperties,
        characteristicValues, tableEntries, hpath, huuid, hparent, hflags, hbytes, Kind.interface]
    · intro hnot
      by_cases hvalid : validUtf8 uuid = true
      · have hmax : ¬ cell.bytes.length ≤ dbusMaximumArrayLength := fun hmax => hnot ⟨hmax, hvalid⟩
        simp [uuidFact, hvalid, hmax, Fact.entry]
      · simp [uuidFact, hvalid, Fact.entry]
  | descriptor =>
    obtain ⟨x, (hx : σ.descriptor c = .ok x), rfl⟩ := State.exists_of_access_map hn
    have hget := (State.descriptor_eq_ok.mp hx).2
    have hflags : x.flags = descriptorFlagsAllEnabled :=
      h.standing.constants.descriptorFlags _ (List.mem_map_of_mem (List.mem_of_getElem? hget))
    constructor
    · rintro ⟨-, hvalid⟩
      rw [Server.attributeFacts, descriptorFacts, uuidFact, if_pos hvalid]
      refine ⟨_, rfl, ?_⟩
      simp [State.entry, Kind.object, hget, descriptorEntry, descriptorProperties,
        descriptorValues, tableEntries, hpath, huuid, hparent, hflags, Kind.interface]
    · intro hnot
      have hvalid : validUtf8 uuid = false := by
        simpa using fun hvalid => hnot ⟨halive _, hvalid⟩
      simp [Server.attributeFacts, descriptorFacts, uuidFact, hvalid, Fact.entry]

/-- The tree of a device consists of attributes that have been added to a parent. -/
theorem exists_kind_of_managed {d : ℕ} {o : Obj} (ho : o ∈ managedObjects g.children d) :
    ∃ kind c, o = kind.object c ∧ HasParent σ kind c := by
  have hattached : ∀ {kind : Kind} {p c : ℕ}, ListedChild σ kind p c → HasParent σ kind c := by
    intro kind p c hc
    obtain ⟨n, hn, hparent⟩ := (h.standing.forests kind).mem_nodes
      ((h.standing.forests kind).listedChild_iff.mp hc)
    exact ⟨n, hn, hparent⟩
  rcases h.standing.forests.managed_iff.mpr ho with hs | ⟨_, hc⟩ | ⟨_, _, hk⟩
  · exact ⟨.service, _, rfl, hattached hs⟩
  · exact ⟨.characteristic, _, rfl, hattached hc⟩
  · exact ⟨.descriptor, _, rfl, hattached hk⟩

/-- What a device tells about everything below it. -/
theorem managedEntries_eq (d : ℕ) :
    ((∀ o ∈ managedObjects g.children d, Describable σ o) →
      g.managedEntries d = some (σ.entries (managedObjects g.children d))) ∧
    (¬ (∀ o ∈ managedObjects g.children d, Describable σ o) → g.managedEntries d = none) := by
  have hentry : ∀ o ∈ managedObjects g.children d,
      (Describable σ o → ∃ v, g.entry o = some v ∧ σ.entry o = some v) ∧
      (¬ Describable σ o → g.entry o = none) := by
    intro o ho
    obtain ⟨kind, c, rfl, hattached⟩ := h.exists_kind_of_managed ho
    cases kind <;> exact h.kindEntry_eq hattached
  rw [Server.managedEntries, State.entries]
  generalize managedObjects g.children d = l at hentry
  induction l with
  | nil => exact ⟨fun _ => rfl, fun hnot => absurd (fun o ho => by cases ho) hnot⟩
  | cons o l ih =>
    obtain ⟨hsome, hnone⟩ := hentry o List.mem_cons_self
    obtain ⟨hall, hnot⟩ := ih fun a ha => hentry a (List.mem_cons_of_mem o ha)
    rw [List.forall_mem_cons]
    constructor
    · rintro ⟨hdescribable, hrest⟩
      obtain ⟨v, hv, hv'⟩ := hsome hdescribable
      simp [hv, hv', hall hrest]
    · intro hmissing
      by_cases hdescribable : Describable σ o
      · obtain ⟨v, hv, -⟩ := hsome hdescribable
        have hrest : l.mapM g.entry = none := hnot fun hrest => hmissing ⟨hdescribable, hrest⟩
        simp [hv, hrest]
      · simp [hnone hdescribable]

/-! ### Messages -/

/-- A message is handled without touching anything, apart from a reply. -/
theorem handled {o : Obj} {m request : Message} {result : HandlerResult}
    (reply : Option Message) (ho : o ∈ σ.registeredObjects)
    (hhandle : dbusutilsObjectHandleMessage o m σ = .ok (result, request, sendReply reply σ)) :
    Matches (.deliver o m) σ (some ⟨.handled result request, reply.toList, g⟩) := by
  have hexec : exec (.deliver o m) σ = .ok (.handled result request, sendReply reply σ) := by
    rw [exec, if_pos ho, hhandle, ok_bind]
  have hnofini : Op.NoFini (.deliver o m) := trivial
  have hkeeps := KeepsCells.sendReply σ reply
  have hframe : ValueFrame σ (sendReply reply σ) := .sendReply σ reply
  have hsent : (sendReply reply σ).bus.sent = σ.bus.sent ++ reply.toList := by
    cases reply with
    | none => exact (List.append_nil _).symm
    | some reply => rfl
  exact ⟨_, hexec, hsent, h.valued hexec hnofini (by simp) (by simp) hframe hkeeps.fails
    (fun c cell hc => hkeeps.shows (h.cells c cell hc)) rfl⟩

omit h in
/-- What a handler fails at. -/
theorem unhandled {o : Obj} {m : Message} (e : Fault) (ho : o ∈ σ.registeredObjects)
    (hhandle : dbusutilsObjectHandleMessage o m σ = .error e) :
    Matches (.deliver o m) σ none := by
  refine ⟨e, ?_⟩
  rw [exec, if_pos ho, hhandle, error_bind]

/-- Calls of the interface of properties. -/
theorem properties {o : Obj} {m : Message} (ho : o ∈ σ.registeredObjects)
    (hinterface : m.interface = some dbusInterfaceProperties) :
    Matches (.deliver o m) σ (g.properties o m) := by
  have htells := h.objectData_tells ho
  have hhandle : dbusutilsObjectHandleMessage o m σ =
      handlePropertiesInterface m (objectData σ o) σ := by
    simp [dbusutilsObjectHandleMessage, hinterface]
  unfold Server.properties
  unfold handlePropertiesInterface at hhandle
  split_ifs at hhandle ⊢
  · -- `Get`
    cases hname : getPropertyNameFromPropertiesGetMessage m with
    | none =>
      refine h.handled none ho (hhandle.trans ?_)
      rw [dbusutilsObjectGet, hname]
      rfl
    | some name =>
      obtain ⟨interface, hbody⟩ := getPropertyName_eq_some.mp hname
      rcases htells.find name with ⟨hnone, hfact⟩ | ⟨p, fact, hp, hfact, htell⟩
      · simp only [hfact]
        refine h.handled (some (methodReturn [])) ho (hhandle.trans ?_)
        rw [dbusutilsObjectGet_unknown h.memory hbody hnone]
        rfl
      · simp only [hfact]
        cases hvalue : fact.value with
        | none =>
          obtain ⟨e, he⟩ := dbusutilsObjectGet_fails h.memory hbody hp (htell.fails hvalue)
          refine unhandled e ho (hhandle.trans ?_)
          rw [he, error_bind]
        | some v =>
          refine h.handled (some (methodReturn [])) ho (hhandle.trans ?_)
          obtain ⟨hwrites, hvalid⟩ := htell.writes v hvalue
          rw [dbusutilsObjectGet_known h.memory hbody hp hwrites hvalid, htell.signature]
          rfl
  · -- `Set`
    exact h.handled none ho hhandle
  · -- `GetAll`
    cases hentries : (g.facts o).mapM Fact.entry with
    | none =>
      obtain ⟨e, he⟩ := dbusutilsObjectGetAll_fails h.memory (htells.decides.2 hentries) m
      refine unhandled e ho (hhandle.trans ?_)
      rw [he, error_bind]
    | some entries =>
      obtain ⟨hwrites, hvalid⟩ := htells.decides.1 entries hentries
      refine h.handled (some (methodReturn _)) ho (hhandle.trans ?_)
      rw [dbusutilsObjectGetAll_writes h.memory hwrites, replyWith, DBusValue.validTexts,
        if_pos hvalid]
      rfl
  · exact h.handled none ho hhandle

omit h in
/-- Whether the first row of a method table matches decides if it is called. -/
theorem handleMethodCall_cons (m : Message) (properties : List Property) (row : Method)
    (rows : List Method) : handleMethodCall m ⟨properties, row :: rows⟩ σ =
      if m.isMethodCall row.interface row.method then do
        let (reply, σ) ← row.call m σ
        .ok (if reply.isSome then .handled else .notYetHandled, m, sendReply reply σ)
      else handleMethodCall m ⟨properties, rows⟩ σ := by
  cases hmatch : m.isMethodCall row.interface row.method with
  | true =>
    have hfind : (row :: rows).find? (fun method => m.isMethodCall method.interface method.method)
        = some row := List.find?_cons_of_pos hmatch
    simp only [handleMethodCall, hfind, ↓reduceIte]
    refine congrArg (row.call m σ >>= ·) (funext fun r => ?_)
    obtain ⟨reply, σ'⟩ := r
    cases reply <;> rfl
  | false =>
    have hfind : (row :: rows).find? (fun method => m.isMethodCall method.interface method.method)
        = rows.find? fun method => m.isMethodCall method.interface method.method :=
      List.find?_cons_of_neg (by rw [hmatch]; simp)
    simp only [handleMethodCall, hfind, Bool.false_eq_true, ↓reduceIte]

/-- Calls of methods of a device. -/
theorem deviceCall {d : ℕ} {m : Message} (ho : .device d ∈ σ.registeredObjects)
    {interface : CStr} (hinterface : m.interface = some interface)
    (hne : interface ≠ dbusInterfaceProperties) :
    Matches (.deliver (.device d) m) σ (g.call (.device d) m) := by
  have hhandle : dbusutilsObjectHandleMessage (.device d) m σ =
      handleMethodCall m ⟨[], deviceMethods d⟩ σ := by
    simp [dbusutilsObjectHandleMessage, hinterface, hne, objectData]
  rw [deviceMethods, handleMethodCall_cons] at hhandle
  unfold Server.call
  dsimp only at hhandle ⊢
  split_ifs at hhandle ⊢
  · obtain ⟨path, hmem⟩ := mem_registeredObjects.mp ho
    obtain ⟨-, hlt⟩ := h.standing.registration.devices d path hmem
    have hdevice : σ.device d = .ok σ.devices[d] :=
      State.device_eq_ok.mpr ⟨h.standing.notMem_finalised _, List.getElem?_eq_getElem hlt⟩
    obtain ⟨hsome, hnone⟩ := h.managedEntries_eq d
    obtain ⟨hready, hreply⟩ | ⟨hnot, e, he⟩ := deviceGetManagedObjects_decides
      h.standing.pointers h.standing.values h.standing.forests hdevice h.memory m
    · rw [hsome hready]
      refine h.handled (some (methodReturn _)) ho (hhandle.trans ?_)
      rw [hreply]
      rfl
    · rw [hnone hnot]
      refine unhandled e ho (hhandle.trans ?_)
      rw [he, error_bind]
  · exact h.handled none ho hhandle

/-- A call with an effect on a characteristic that is answered with an empty method return. -/
theorem answered {c : ℕ} {m : Message} {cell : Cell} {σ₁ : State}
    (ho : .characteristic c ∈ σ.registeredObjects)
    (hhandle : dbusutilsObjectHandleMessage (.characteristic c) m σ =
      .ok (.handled, m, sendReply (some (methodReturn [])) σ₁))
    (heffect : Effect σ σ₁ c cell []) :
    Matches (.deliver (.characteristic c) m) σ (some (Server.reply m [] (g.setCell c cell))) := by
  have hexec : exec (.deliver (.characteristic c) m) σ =
      .ok (.handled .handled m, sendReply (some (methodReturn [])) σ₁) := by
    rw [exec, if_pos ho, hhandle, ok_bind]
  have hnofini : Op.NoFini (.deliver (.characteristic c) m) := trivial
  have hboth := heffect.trans (.send heffect.shows (methodReturn []))
  exact ⟨_, hexec, hboth.sent, h.effect hexec hnofini (by simp) (by simp) hboth⟩

/-- A client writes a value. -/
theorem write {c : ℕ} {m : Message} (ho : .characteristic c ∈ σ.registeredObjects) {cell : Cell}
    (hcell : g.cells[c]? = some cell) (htyped : m.WellTyped)
    (hhandle : dbusutilsObjectHandleMessage (.characteristic c) m σ = do
      let (reply, σ) ← characteristicWriteValue c m σ
      .ok (if reply.isSome then .handled else .notYetHandled, m, sendReply reply σ)) :
    Matches (.deliver (.characteristic c) m) σ (g.write c cell m) := by
  -- libdbus hands out arrays of a type of fixed size only
  have hmisused : (∀ elem items rest, m.body = .array elem items :: rest →
      isFixedSignature elem = false) → Matches (.deliver (.characteristic c) m) σ none := by
    intro hnot
    refine unhandled .precondition ho (hhandle.trans ?_)
    rw [characteristicWriteValue_misused hnot, error_bind]
  unfold Server.write
  cases hbody : m.body with
  | nil =>
    refine hmisused fun elem items rest heq => ?_
    rw [hbody] at heq
    cases heq
  | cons v rest =>
    cases v with
    | array elem items =>
      dsimp only
      split_ifs with hfixed
      · cases items with
        | nil =>
          refine h.handled none ho (hhandle.trans ?_)
          rw [characteristicWriteValue_empty hbody hfixed]
          rfl
        | cons item items =>
          obtain ⟨σ₁, hwrite, heffect⟩ := characteristicWriteValue_effect (h.cells c cell hcell)
            h.standing.values hbody hfixed (htyped _ (by rw [hbody]; exact List.mem_cons_self))
            (List.cons_ne_nil item items)
          rw [State.stored_of_neverFails h.fails] at heffect
          refine h.answered ho (hhandle.trans ?_) heffect
          rw [hwrite, dbusMessageNewMethodReturn_eq h.memory]
          rfl
      · refine hmisused fun elem' items' rest' heq => ?_
        rw [hbody] at heq
        cases heq
        exact Bool.not_eq_true _ ▸ hfixed
    | _ =>
      refine hmisused fun elem items rest' heq => ?_
      rw [hbody] at heq
      cases heq

/-- Calls of methods of a characteristic. -/
theorem characteristicCall {c : ℕ} {m : Message} (ho : .characteristic c ∈ σ.registeredObjects)
    (htyped : m.WellTyped) {interface : CStr} (hinterface : m.interface = some interface)
    (hne : interface ≠ dbusInterfaceProperties) :
    Matches (.deliver (.characteristic c) m) σ (g.call (.characteristic c) m) := by
  have hhandle : dbusutilsObjectHandleMessage (.characteristic c) m σ = handleMethodCall m
      ⟨(objectData σ (.characteristic c)).properties, characteristicMethods c⟩ σ := by
    simp [dbusutilsObjectHandleMessage, hinterface, hne, objectData]
  simp only [characteristicMethods, handleMethodCall_cons] at hhandle
  have hattached : HasParent σ .characteristic c := h.attached_of_registered ho
  obtain ⟨n, -, -, hn, -⟩ := h.exists_attached hattached
  obtain ⟨x, (hx : σ.characteristic c = .ok x), rfl⟩ := State.exists_of_access_map hn
  obtain ⟨cell, hcell⟩ := h.exists_cell hx
  have hshows := h.cells c cell hcell
  have hswitch : ∀ {notifying : Bool}, dbusutilsObjectHandleMessage (.characteristic c) m σ = (do
        let (reply, σ) ← characteristicSwitch c notifying m σ
        .ok (if reply.isSome then .handled else .notYetHandled, m, sendReply reply σ)) →
      Matches (.deliver (.characteristic c) m) σ
        (some (Server.reply m [] (g.setCell c { cell with notifying }))) := by
    intro notifying hhandle
    have hset : characteristicSetNotifying c notifying σ = .ok { σ with
        characteristics := σ.characteristics.modify c fun x => { x with notifying } } := by
      rw [characteristicSetNotifying, hx, ok_bind]
    refine h.answered ho (hhandle.trans ?_) (.setNotifying hshows notifying hset)
    rw [characteristicSwitch_eq hx, dbusMessageNewMethodReturn_eq h.memory]
    rfl
  show Matches _ _ ((g.cells[c]?).bind fun cell => g.characteristicCall c cell m)
  rw [hcell, Option.bind_some]
  unfold Server.characteristicCall
  split_ifs at hhandle ⊢ with hread hmax hwrite hstart hstop
  · -- `ReadValue`
    obtain ⟨hsize, hbytes⟩ := hshows.bytes_eq hx
    refine h.handled (some (methodReturn _)) ho (hhandle.trans ?_)
    rw [characteristicReadValue_eq h.memory h.standing.values hx (hsize ▸ hmax), hbytes]
    rfl
  · obtain ⟨hsize, -⟩ := hshows.bytes_eq hx
    have hnot : ¬ Complete σ (.characteristic c) := by
      rintro ⟨y, hy, hle⟩
      obtain rfl : x = y := by simpa using hx.symm.trans hy
      exact hmax (hsize ▸ hle)
    obtain ⟨e, (he : characteristicReadValue c m σ = .error e)⟩ :=
      characteristicReadValue_fails h.memory h.standing.values hnot
    refine unhandled e ho (hhandle.trans ?_)
    rw [he, error_bind]
  · exact h.write ho hcell htyped hhandle
  · exact hswitch hhandle
  · exact hswitch hhandle
  · exact h.handled none ho hhandle

/-- Services, descriptors and advertisements have no method that answers. -/
theorem otherCall {o : Obj} {m : Message} (ho : o ∈ σ.registeredObjects) {interface : CStr}
    (hinterface : m.interface = some interface) (hne : interface ≠ dbusInterfaceProperties)
    (hmethods : ∀ row ∈ (objectData σ o).methods, row.call m σ = .ok (none, σ)) :
    Matches (.deliver o m) σ (some (g.left m)) := by
  refine h.handled none ho ?_
  have hhandle : dbusutilsObjectHandleMessage o m σ = handleMethodCall m (objectData σ o) σ := by
    simp [dbusutilsObjectHandleMessage, hinterface, hne]
  rw [hhandle, handleMethodCall]
  split
  · rfl
  · rename_i row hrow
    rw [hmethods row (List.mem_of_find?_eq_some hrow), ok_bind]
    rfl

/-- A message that is delivered to an object. -/
theorem deliver (o : Obj) {m : Message} (htyped : m.WellTyped) :
    Matches (.deliver o m) σ (g.deliver o m) := by
  unfold Server.deliver
  by_cases ho : o ∈ σ.registeredObjects
  · rw [if_pos (h.mem_objects.mpr ho)]
    cases hinterface : m.interface with
    | none =>
      refine unhandled .nullPointer ho ?_
      simp [dbusutilsObjectHandleMessage, hinterface]
    | some interface =>
      rw [Option.bind_some]
      split_ifs with heq
      · exact h.properties ho (hinterface.trans (congrArg some heq))
      · cases o with
        | device d => exact h.deviceCall ho hinterface heq
        | characteristic c => exact h.characteristicCall ho htyped hinterface heq
        | _ =>
          refine h.otherCall ho hinterface heq ?_
          simp [objectData, advertisementMethods, advertisementRelease]
  · rw [if_neg (mt h.mem_objects.mp ho)]
    have hexec : exec (.deliver o m) σ = .ok (.handled .notYetHandled m, σ) := if_neg ho
    exact ⟨σ, hexec, (List.append_nil _).symm, h⟩

end Represents

end BleSim
