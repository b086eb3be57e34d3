import BleSim.IsolationTheorems
import BleSim.TeardownTheorems

/-!
# What clients know stays true

The tree of a device only grows. A client that asks for the managed objects of a device and asks
again later finds everything it was told first in the second answer: the same objects, in the same
order, with the same paths, interfaces and properties, but for the values of characteristics.
-/

namespace BleSim

open Outcomes WriteOnce Refinement

/-! ## Entries without values -/

/-- Whether an entry of a dump is the one for the property with a name. -/
def DBusValue.isNamed (name : CStr) : DBusValue → Bool
  | .dictEntry (.string name') _ => name' = name
  | _ => false

/-- The properties of an object with an interface, without the `Value` of a characteristic. -/
def propertiesWithoutValue (interface : CStr) (properties : List DBusValue) : List DBusValue :=
  if interface = bluezGattCharacteristicInterface then
    properties.filter fun p => !p.isNamed blePropertyValue
  else properties

/-- An entry of an object among those of a device, without the `Value` of a characteristic. -/
def withoutValue : DBusValue → DBusValue
  | .dictEntry path (.array sig [.dictEntry (.string interface) (.array sig' properties)]) =>
    .dictEntry path (.array sig [.dictEntry (.string interface)
      (.array sig' (propertiesWithoutValue interface properties))])
  | v => v

theorem withoutValue_objectEntry (path interface : CStr) (properties : List DBusValue) :
    withoutValue (objectEntry path interface properties) =
      objectEntry path interface (propertiesWithoutValue interface properties) := rfl

/-- What all items of a list have is what they have one by one. -/
theorem filterMap_of_mapM {α β : Type} {f : α → Option β} {l : List α} {bs : List β}
    (h : l.mapM f = some bs) : l.filterMap f = bs ∧ ∀ a ∈ l, (f a).isSome = true := by
  induction l generalizing bs with
  | nil =>
    cases h
    exact ⟨rfl, by simp⟩
  | cons a l ih =>
    rw [List.mapM_cons] at h
    obtain ⟨b, hb, h⟩ := Option.bind_eq_some_iff.mp h
    obtain ⟨bs', hbs, h⟩ := Option.bind_eq_some_iff.mp h
    cases h
    obtain ⟨hrest, hall⟩ := ih hbs
    refine ⟨by simp [hb, hrest], ?_⟩
    rw [List.forall_mem_cons]
    exact ⟨by rw [hb]; rfl, hall⟩

/-- The entries without the value, from facts that can be told. -/
theorem filter_entries {facts : List Fact} {entries : List DBusValue}
    (h : facts.mapM Fact.entry = some entries) :
    (entries.filter fun p => !p.isNamed blePropertyValue) =
      (facts.filter fun fact => fact.name ≠ blePropertyValue).filterMap Fact.entry := by
  obtain ⟨rfl, -⟩ := filterMap_of_mapM h
  rw [List.filter_filterMap, List.filterMap_filter]
  refine List.filterMap_congr fun fact _ => ?_
  have hnamed : ∀ name sig v, (propertyEntry name sig v).isNamed blePropertyValue =
      decide (name = blePropertyValue) := fun _ _ _ => rfl
  by_cases hname : fact.name = blePropertyValue <;>
    cases hvalue : fact.value <;> simp [Fact.entry, hvalue, hname, hnamed]

/-! ## Growth of the server -/

theorem childrenPush_sublist (children : Kind → ℕ → List ℕ) (kind : Kind) (p c : ℕ) (kind' : Kind)
    (q : ℕ) : (children kind' q).Sublist (childrenPush children kind p c kind' q) := by
  by_cases hsame : kind' = kind ∧ q = p
  · obtain ⟨rfl, rfl⟩ := hsame
    rw [childrenPush_self]
    exact List.sublist_cons_self c _
  · rw [childrenPush_of_ne children c hsame]

namespace Server

/-- The tree of a device has grown: what was in it still is, in the same order, and has the UUIDs
and places it had. -/
structure Grows (d : ℕ) (g g' : Server) : Prop where
  reached : ∀ o ∈ g.objects, o ∈ g'.objects
  objects : (managedObjects g.children d).Sublist (managedObjects g'.children d)
  attributes : ∀ (kind : Kind) (c : ℕ), kind.object c ∈ managedObjects g.children d →
    g'.attributeAt kind c = g.attributeAt kind c

namespace Grows

variable {g g' g'' : Server} {d : ℕ}

theorem refl (g : Server) : Grows d g g := ⟨fun _ ho => ho, List.Sublist.refl _, fun _ _ _ => rfl⟩

theorem trans (h : Grows d g g') (h' : Grows d g' g'') : Grows d g g'' := by
  refine ⟨fun o ho => h'.reached o (h.reached o ho), h.objects.trans h'.objects,
    fun kind c hc => ?_⟩
  rw [h'.attributes kind c (h.objects.subset hc), h.attributes kind c hc]

theorem create (hplaced : g.Placed d) (kind : Kind) (uuid : CStr) :
    Grows d g (g.create kind uuid) := by
  refine ⟨fun _ ho => ho, List.Sublist.refl _, fun kind' c hc => ?_⟩
  obtain ⟨uuid', place, ha⟩ := hplaced kind' c hc
  rw [attributeAt_create ha, ha]

theorem attach (hplaced : g.Placed d) {kind : Kind} {c : ℕ} {uuid : CStr}
    (ha : g.attributeAt kind c = some ⟨uuid, none⟩) (p : ℕ) (path : CStr) :
    Grows d g (g.attach kind p c path) := by
  refine ⟨fun o ho => mem_objects_attach ho _ _ _ _,
    managedObjects_sublist (childrenPush_sublist g.children kind p c) d, fun kind' e he => ?_⟩
  obtain ⟨uuid', place, he⟩ := hplaced kind' e he
  rw [attributeAt_attach ha he, he]

/-- The entries of one object differ in the value at most. -/
theorem entry (h : Grows d g g') {o : Obj} (ho : o ∈ managedObjects g.children d)
    {e e' : DBusValue} (he : g.entry o = some e) (he' : g'.entry o = some e') :
    withoutValue e = withoutValue e' := by
  have hkind : ∀ (kind : Kind) (c : ℕ), kind.object c ∈ managedObjects g.children d →
      g.kindEntry kind c = some e → g'.kindEntry kind c = some e' →
      withoutValue e = withoutValue e' := by
    intro kind c hc he he'
    have hattribute := h.attributes kind c hc
    obtain ⟨place, hplace, he⟩ := Option.bind_eq_some_iff.mp he
    obtain ⟨⟨uuid, _⟩, ha, rfl⟩ := Option.bind_eq_some_iff.mp hplace
    obtain ⟨place', hplace', he'⟩ := Option.bind_eq_some_iff.mp he'
    rw [Server.place, hattribute, ha] at hplace'
    obtain rfl : place = place' := Option.some.inj hplace'
    obtain ⟨entries, hentries, he⟩ := Option.bind_eq_some_iff.mp he
    obtain ⟨entries', hentries', he'⟩ := Option.bind_eq_some_iff.mp he'
    cases he
    cases he'
    simp only [kindFacts, ha, hattribute] at hentries hentries'
    rw [withoutValue_objectEntry, withoutValue_objectEntry]
    cases kind with
    | characteristic =>
      -- only the value differs
      have hfacts : (g'.attributeFacts .characteristic c uuid place).filter
          (fun fact => fact.name ≠ blePropertyValue) =
            (g.attributeFacts .characteristic c uuid place).filter
              fun fact => fact.name ≠ blePropertyValue := rfl
      have hinterface : Kind.characteristic.interface = bluezGattCharacteristicInterface := rfl
      rw [propertiesWithoutValue, propertiesWithoutValue, if_pos hinterface, if_pos hinterface,
        filter_entries hentries, filter_entries hentries', hfacts]
    | service =>
      obtain rfl := Option.some.inj (hentries.symm.trans hentries')
      rfl
    | descriptor =>
      obtain rfl := Option.some.inj (hentries.symm.trans hentries')
      rfl
  cases o with
  | service s => exact hkind .service s ho he he'
  | characteristic c => exact hkind .characteristic c ho he he'
  | descriptor k => exact hkind .descriptor k ho he he'
  | _ => cases he

/-- What a device told is part of what it tells. -/
theorem managedEntries (h : Grows d g g') {entries entries' : List DBusValue}
    (he : g.managedEntries d = some entries) (he' : g'.managedEntries d = some entries') :
    (entries.map withoutValue).Sublist (entries'.map withoutValue) := by
  obtain ⟨rfl, hall⟩ := filterMap_of_mapM he
  obtain ⟨rfl, hall'⟩ := filterMap_of_mapM he'
  have hsame : (managedObjects g.children d).filterMap (fun o => (g.entry o).map withoutValue) =
      (managedObjects g.children d).filterMap fun o => (g'.entry o).map withoutValue := by
    refine List.filterMap_congr fun o ho => ?_
    obtain ⟨e, he⟩ := Option.isSome_iff_exists.mp (hall o ho)
    obtain ⟨e', he'⟩ := Option.isSome_iff_exists.mp (hall' o (h.objects.subset ho))
    rw [he, he', Option.map_some, Option.map_some, h.entry ho he he']
  rw [List.map_filterMap, List.map_filterMap, hsame]
  exact h.objects.filterMap _

end Grows

end Server

/-! ## Runs -/

/-- Whatever the step is, the tree of a device grows. -/
theorem Represents.grows {σ : State} {g : Server} (h : Represents σ g) (d : ℕ) {op : Op}
    {t : Answer} (hstep : Server.step op g = some t) : Server.Grows d g t.next := by
  have hplaced := h.placed d
  have hsame : t.next = g → Server.Grows d g t.next := by
    intro heq
    rw [heq]
    exact .refl g
  have hset : ∀ c cell, Server.Grows d g (g.setCell c cell) := fun _ _ =>
    ⟨fun _ ho => ho, List.Sublist.refl _, fun _ _ _ => rfl⟩
  cases op with
  | createDevice deviceName =>
    cases hstep
    exact ⟨fun _ ho => ho, List.Sublist.refl _, fun _ _ _ => rfl⟩
  | createService uuid | createCharacteristic uuid | createDescriptor uuid =>
    cases hstep
    exact .create hplaced _ uuid
  | add kind accepts p c =>
    obtain ⟨r, hr, rfl⟩ := Option.map_eq_some_iff.mp hstep
    rcases Server.add_next hr with heq | ⟨path, uuid, ha, heq⟩
    · exact hsame heq
    · have hgrows := Server.Grows.attach hplaced ha p path
      rw [← heq] at hgrows
      exact hgrows
  | registerDevice env e =>
    rcases Server.register_next hstep with heq | heq
    · exact hsame heq
    · rw [heq]
      exact ⟨fun o ho => Server.mem_objects_afterRegister ho _ _, List.Sublist.refl _,
        fun _ _ _ => rfl⟩
  | setPowered env e powered => exact hsame (Server.setAdapterProperty_next hstep)
  | setDiscoverable env e discoverable => exact hsame (Server.setAdapterProperty_next hstep)
  | setNotifying c notifying =>
    obtain ⟨g', hg', rfl⟩ := Option.map_eq_some_iff.mp hstep
    obtain ⟨cell, -, rfl⟩ := Option.map_eq_some_iff.mp hg'
    exact hset _ _
  | setValue c v type =>
    rcases Server.setValue_next hstep with heq | ⟨cell, heq⟩
    · exact hsame heq
    · exact heq ▸ hset c cell
  | deliver o m =>
    rcases Server.deliver_next hstep with heq | ⟨c, cell, -, heq, -⟩
    · exact hsame heq
    · exact heq ▸ hset c cell
  | applicationReply | advertReply | reuseMemory =>
    cases hstep
    exact .refl g
  | fini o => cases hstep

/-- What a registered device answers to a call of `GetManagedObjects`. -/
theorem Server.deliver_managed {g : Server} {d : ℕ} (hd : .device d ∈ g.objects) {m : Message}
    (hm : m.isMethodCall dbusInterfaceObjectManager dbusMethodGetManagedObjects = true) {t : Answer}
    (h : g.deliver (.device d) m = some t) : ∃ entries, g.managedEntries d = some entries ∧
      t.logged = [methodReturn [.array "{oa{sa{sv}}}".toList entries]] := by
  unfold Server.deliver at h
  rw [if_pos hd] at h
  obtain ⟨interface, hinterface, h⟩ := Option.bind_eq_some_iff.mp h
  have hmanager : interface = dbusInterfaceObjectManager := by
    simpa [Message.isMethodCall, hinterface] using (Bool.and_eq_true_iff.mp hm).2
  rw [hmanager, if_neg (by decide), Server.call, if_pos hm] at h
  obtain ⟨entries, hentries, rfl⟩ := Option.map_eq_some_iff.mp h
  exact ⟨entries, hentries, rfl⟩

/-- A client that asks for the managed objects of a device before and after a run finds all of the
first answer in the second one, in the same order, but for the values of characteristics. -/
theorem managed_grows {σ₀ σ σ' : State} (hinit : σ₀.IsInitial) (hfails : σ₀.buffers.NeverFails)
    (hmemory : σ₀.bus.outOfMemory = false) {before ops : List Op}
    (hops : ∀ op ∈ before ++ ops, op.Ordinary) (hlength : (before ++ ops).length < 2 ^ 32)
    {rs rs' : List Reply} (hbefore : execAll before σ₀ = .ok (rs, σ))
    (hrun : execAll ops σ = .ok (rs', σ')) {d : ℕ} (hregistered : .device d ∈ σ.registeredObjects)
    {m m' : Message} (htyped : m.WellTyped) (htyped' : m'.WellTyped)
    (hm : m.isMethodCall dbusInterfaceObjectManager dbusMethodGetManagedObjects = true)
    (hm' : m'.isMethodCall dbusInterfaceObjectManager dbusMethodGetManagedObjects = true)
    {r r' : Reply} {answers answers' : List Message}
    (hask : observeStep (.deliver (.device d) m) σ = some (r, answers))
    (hask' : observeStep (.deliver (.device d) m') σ' = some (r', answers')) :
    ∃ entries entries', answers = [methodReturn [.array "{oa{sa{sv}}}".toList entries]] ∧
      answers' = [methodReturn [.array "{oa{sa{sv}}}".toList entries']] ∧
      (entries.map withoutValue).Sublist (entries'.map withoutValue) := by
  obtain ⟨g, hg, hadmits⟩ := exists_represents hinit hfails hmemory hops hlength hbefore
  obtain ⟨g', hg', hgrows⟩ := exec_refines.run_relates (P := Server.Grows d) Server.Grows.refl
    Server.Grows.trans (fun h _ hstep => Represents.grows h d hstep) hg (hadmits _ hops hlength)
    (allSteps_of_forall (P := fun _ => True) (fun _ _ => trivial) σ) hrun
  have hd := hg.mem_objects.mpr hregistered
  rw [(hg.deliver _ htyped).observeStep] at hask
  rw [(hg'.deliver _ htyped').observeStep] at hask'
  obtain ⟨t, ht, hsame⟩ := Option.map_eq_some_iff.mp hask
  obtain ⟨t', ht', hsame'⟩ := Option.map_eq_some_iff.mp hask'
  obtain ⟨entries, hentries, hlogged⟩ := Server.deliver_managed hd hm ht
  obtain ⟨entries', hentries', hlogged'⟩ := Server.deliver_managed (hgrows.reached _ hd) hm' ht'
  refine ⟨entries, entries', ?_, ?_, hgrows.managedEntries hentries hentries'⟩
  · rw [← hlogged]
    exact (congrArg Prod.snd hsame).symm
  · rw [← hlogged']
    exact (congrArg Prod.snd hsame').symm

/-- A registered device with a service and a characteristic. -/
def lampWithService : List Op :=
  [.createDevice "lamp".toList, .createService "180F".toList, .createCharacteristic "2A19".toList,
    .registerDevice ⟨fun _ _ => true, some 1, ⟨true, true, true⟩⟩ 0,
    .add .service (fun _ _ => true) 0 0, .add .characteristic (fun _ _ => true) 0 0]

/-- The value changes, and another service is added. -/
def secondService : List Op :=
  [.setValue 0 (.integer 5) (.integer 2), .createService "180A".toList,
    .add .service (fun _ _ => true) 0 1]

/-- A call of `GetManagedObjects`. -/
def getManagedObjects : Message :=
  ⟨.methodCall, none, some dbusInterfaceObjectManager, some dbusMethodGetManagedObjects, []⟩

/-- The theorem where the second answer tells of another service. -/
theorem managed_grows_service : ∃ entries entries' r r',
    observeStep (.deliver (.device 0) getManagedObjects) (State.after lampWithService) =
      some (r, [methodReturn [.array "{oa{sa{sv}}}".toList entries]]) ∧
    observeStep (.deliver (.device 0) getManagedObjects)
      (State.after (lampWithService ++ secondService)) =
        some (r', [methodReturn [.array "{oa{sa{sv}}}".toList entries']]) ∧
    (entries.map withoutValue).Sublist (entries'.map withoutValue) := by
  have hops : ∀ op ∈ lampWithService ++ secondService, op.Ordinary := by
    simp [lampWithService, secondService, Op.Ordinary, AcceptsFresh]
  have hbefore : execAll lampWithService State.empty = .ok (_, State.after lampWithService) := rfl
  have hrun : execAll secondService (State.after lampWithService) =
      .ok (_, State.after (lampWithService ++ secondService)) := rfl
  obtain ⟨⟨r, answers⟩, hask⟩ : ∃ a, observeStep (.deliver (.device 0) getManagedObjects)
      (State.after lampWithService) = some a := Option.isSome_iff_exists.mp (by decide +kernel)
  obtain ⟨⟨r', answers'⟩, hask'⟩ : ∃ a, observeStep (.deliver (.device 0) getManagedObjects)
      (State.after (lampWithService ++ secondService)) = some a :=
    Option.isSome_iff_exists.mp (by decide +kernel)
  obtain ⟨entries, entries', rfl, rfl, hsublist⟩ :=
    managed_grows State.isInitial_empty (fun _ => rfl) rfl hops (by decide) hbefore hrun
      (by decide) (by simp [getManagedObjects, Message.WellTyped])
      (by simp [getManagedObjects, Message.WellTyped]) (by decide) (by decide) hask hask'
  exact ⟨entries, entries', r, r', hask, hask', hsublist⟩

end BleSim
