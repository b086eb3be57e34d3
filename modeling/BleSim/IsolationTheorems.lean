import BleSim.ServerTheorems

/-!
# Devices do not disturb each other

What a client is told about the tree of a device depends on that tree only: in a run that adds
nothing to it and writes to none of its characteristics, whatever else is created, added, registered
or written, the device tells the same about itself.
-/

namespace BleSim

open Outcomes WriteOnce Refinement

/-! ## Trees of the server -/

/-- An object that is added elsewhere is not below the device. -/
theorem managedObjects_childrenPush {children : Kind → ℕ → List ℕ} {kind : Kind} {p d : ℕ}
    (hdevice : kind.parent p ≠ .device d) (haway : kind.parent p ∉ managedObjects children d)
    (c : ℕ) : managedObjects (childrenPush children kind p c) d = managedObjects children d := by
  unfold managedObjects
  have hservices : childrenPush children kind p c .service d = children .service d := by
    refine childrenPush_of_ne children c ?_
    rintro ⟨rfl, rfl⟩
    exact hdevice rfl
  rw [hservices]
  refine List.flatMap_congr fun s hs => congrArg _ ?_
  have hcharacteristics :
      childrenPush children kind p c .characteristic s = children .characteristic s := by
    refine childrenPush_of_ne children c ?_
    rintro ⟨rfl, rfl⟩
    exact haway (List.mem_flatMap.mpr ⟨s, hs, List.mem_cons_self⟩)
  unfold characteristicObjects
  rw [hcharacteristics]
  refine List.flatMap_congr fun e he => congrArg _ ?_
  unfold descriptorObjects
  rw [childrenPush_of_ne children c ?_]
  rintro ⟨rfl, rfl⟩
  exact haway (List.mem_flatMap.mpr ⟨s, hs, List.mem_cons_of_mem _
    (List.mem_flatMap.mpr ⟨e, he, List.mem_cons_self⟩)⟩)

namespace Server

/-- The tree of a device is the same, and so is what it tells. Whatever clients could reach they
still can. -/
structure SameTree (g g' : Server) (d : ℕ) : Prop where
  reached : ∀ o ∈ g.objects, o ∈ g'.objects
  objects : managedObjects g'.children d = managedObjects g.children d
  attributes : ∀ (kind : Kind) (c : ℕ), kind.object c ∈ managedObjects g.children d →
    g'.attributeAt kind c = g.attributeAt kind c
  bytes : ∀ c, .characteristic c ∈ managedObjects g.children d → g'.bytes c = g.bytes c

variable {g g' : Server} {d : ℕ}

theorem SameTree.refl (g : Server) (d : ℕ) : g.SameTree g d :=
  ⟨fun _ ho => ho, rfl, fun _ _ _ => rfl, fun _ _ => rfl⟩

theorem SameTree.managedEntries (h : g.SameTree g' d) :
    g'.managedEntries d = g.managedEntries d := by
  have hkind : ∀ (kind : Kind) (c : ℕ), kind.object c ∈ managedObjects g.children d →
      g'.kindEntry kind c = g.kindEntry kind c := by
    intro kind c hc
    have hattribute := h.attributes kind c hc
    have hfacts : g'.kindFacts kind c = g.kindFacts kind c := by
      simp only [kindFacts, hattribute]
      cases kind with
      | characteristic => simp only [attributeFacts, h.bytes c hc]
      | _ => rfl
    simp only [kindEntry, place, hattribute, hfacts]
  have hentry : ∀ o ∈ managedObjects g.children d, g'.entry o = g.entry o := by
    intro o ho
    cases o with
    | service s => exact hkind .service s ho
    | characteristic c => exact hkind .characteristic c ho
    | descriptor k => exact hkind .descriptor k ho
    | _ => rfl
  rw [Server.managedEntries, Server.managedEntries, h.objects]
  generalize managedObjects g.children d = l at hentry
  induction l with
  | nil => rfl
  | cons o l ih =>
    rw [List.mapM_cons, List.mapM_cons, hentry o List.mem_cons_self,
      ih fun a ha => hentry a (List.mem_cons_of_mem o ha)]

/-- Attributes below the device have been added to a parent. -/
def Placed (g : Server) (d : ℕ) : Prop :=
  ∀ (kind : Kind) (c : ℕ), kind.object c ∈ managedObjects g.children d →
    ∃ uuid place, g.attributeAt kind c = some ⟨uuid, some place⟩

/-- Attributes stay when there are more of them. -/
theorem attributeAt_create {kind' : Kind} {c : ℕ} {a : Attribute}
    (ha : g.attributeAt kind' c = some a) (kind : Kind) (uuid : CStr) :
    (g.create kind uuid).attributeAt kind' c = some a := by
  have hlt : c < (g.attributes kind').length := (List.getElem?_eq_some_iff.mp ha).1
  rw [← ha]
  by_cases hkind : kind' = kind
  · subst hkind
    simp only [attributeAt, Server.create, Function.update_self]
    exact List.getElem?_append_left hlt
  · simp only [attributeAt, Server.create, Function.update_of_ne hkind]

/-- An attribute that has a place stays when another one is given one. -/
theorem attributeAt_attach {kind kind' : Kind} {c e : ℕ} {uuid uuid' : CStr} {place : Place}
    (ha : g.attributeAt kind c = some ⟨uuid, none⟩)
    (he : g.attributeAt kind' e = some ⟨uuid', some place⟩) (p : ℕ) (path : CStr) :
    (g.attach kind p c path).attributeAt kind' e = some ⟨uuid', some place⟩ := by
  rw [← he]
  by_cases hkind : kind' = kind
  · subst hkind
    have hne : c ≠ e := by
      rintro rfl
      rw [ha] at he
      cases he
    simp only [attributeAt, Server.attach, Function.update_self]
    exact List.getElem?_modify_ne _ _ hne
  · simp only [attributeAt, Server.attach, Function.update_of_ne hkind]

theorem mem_objects_attach {o : Obj} (ho : o ∈ g.objects) (kind : Kind) (p c : ℕ) (path : CStr) :
    o ∈ (g.attach kind p c path).objects := by
  simp only [Server.objects, Server.attach, List.map_append]
  exact List.mem_append_left _ ho

theorem mem_objects_afterRegister {o : Obj} (ho : o ∈ g.objects) (env : RegisterEnv) (e : ℕ) :
    o ∈ (g.afterRegister env e).objects := by
  simp only [Server.objects, Server.afterRegister, List.map_append]
  exact List.mem_append_left _ ho

theorem SameTree.create (hplaced : g.Placed d) (kind : Kind) (uuid : CStr) :
    g.SameTree (g.create kind uuid) d := by
  refine ⟨fun _ ho => ho, rfl, fun kind' c hc => ?_, fun c _ => ?_⟩
  · obtain ⟨uuid', place, ha⟩ := hplaced kind' c hc
    rw [attributeAt_create ha, ha]
  · -- new characteristics are empty
    simp only [Server.bytes, Server.create]
    split_ifs
    · rw [List.getElem?_append]
      split_ifs with hlt
      · rfl
      · rw [List.getElem?_eq_none (Nat.not_lt.mp hlt)]
        cases c - g.cells.length <;> rfl
    · rfl

theorem SameTree.attach (hplaced : g.Placed d) {kind : Kind} {p c : ℕ}
    (hdevice : kind.parent p ≠ .device d) (haway : kind.parent p ∉ managedObjects g.children d)
    {uuid : CStr} (ha : g.attributeAt kind c = some ⟨uuid, none⟩) (path : CStr) :
    g.SameTree (g.attach kind p c path) d := by
  refine ⟨fun o ho => mem_objects_attach ho _ _ _ _, managedObjects_childrenPush hdevice haway c,
    fun kind' e he => ?_, fun _ _ => rfl⟩
  obtain ⟨uuid', place, he⟩ := hplaced kind' e he
  rw [attributeAt_attach ha he, he]

/-- A characteristic elsewhere, or one that keeps its bytes. -/
theorem SameTree.setCell {c : ℕ} {cell : Cell}
    (h : .characteristic c ∈ managedObjects g.children d → cell.bytes = g.bytes c) :
    g.SameTree (g.setCell c cell) d := by
  refine ⟨fun _ ho => ho, rfl, fun _ _ _ => rfl, fun e he => ?_⟩
  by_cases hce : c = e
  · subst hce
    by_cases hlt : c < g.cells.length
    · simp [Server.bytes, Server.setCell, hlt, h he]
    · simp [Server.bytes, Server.setCell, hlt]
  · simp only [Server.bytes, Server.setCell, List.getElem?_set_ne hce]

end Server

/-! ## Steps away from a tree -/

/-- The step adds nothing to the tree of a device, and writes to none of its characteristics. -/
def Op.Away (σ : State) (d : ℕ) : Op → Prop
  | .add kind _ p _ => kind.parent p ≠ .device d ∧ ¬ Managed σ d (kind.parent p)
  | .setValue c _ _ => ¬ Managed σ d (.characteristic c)
  | .deliver (.characteristic c) m => m.member = some bluezMethodWriteValue →
      ¬ Managed σ d (.characteristic c)
  | _ => True

namespace Represents

variable {σ σ' : State} {g : Server} (h : Represents σ g) (d : ℕ)

include h

theorem placed : g.Placed d := by
  intro kind c hc
  have hattached : HasParent σ kind c := by
    obtain ⟨kind', c', hobject, hattached⟩ := h.exists_kind_of_managed hc
    cases kind <;> cases kind' <;> cases hobject <;> exact hattached
  obtain ⟨n, uuid, place, -, -, -, ha, -⟩ := h.exists_attached hattached
  exact ⟨uuid, place, ha⟩

/-- A step away from the tree of a device leaves it as it is. -/
theorem sameTree {op : Op} (haway : op.Away σ d) {t : Answer} (hstep : Server.step op g = some t) :
    g.SameTree t.next d := by
  have hplaced := h.placed d
  have hmanaged : ∀ {o : Obj}, ¬ Managed σ d o → o ∉ managedObjects g.children d :=
    fun hnot => mt h.standing.forests.managed_iff.mpr hnot
  have hsame : t.next = g → g.SameTree t.next d := by
    intro heq
    rw [heq]
    exact .refl g d
  cases op with
  | createDevice deviceName =>
    cases hstep
    exact ⟨fun _ ho => ho, rfl, fun _ _ _ => rfl, fun _ _ => rfl⟩
  | createService uuid | createCharacteristic uuid | createDescriptor uuid =>
    cases hstep
    exact .create hplaced _ uuid
  | add kind accepts p c =>
    obtain ⟨r, hr, rfl⟩ := Option.map_eq_some_iff.mp hstep
    rcases Server.add_next hr with heq | ⟨path, uuid, ha, heq⟩
    · exact hsame heq
    · have htree := Server.SameTree.attach hplaced haway.1 (hmanaged haway.2) ha path
      rw [← heq] at htree
      exact htree
  | registerDevice env e =>
    rcases Server.register_next hstep with heq | heq
    · exact hsame heq
    · rw [heq]
      exact ⟨fun o ho => Server.mem_objects_afterRegister ho _ _, rfl, fun _ _ _ => rfl,
        fun _ _ => rfl⟩
  | setPowered env e powered => exact hsame (Server.setAdapterProperty_next hstep)
  | setDiscoverable env e discoverable => exact hsame (Server.setAdapterProperty_next hstep)
  | setNotifying c notifying =>
    obtain ⟨g', hg', rfl⟩ := Option.map_eq_some_iff.mp hstep
    obtain ⟨cell, hcell, rfl⟩ := Option.map_eq_some_iff.mp hg'
    refine .setCell fun _ => ?_
    rw [Server.bytes, hcell, Option.map_some, Option.getD_some]
  | setValue c v type =>
    rcases Server.setValue_next hstep with heq | ⟨cell, heq⟩
    · exact hsame heq
    · rw [heq]
      exact .setCell fun hmem => absurd hmem (hmanaged haway)
  | deliver o m =>
    rcases Server.deliver_next hstep with heq | ⟨c, cell, rfl, heq, hbytes⟩
    · exact hsame heq
    · rw [heq]
      exact .setCell fun hmem => hbytes fun hmember => hmanaged (haway hmember) hmem
  | applicationReply | advertReply | reuseMemory =>
    cases hstep
    exact .refl g d
  | fini o => cases hstep

end Represents

/-- In a run away from the tree of a device the entries of the device stay the same. -/
theorem managedEntries_run {σ σ' : State} {g : Server} (h : Represents σ g) {d : ℕ} {ops : List Op}
    (hadmits : Admits Server.step Op.Fits ops g)
    (haway : AllSteps exec (fun op σ => op.Away σ d) ops σ) {rs : List Reply}
    (hrun : execAll ops σ = .ok (rs, σ')) :
    ∃ g', Represents σ' g' ∧ g'.managedEntries d = g.managedEntries d ∧
      ∀ o ∈ g.objects, o ∈ g'.objects := by
  refine exec_refines.run_relates (P := fun g g' => g'.managedEntries d = g.managedEntries d ∧
    ∀ o ∈ g.objects, o ∈ g'.objects) (fun _ => ⟨rfl, fun _ ho => ho⟩) ?_ ?_ h hadmits haway hrun
  · intro g₁ g₂ g₃ h₁ h₂
    exact ⟨h₂.1.trans h₁.1, fun o ho => h₂.2 o (h₁.2 o ho)⟩
  · intro op σ g t h haway hstep
    have htree := h.sameTree d haway hstep
    exact ⟨htree.managedEntries, htree.reached⟩

/-- What can be seen of one step: the reply, and the messages it sends. -/
def observeStep (op : Op) (σ : State) : Option (Reply × List Message) :=
  (exec op σ).toOption.map fun r => (r.1, r.2.bus.sent.drop σ.bus.sent.length)

/-- What can be seen of one step is what the server says. -/
theorem Matches.observeStep {op : Op} {σ : State} {answer : Option Answer}
    (h : Matches op σ answer) :
    observeStep op σ = answer.map fun t => (t.reply, t.logged) := by
  unfold BleSim.observeStep
  cases answer with
  | none =>
    obtain ⟨e, he⟩ := h
    rw [he]
    rfl
  | some t =>
    obtain ⟨σ', hexec, hsent, -⟩ := h
    rw [hexec]
    simp [Except.toOption, hsent]

/-- The answers of a registered device depend on its entries. -/
theorem Server.deliver_device {g g' : Server} {d : ℕ} (hd : .device d ∈ g.objects)
    (hd' : .device d ∈ g'.objects) (hentries : g'.managedEntries d = g.managedEntries d)
    (m : Message) : (g'.deliver (.device d) m).map (fun t => (t.reply, t.logged)) =
      (g.deliver (.device d) m).map fun t => (t.reply, t.logged) := by
  unfold Server.deliver
  rw [if_pos hd, if_pos hd']
  cases m.interface with
  | none => rfl
  | some interface =>
    simp only [Option.bind_some]
    split_ifs
    · -- a device has no properties
      have hfacts : g'.facts (.device d) = g.facts (.device d) := rfl
      unfold Server.properties
      rw [hfacts]
      split_ifs
      · cases getPropertyNameFromPropertiesGetMessage m <;> rfl
      · rfl
      · rfl
      · rfl
    · unfold Server.call
      dsimp only
      rw [hentries]
      split_ifs
      · cases g.managedEntries d <;> rfl
      · rfl

/-- In a run away from the tree of a device the device gives the same answer to every message, that
is, to `GetManagedObjects`, as before the run. -/
theorem observeStep_device {σ₀ σ σ' : State} (hinit : σ₀.IsInitial)
    (hfails : σ₀.buffers.NeverFails) (hmemory : σ₀.bus.outOfMemory = false) {before ops : List Op}
    (hops : ∀ op ∈ before ++ ops, op.Ordinary) (hlength : (before ++ ops).length < 2 ^ 32)
    {rs rs' : List Reply} (hbefore : execAll before σ₀ = .ok (rs, σ))
    (hrun : execAll ops σ = .ok (rs', σ')) {d : ℕ}
    (haway : AllSteps exec (fun op σ => op.Away σ d) ops σ)
    (hregistered : .device d ∈ σ.registeredObjects) {m : Message} (htyped : m.WellTyped) :
    observeStep (.deliver (.device d) m) σ' = observeStep (.deliver (.device d) m) σ := by
  obtain ⟨g, hg, hadmits⟩ := exists_represents hinit hfails hmemory hops hlength hbefore
  obtain ⟨g', hg', hentries, hreached⟩ := managedEntries_run hg (hadmits _ hops hlength) haway hrun
  have hd := hg.mem_objects.mpr hregistered
  rw [(hg'.deliver _ htyped).observeStep, (hg.deliver _ htyped).observeStep]
  exact Server.deliver_device hd (hreached _ hd) hentries m

/-- What is in a list is in every set of objects that holds its first object and, with an object,
the next one. -/
theorem ListedChild.mem_of_closed {σ : State} {kind : Kind} {p : ℕ} {l : List ℕ}
    (hhead : ∀ c ∈ ((σ.lists kind)[p]?).bind Children.head, c ∈ l)
    (hnext : ∀ c ∈ l, ∀ e ∈ ((σ.nodes kind)[c]?).bind Node.next, e ∈ l) {c : ℕ}
    (h : ListedChild σ kind p c) : c ∈ l := by
  induction h with
  | @head c x hx hc => exact hhead c (by rw [hx]; exact hc)
  | @next c e n _ hn he ih => exact hnext c ih e (by rw [hn]; exact he)

/-- The lists below a device stay in a set of services and one of characteristics. -/
structure StaysIn (σ : State) (d : ℕ) (services characteristics : List ℕ) : Prop where
  service : ∀ s ∈ ((σ.lists .service)[d]?).bind Children.head, s ∈ services
  nextService : ∀ s ∈ services, ∀ e ∈ ((σ.nodes .service)[s]?).bind Node.next, e ∈ services
  characteristic : ∀ s ∈ services, ∀ c ∈ ((σ.lists .characteristic)[s]?).bind Children.head,
    c ∈ characteristics
  nextCharacteristic : ∀ c ∈ characteristics,
    ∀ e ∈ ((σ.nodes .characteristic)[c]?).bind Node.next, e ∈ characteristics

theorem StaysIn.mem {σ : State} {d : ℕ} {services characteristics : List ℕ}
    (hstays : StaysIn σ d services characteristics) {c : ℕ}
    (h : Managed σ d (.characteristic c)) : c ∈ characteristics := by
  cases h with
  | characteristic hs hc =>
    have hmem := hs.mem_of_closed hstays.service hstays.nextService
    exact hc.mem_of_closed (hstays.characteristic _ hmem) hstays.nextCharacteristic

/-- A registered device with a service, a characteristic that has a value, and a descriptor, and
another device with a characteristic that is listened to. -/
def twoLamps : List Op :=
  [.createDevice "lamp".toList, .createService "180F".toList, .createCharacteristic "2A19".toList,
    .createDescriptor "2902".toList,
    .registerDevice ⟨fun _ _ => true, some 1, ⟨true, true, true⟩⟩ 0,
    .add .service (fun _ _ => true) 0 0, .add .characteristic (fun _ _ => true) 0 0,
    .add .descriptor (fun _ _ => true) 0 0, .setValue 0 (.integer 5) (.integer 2),
    .createDevice "bulb".toList, .createService "180A".toList,
    .createCharacteristic "2A29".toList, .add .service (fun _ _ => true) 1 1,
    .add .characteristic (fun _ _ => true) 1 1, .setNotifying 1 true]

/-- The other device gets a descriptor, and its value is set and written. -/
def secondLamp : List Op :=
  [.setValue 1 (.integer 7) (.integer 2), .createDescriptor "2904".toList,
    .add .descriptor (fun _ _ => true) 1 1,
    .deliver (.characteristic 1) (characteristicCall bluezMethodWriteValue [.byteArray [1, 2]])]

theorem twoLamps_ordinary : ∀ op ∈ twoLamps ++ secondLamp, op.Ordinary := by
  simp [twoLamps, secondLamp, Op.Ordinary, AcceptsFresh, Message.WellTyped, characteristicCall,
    DBusValue.WellTyped.byteArray]

/-- The theorem where the message is a call of `GetManagedObjects`, which is answered with the
entries of three objects. -/
theorem observeStep_device_lamp :
    observeStep (.deliver (.device 0) ⟨.methodCall, none, some dbusInterfaceObjectManager,
      some dbusMethodGetManagedObjects, []⟩) (State.after (twoLamps ++ secondLamp)) =
    observeStep (.deliver (.device 0) ⟨.methodCall, none, some dbusInterfaceObjectManager,
      some dbusMethodGetManagedObjects, []⟩) (State.after twoLamps) := by
  -- the only characteristic below the first device is its own
  have hother : ∀ {σ : State}, StaysIn σ 0 [0] [0] → ¬ Managed σ 0 (.characteristic 1) :=
    fun hstays hmanaged => absurd (hstays.mem hmanaged) (by decide)
  have haway : AllSteps exec (fun op σ => op.Away σ 0) secondLamp (State.after twoLamps) :=
    ⟨hother ⟨by decide +kernel, by decide +kernel, by decide +kernel, by decide +kernel⟩, trivial,
      ⟨by decide, hother ⟨by decide +kernel, by decide +kernel, by decide +kernel,
        by decide +kernel⟩⟩,
      fun _ => hother ⟨by decide +kernel, by decide +kernel, by decide +kernel,
        by decide +kernel⟩, trivial⟩
  have hbefore : execAll twoLamps State.empty = .ok (_, State.after twoLamps) := rfl
  have hrun : execAll secondLamp (State.after twoLamps) =
      .ok (_, State.after (twoLamps ++ secondLamp)) := rfl
  exact observeStep_device State.isInitial_empty (fun _ => rfl) rfl twoLamps_ordinary (by decide)
    hbefore hrun haway (by decide) (by simp [Message.WellTyped])

end BleSim
