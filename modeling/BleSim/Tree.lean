import BleSim.System

/-!
# The tree as the three levels see it

The three levels of the tree are the same structure three times. This file reads and writes a
level through `nodes`, `lists` and `parentPaths`, and restates the add functions and the
lookups in these terms, so that everything further is proved once for all levels.
-/

namespace BleSim

open Outcomes WriteOnce Intrusive

namespace State

/-! ## Reading a level -/

theorem access_eq_ok {α : Type} {σ : State} {o : Obj} {table : List α} {i : ℕ} {x : α} :
    σ.access o table i = .ok x ↔ o ∉ σ.finalised ∧ table[i]? = some x := by
  unfold access fetch
  by_cases hfin : o ∈ σ.finalised
  · simp [hfin]
  · cases table[i]? <;> simp [hfin]

/-- Access to one field of the entries of a table. -/
theorem access_map {α β : Type} (σ : State) (o : Obj) (table : List α) (i : ℕ) (f : α → β) :
    σ.access o (table.map f) i = f <$> σ.access o table i := by
  unfold access fetch
  rw [List.getElem?_map]
  by_cases hfin : o ∈ σ.finalised
  · simp [hfin]
  · cases table[i]? <;> simp [hfin]

theorem device_eq_ok {σ : State} {d : ℕ} {x : Device} :
    σ.device d = .ok x ↔ Obj.device d ∉ σ.finalised ∧ σ.devices[d]? = some x := access_eq_ok

theorem service_eq_ok {σ : State} {s : ℕ} {x : Service} :
    σ.service s = .ok x ↔ Obj.service s ∉ σ.finalised ∧ σ.services[s]? = some x := access_eq_ok

theorem characteristic_eq_ok {σ : State} {c : ℕ} {x : Characteristic} :
    σ.characteristic c = .ok x ↔
      Obj.characteristic c ∉ σ.finalised ∧ σ.characteristics[c]? = some x := access_eq_ok

theorem descriptor_eq_ok {σ : State} {k : ℕ} {x : Descriptor} :
    σ.descriptor k = .ok x ↔ Obj.descriptor k ∉ σ.finalised ∧ σ.descriptors[k]? = some x :=
  access_eq_ok

theorem node_eq_ok {σ : State} {kind : Kind} {c : ℕ} {x : Node} :
    σ.node kind c = .ok x ↔ kind.object c ∉ σ.finalised ∧ (σ.nodes kind)[c]? = some x :=
  access_eq_ok

/-- An object leads to its list node. -/
theorem node_of_service {σ : State} {s : ℕ} {x : Service} (h : σ.service s = .ok x) :
    σ.node .service s = .ok x.node := by
  obtain ⟨hfin, hx⟩ := service_eq_ok.mp h
  exact node_eq_ok.mpr ⟨hfin, by simp [nodes, hx]⟩

theorem node_of_characteristic {σ : State} {c : ℕ} {x : Characteristic}
    (h : σ.characteristic c = .ok x) : σ.node .characteristic c = .ok x.node := by
  obtain ⟨hfin, hx⟩ := characteristic_eq_ok.mp h
  exact node_eq_ok.mpr ⟨hfin, by simp [nodes, hx]⟩

theorem node_of_descriptor {σ : State} {k : ℕ} {x : Descriptor} (h : σ.descriptor k = .ok x) :
    σ.node .descriptor k = .ok x.node := by
  obtain ⟨hfin, hx⟩ := descriptor_eq_ok.mp h
  exact node_eq_ok.mpr ⟨hfin, by simp [nodes, hx]⟩

/-- Changing a device. -/
theorem device_modify {σ σ' : State} {d : ℕ} {x : Device} (f : Device → Device)
    (hx : σ.device d = .ok x) (hdevices : σ'.devices = σ.devices.modify d f)
    (hfin : σ'.finalised = σ.finalised) : σ'.device d = .ok (f x) := by
  rw [device_eq_ok] at hx ⊢
  rw [hfin, hdevices, List.getElem?_modify_eq, hx.2]
  exact ⟨hx.1, rfl⟩

/-- Changing a characteristic. -/
theorem characteristic_modify {σ σ' : State} {c : ℕ} {x : Characteristic}
    (f : Characteristic → Characteristic) (hx : σ.characteristic c = .ok x)
    (hcharacteristics : σ'.characteristics = σ.characteristics.modify c f)
    (hfin : σ'.finalised = σ.finalised) : σ'.characteristic c = .ok (f x) := by
  rw [characteristic_eq_ok] at hx ⊢
  rw [hfin, hcharacteristics, List.getElem?_modify_eq, hx.2]
  exact ⟨hx.1, rfl⟩

/-- The object path and the list of a parent. -/
def parent (σ : State) (kind : Kind) (p : ℕ) : Outcome (Ptr CStr × Children) :=
  match kind with
  | .service => do
    let x ← σ.device p
    .ok (x.objectPath, x.services)
  | .characteristic => do
    let x ← σ.service p
    .ok (x.node.objectPath, x.characteristics)
  | .descriptor => do
    let x ← σ.characteristic p
    .ok (x.node.objectPath, x.descriptors)

theorem parent_eq_ok {σ : State} {kind : Kind} {p : ℕ} {path : Ptr CStr} {children : Children} :
    σ.parent kind p = .ok (path, children) ↔
      kind.parent p ∉ σ.finalised ∧ (σ.parentPaths kind)[p]? = some path ∧
        (σ.lists kind)[p]? = some children := by
  cases kind with
  | service =>
    simp only [parent, bind_eq_ok, device_eq_ok, Kind.parent, parentPaths, lists, List.getElem?_map]
    cases σ.devices[p]? <;> simp
  | characteristic =>
    simp only [parent, bind_eq_ok, service_eq_ok, Kind.parent, parentPaths, lists,
      List.getElem?_map]
    cases σ.services[p]? <;> simp
  | descriptor =>
    simp only [parent, bind_eq_ok, characteristic_eq_ok, Kind.parent, parentPaths, lists,
      List.getElem?_map]
    cases σ.characteristics[p]? <;> simp

/-! ## Writing a level -/

section Writing

variable (σ : State) (kind kind' : Kind) (c p : ℕ) (n : Node) (children : Children)

theorem map_modify {α β : Type} (l : List α) (i : ℕ) (f : α → α) (g : α → β) (h : β → β)
    (hfg : ∀ x, g (f x) = h (g x)) : (l.modify i f).map g = (l.map g).modify i h := by
  apply List.ext_getElem?
  intro j
  simp only [List.getElem?_map, List.getElem?_modify]
  cases l[j]? with
  | none => simp
  | some x => by_cases hij : i = j <;> simp [hij, hfg]

theorem map_modify_same {α β : Type} (l : List α) (i : ℕ) (f : α → α) (g : α → β)
    (hfg : ∀ x, g (f x) = g x) : (l.modify i f).map g = l.map g := by
  rw [map_modify l i f g id hfg, List.modify_id]

/-- The rows of a table after one has been added at its end. -/
theorem getElem?_concat {α : Type} (l : List α) (a : α) (i : ℕ) :
    (l ++ [a])[i]? = if i = l.length then some a else l[i]? := by
  split_ifs with hi
  · rw [hi, List.getElem?_concat_length]
  rcases Nat.lt_or_gt_of_ne hi with hlt | hgt
  · rw [List.getElem?_append_left hlt]
  · rw [List.getElem?_eq_none (by simp; omega), List.getElem?_eq_none (by omega)]

/-- What a table holds stays where it is when the table grows. -/
theorem getElem?_append_of_some {α : Type} {l : List α} {i : ℕ} {a : α} (h : l[i]? = some a)
    (new : List α) : (l ++ new)[i]? = some a := by
  rw [List.getElem?_append_left (List.getElem?_eq_some_iff.mp h).1, h]

theorem mem_of_mem_modify {α : Type} {l : List α} {i : ℕ} {a b : α}
    (h : b ∈ l.modify i fun _ => a) : b = a ∨ b ∈ l := by
  obtain ⟨j, hj⟩ := List.mem_iff_getElem?.mp h
  by_cases hij : i = j
  · rw [hij, List.getElem?_modify_eq] at hj
    cases hget : l[j]? with
    | none => simp [hget] at hj
    | some x => exact Or.inl (by simpa [hget] using hj.symm)
  · rw [List.getElem?_modify_ne _ _ hij] at hj
    exact Or.inr (List.mem_of_getElem? hj)

theorem nodes_setNode :
    (σ.setNode kind c n).nodes kind' =
      if kind' = kind then (σ.nodes kind).modify c fun _ => n else σ.nodes kind' := by
  cases kind <;> cases kind' <;> first
    | rfl
    | exact map_modify _ _ _ _ _ fun _ => rfl

theorem lists_setNode : (σ.setNode kind c n).lists kind' = σ.lists kind' := by
  cases kind <;> cases kind' <;> first
    | rfl
    | exact map_modify_same _ _ _ _ fun _ => rfl

theorem nodes_setChildren : (σ.setChildren kind p children).nodes kind' = σ.nodes kind' := by
  cases kind <;> cases kind' <;> first
    | rfl
    | exact map_modify_same _ _ _ _ fun _ => rfl

theorem lists_setChildren :
    (σ.setChildren kind p children).lists kind' =
      if kind' = kind then (σ.lists kind).modify p fun _ => children else σ.lists kind' := by
  cases kind <;> cases kind' <;> first
    | rfl
    | exact map_modify _ _ _ _ _ fun _ => rfl

/-- The paths of parents that hang in a list themselves. -/
theorem parentPaths_characteristic :
    σ.parentPaths .characteristic = (σ.nodes .service).map Node.objectPath := by
  simp [parentPaths, nodes]

theorem parentPaths_descriptor :
    σ.parentPaths .descriptor = (σ.nodes .characteristic).map Node.objectPath := by
  simp [parentPaths, nodes]

end Writing

/-- A level only depends on the tables of objects. -/
theorem nodes_congr {σ σ' : State} (hservices : σ'.services = σ.services)
    (hcharacteristics : σ'.characteristics = σ.characteristics)
    (hdescriptors : σ'.descriptors = σ.descriptors) (kind : Kind) :
    σ'.nodes kind = σ.nodes kind := by
  cases kind <;> simp [nodes, hservices, hcharacteristics, hdescriptors]

theorem lists_congr {σ σ' : State}
    (hdevices : σ'.devices.map Device.services = σ.devices.map Device.services)
    (hservices : σ'.services = σ.services)
    (hcharacteristics : σ'.characteristics = σ.characteristics) (kind : Kind) :
    σ'.lists kind = σ.lists kind := by
  cases kind <;> simp [lists, hdevices, hservices, hcharacteristics]

/-! ### What writing a level leaves alone -/

section Frame

variable (σ : State) (kind : Kind) (c p : ℕ) (n : Node) (children : Children)

@[simp] theorem setNode_strings : (σ.setNode kind c n).strings = σ.strings := by
  cases kind <;> rfl
@[simp] theorem setNode_buffers : (σ.setNode kind c n).buffers = σ.buffers := by
  cases kind <;> rfl
@[simp] theorem setNode_devices : (σ.setNode kind c n).devices = σ.devices := by
  cases kind <;> rfl
@[simp] theorem setNode_bus : (σ.setNode kind c n).bus = σ.bus := by
  cases kind <;> rfl
@[simp] theorem setNode_deviceListHead :
    (σ.setNode kind c n).deviceListHead = σ.deviceListHead := by
  cases kind <;> rfl
@[simp] theorem setNode_deviceCount : (σ.setNode kind c n).deviceCount = σ.deviceCount := by
  cases kind <;> rfl
@[simp] theorem setNode_finalised : (σ.setNode kind c n).finalised = σ.finalised := by
  cases kind <;> rfl
@[simp] theorem setChildren_strings : (σ.setChildren kind p children).strings = σ.strings := by
  cases kind <;> rfl
@[simp] theorem setChildren_buffers : (σ.setChildren kind p children).buffers = σ.buffers := by
  cases kind <;> rfl
@[simp] theorem setChildren_bus : (σ.setChildren kind p children).bus = σ.bus := by
  cases kind <;> rfl
@[simp] theorem setChildren_deviceListHead :
    (σ.setChildren kind p children).deviceListHead = σ.deviceListHead := by
  cases kind <;> rfl
@[simp] theorem setChildren_deviceCount :
    (σ.setChildren kind p children).deviceCount = σ.deviceCount := by
  cases kind <;> rfl
@[simp] theorem setChildren_finalised :
    (σ.setChildren kind p children).finalised = σ.finalised := by
  cases kind <;> rfl

end Frame

end State

/-! ## The add functions and the lookups on a level -/

/-- The three lookups are one. -/
theorem getFrom_eq (kind : Kind) (p : ℕ) (uuid : CStr) (σ : State) :
    getFrom kind p uuid σ = (do
      let (_, children) ← σ.parent kind p
      getChild kind children uuid σ) := by
  cases kind with
  | service => simp only [getFrom, deviceGetService, State.parent]; cases σ.device p <;> rfl
  | characteristic =>
    simp only [getFrom, serviceGetCharacteristic, State.parent]; cases σ.service p <;> rfl
  | descriptor =>
    simp only [getFrom, characteristicGetDescriptor, State.parent]
    cases σ.characteristic p <;> rfl

/-- Whether the parent has no path although a parent of this kind needs one. -/
def Unpublished (kind : Kind) (path : Ptr CStr) : Prop := kind ≠ .service ∧ path = .null

instance (kind : Kind) (path : Ptr CStr) : Decidable (Unpublished kind path) :=
  inferInstanceAs (Decidable (_ ∧ _))

/-- The three add functions are one. -/
theorem addTo_eq (kind : Kind) (accepts : Accepts) (p c : ℕ) (σ : State) :
    addTo kind accepts p c σ = (do
      let (path, children) ← σ.parent kind p
      let node ← σ.node kind c
      if Unpublished kind path then .ok (false, σ)
      else addChild kind accepts p path children c node σ) := by
  cases kind with
  | service =>
    simp only [addTo, deviceAddService, State.parent, State.node, State.nodes, State.access_map,
      Unpublished, State.service, Kind.object]
    cases σ.device p with
    | error e => rfl
    | ok x => cases σ.access (.service c) σ.services c <;> simp
  | characteristic =>
    simp only [addTo, serviceAddCharacteristic, State.parent, State.node, State.nodes,
      State.access_map, Unpublished, State.characteristic, Kind.object]
    cases σ.service p with
    | error e => rfl
    | ok x => cases σ.access (.characteristic c) σ.characteristics c <;> simp
  | descriptor =>
    simp only [addTo, characteristicAddDescriptor, State.parent, State.node, State.nodes,
      State.access_map, Unpublished, State.descriptor, Kind.object]
    cases σ.characteristic p with
    | error e => rfl
    | ok x => cases σ.access (.descriptor c) σ.descriptors c <;> simp

end BleSim
