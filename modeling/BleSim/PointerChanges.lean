import BleSim.Finalising

/-!
# How changes move the string fields

`PointersInv` is preserved by every change of the system. Each change assigns some slots new
strings, or frees the slots of one object.
-/

namespace BleSim

open Outcomes WriteOnce Intrusive

/-! ## Changes that leave the string fields alone -/

/-- What the slots of a device depend on, its origin, and the data it advertises. -/
def Device.shape (x : Device) : (DeviceField → Ptr CStr) × Origin × Bytes :=
  (x.field, x.origin, x.advertisement.manufacturerData)

theorem Device.WellFormed.congr {x x' : Device} {d : ℕ} (h : x.WellFormed d)
    (hshape : x'.shape = x.shape) : x'.WellFormed d := by
  have hfield : x'.field = x.field := congrArg Prod.fst hshape
  have horigin : x'.origin = x.origin := congrArg (fun shape => shape.2.1) hshape
  have hdata : x'.advertisement.manufacturerData = x.advertisement.manufacturerData :=
    congrArg (fun shape => shape.2.2) hshape
  constructor
  · have := congrFun hfield .deviceName
    exact (show x'.deviceName = _ from this) ▸ h.deviceName
  · have := congrFun hfield .objectPath
    exact (show x'.objectPath = _ from this) ▸ h.objectPath
  · have := congrFun hfield .controller
    exact (show x'.controller = _ from this) ▸ h.controller
  · have hpath : x'.advertisement.objectPath = _ := congrFun hfield .advertPath
    have htype : x'.advertisement.type = _ := congrFun hfield .advertType
    have hchannel : x'.advertisement.secondaryChannel = _ := congrFun hfield .advertChannel
    rcases h.advertisement with hunset | hnamed
    · exact Or.inl ⟨hpath.trans hunset.1, htype.trans hunset.2, hchannel.trans hunset.3⟩
    · exact Or.inr ⟨hpath ▸ hnamed.1, htype ▸ hnamed.2, hchannel ▸ hnamed.3, hdata ▸ hnamed.4⟩
  · rw [horigin]
    exact h.origin

theorem State.slot_congr {σ σ' : State}
    (hdevices : σ'.devices.map Device.shape = σ.devices.map Device.shape)
    (hnodes : ∀ kind, σ'.nodes kind = σ.nodes kind) : σ'.slot = σ.slot := by
  funext s
  cases s with
  | device d f =>
    have hd : (σ'.devices[d]?).map Device.shape = (σ.devices[d]?).map Device.shape := by
      rw [← List.getElem?_map, hdevices, List.getElem?_map]
    simp only [State.slot]
    generalize σ'.devices[d]? = x' at hd ⊢
    generalize σ.devices[d]? = x at hd ⊢
    cases x' with
    | none => cases x with
      | none => rfl
      | some x => cases hd
    | some x' => cases x with
      | none => cases hd
      | some x => exact congrFun (congrArg Prod.fst (Option.some.inj hd)) f
  | node kind c f => simp only [State.slot, hnodes kind]

theorem State.freed_congr {σ σ' : State} (hslot : σ'.slot = σ.slot)
    (hfin : σ'.finalised = σ.finalised) : σ'.Freed = σ.Freed := by
  funext s
  unfold State.Freed State.Dangling
  rw [hslot, hfin]

namespace PointersInv

variable {σ σ' : State}

/-- A change that leaves the string fields and the string heap alone. -/
theorem same (h : PointersInv σ) (hsize : σ'.strings.size = σ.strings.size)
    (hlive : σ'.strings.live = σ.strings.live) (hfin : σ'.finalised = σ.finalised)
    (hdevices : σ'.devices.map Device.shape = σ.devices.map Device.shape)
    (hnodes : ∀ kind, σ'.nodes kind = σ.nodes kind) (hcount : σ'.deviceCount = σ.deviceCount) :
    PointersInv σ' where
  owns := by
    have hslot := State.slot_congr hdevices hnodes
    rw [hslot, State.freed_congr hslot hfin]
    exact h.owns.congr_heap hsize hlive
  devices d x' hx' := by
    have hd := congrArg (fun l : List _ => l[d]?) hdevices
    simp only [List.getElem?_map, hx', Option.map_some] at hd
    cases hx : σ.devices[d]? with
    | none => rw [hx] at hd; cases hd
    | some x =>
      rw [hx] at hd
      exact (h.devices d x hx).congr (Option.some.inj hd)
  nodes kind n hn := h.nodes kind n (hnodes kind ▸ hn)
  deviceCount := by
    have hlen := congrArg List.length hdevices
    simp only [List.length_map] at hlen
    rw [hcount, hlen, h.deviceCount]

/-! ## Creating objects -/

/-- The new child's UUID is the only slot that a creation fills. -/
theorem slot_createChild {kind : Kind} {uuid : CStr} (hcreates : CreatesChild σ σ' kind uuid) :
    σ'.slot = Function.update σ.slot (.node kind (σ.nodes kind).length .uuid)
      (σ.strings.alloc uuid).1 := by
  funext s
  cases s with
  | device d f =>
    rw [Function.update_of_ne (by simp)]
    simp only [State.slot, hcreates.devices]
  | node k c f =>
    have hnodes := hcreates.nodes k
    by_cases hk : k = kind
    swap
    · rw [if_neg hk] at hnodes
      rw [Function.update_of_ne (by simp [hk])]
      simp only [State.slot, hnodes]
    subst hk
    rw [if_pos rfl] at hnodes
    have hget := State.getElem?_concat (σ.nodes k)
      ⟨(σ.strings.alloc uuid).1, .null, .null, .lua, none⟩ c
    rw [← hnodes] at hget
    by_cases hc : c = (σ.nodes k).length
    · have hnone : (σ.nodes k)[c]? = none := List.getElem?_eq_none (by omega)
      rw [if_pos hc] at hget
      cases f with
      | uuid =>
        rw [hc, Function.update_self, ← hc, State.slot_node hget]
        rfl
      | parentPath =>
        rw [Function.update_of_ne (by simp), State.slot_node hget]
        simp [State.slot, hnone, Node.field]
      | objectPath =>
        rw [Function.update_of_ne (by simp), State.slot_node hget]
        simp [State.slot, hnone, Node.field]
    · rw [if_neg hc] at hget
      rw [Function.update_of_ne (by simp [hc])]
      simp only [State.slot, hget]

/-- A new child: its UUID is a new string, and it has no paths. -/
theorem createChild (h : PointersInv σ) {kind : Kind} {uuid : CStr}
    (hcreates : CreatesChild σ σ' kind uuid) : PointersInv σ' := by
  have hslot := slot_createChild hcreates
  obtain ⟨hstrings, hdevices, hcount, -, -, hfin, hnodes, -⟩ := hcreates
  refine ⟨?_, fun d x hx => h.devices d x (hdevices ▸ hx), fun k m hm => ?_, ?_⟩
  · rw [hslot, hstrings]
    refine h.owns.alloc _ uuid fun s _ hs => ?_
    -- the new slot is no parent path, so what dangled still dangles
    rcases hs with hs | ⟨k, c, rfl, hnull⟩
    · exact Or.inl (hfin ▸ hs)
    · refine Or.inr ⟨k, c, rfl, ?_⟩
      rw [hslot, Function.update_of_ne (by simp)]
      exact hnull
  · rw [hnodes k] at hm
    split_ifs at hm with hk
    · rcases List.mem_append.mp hm with hm | hm
      · exact h.nodes kind m hm
      · rw [List.mem_singleton.mp hm]
        exact ⟨⟨_, _, rfl⟩, fun hne => absurd rfl hne, fun hne => absurd rfl hne,
          fun hne => absurd rfl hne, rfl⟩
    · exact h.nodes k m hm
  · rw [hcount, hdevices, h.deviceCount]

/-- A new device has a name and a path; the strings of its advertisement are not assigned. -/
theorem slot_createDevice (σ : State) (deviceName : CStr) :
    (luaiCreateDevice deviceName σ).2.slot =
      Function.update (Function.update (Function.update (Function.update (Function.update σ.slot
        (.device σ.devices.length .deviceName) (σ.strings.alloc deviceName).1)
        (.device σ.devices.length .objectPath) ((σ.strings.alloc deviceName).2.alloc
          (objectPathString emptyString deviceObjectName σ.deviceCount)).1)
        (.device σ.devices.length .advertPath) .indeterminate)
        (.device σ.devices.length .advertType) .indeterminate)
        (.device σ.devices.length .advertChannel) .indeterminate := by
  have hnodes : ∀ kind, (luaiCreateDevice deviceName σ).2.nodes kind = σ.nodes kind :=
    State.nodes_congr rfl rfl rfl
  funext s
  cases s with
  | node kind c f =>
    simp only [State.slot, hnodes, ne_eq, reduceCtorEq, not_false_eq_true, Function.update_of_ne]
  | device e f =>
    have hget := getElem?_createDevice σ deviceName e
    by_cases he : e = σ.devices.length
    swap
    · rw [if_neg he] at hget
      simp [State.slot, hget, he]
    subst he
    rw [if_pos rfl] at hget
    rw [State.slot_device hget]
    have hnone : σ.devices[σ.devices.length]? = none := List.getElem?_eq_none (Nat.le_refl _)
    cases f with
    | controller =>
      simp only [ne_eq, Slot.device.injEq, reduceCtorEq, and_false, not_false_eq_true,
        Function.update_of_ne, State.slot, hnone]
      rfl
    | deviceName => simp [Function.update_of_ne, Function.update_self]; rfl
    | objectPath => simp [Function.update_of_ne, Function.update_self]; rfl
    | advertPath => simp [Function.update_of_ne, Function.update_self]; rfl
    | advertType => simp [Function.update_of_ne, Function.update_self]; rfl
    | advertChannel => simp [Function.update_self]; rfl

/-- A new device: its name and its path are new strings, its advertisement is not assigned. -/
theorem createDevice (h : PointersInv σ) (deviceName : CStr) :
    PointersInv (luaiCreateDevice deviceName σ).2 := by
  have hnodes : ∀ kind, (luaiCreateDevice deviceName σ).2.nodes kind = σ.nodes kind :=
    State.nodes_congr rfl rfl rfl
  have hfreed : (luaiCreateDevice deviceName σ).2.Freed = σ.Freed := by
    funext s
    unfold State.Freed State.Dangling
    rw [slot_createDevice]
    simp [luaiCreateDevice]
  refine ⟨?_, fun e y hy => ?_, fun kind n hn => h.nodes kind n (hnodes kind ▸ hn), ?_⟩
  · rw [slot_createDevice, hfreed]
    have hkeep : ∀ i j : Slot, j ≠ i → σ.Freed j → σ.Freed j := fun _ _ _ hj => hj
    exact ((((h.owns.alloc _ deviceName (hkeep _)).alloc _ _ (hkeep _)).forget _ (by simp)
      (hkeep _)).forget _ (by simp) (hkeep _)).forget _ (by simp) (hkeep _)
  · rw [getElem?_createDevice] at hy
    split_ifs at hy with he
    · obtain rfl := Option.some.inj hy
      refine ⟨⟨_, _, rfl⟩, ⟨(σ.strings.alloc deviceName).2.size, ?_⟩, by simp [deviceInit],
        Or.inl ⟨rfl, rfl, rfl⟩, rfl⟩
      unfold devicePath
      rw [he, ← h.deviceCount]
      rfl
    · exact h.devices e y hy
  · show σ.deviceCount + 1 = UInt32.ofNat (σ.devices ++ [_]).length
    rw [h.deviceCount, List.length_append, List.length_singleton, UInt32.ofNat_add]
    rfl

/-! ## Adding a child -/

/-- Replacing the list node of one object changes its slots at most. -/
theorem slot_modifyNode {kind : Kind} {c : ℕ} {n m : Node} (hn : (σ.nodes kind)[c]? = some n)
    (hdevices : σ'.devices.map Device.shape = σ.devices.map Device.shape)
    (hnodes : ∀ k, σ'.nodes k = if k = kind then (σ.nodes kind).modify c fun _ => m else σ.nodes k)
    (s : Slot) :
    σ'.slot s = match s with
      | .device _ _ => σ.slot s
      | .node k e f => if k = kind ∧ e = c then m.field f else σ.slot s := by
  cases s with
  | device d f =>
    have hd : (σ'.devices[d]?).map Device.shape = (σ.devices[d]?).map Device.shape := by
      rw [← List.getElem?_map, hdevices, List.getElem?_map]
    have hslot : ({ σ with devices := σ'.devices } : State).slot = σ.slot :=
      State.slot_congr hdevices (State.nodes_congr rfl rfl rfl)
    exact congrFun hslot (.device d f)
  | node k e f =>
    by_cases hk : k = kind
    · subst hk
      have hnodes' := hnodes k
      rw [if_pos rfl] at hnodes'
      by_cases he : e = c
      · subst he
        simp [State.slot, hnodes', List.getElem?_modify_eq, hn]
      · simp [State.slot, hnodes', List.getElem?_modify_ne _ _ (Ne.symm he), he]
    · simp [State.slot, hnodes k, hk]

/-- A refused path is written into the slot of the child's path, and nowhere else. -/
theorem slot_refuse {kind : Kind} {c : ℕ} {node : Node} (hn : (σ.nodes kind)[c]? = some node)
    (newPath : CStr) : (σ.refuse kind c node newPath).slot =
      Function.update σ.slot (.node kind c .objectPath) (σ.strings.alloc newPath).1 := by
  funext s
  rw [slot_modifyNode hn (by simp [State.refuse])
    (fun k => σ.nodes_refuse kind k c node newPath) s]
  cases s with
  | device d f => simp
  | node k e f =>
    by_cases hke : k = kind ∧ e = c
    · obtain ⟨rfl, rfl⟩ := hke
      cases f <;> simp [Node.field, State.slot_node hn]
    · simp only [if_neg hke]
      rw [Function.update_of_ne (by simp; tauto)]

/-- A refused path leaves the slot of the child's path dangling. -/
theorem refuse (h : PointersInv σ) {kind : Kind} {p c : ℕ} {path : Ptr CStr}
    {children : Children} {node : Node} (hpasses : Passes σ kind p c path children node)
    (newPath : CStr) : PointersInv (σ.refuse kind c node newPath) := by
  have hn := (State.node_eq_ok.mp hpasses.child).2
  have hdevices : (σ.refuse kind c node newPath).devices = σ.devices := by
    simp [State.refuse]
  have hfreed : (σ.refuse kind c node newPath).Freed = σ.Freed := by
    funext s
    unfold State.Freed State.Dangling
    rw [slot_refuse hn]
    simp [State.refuse]
  have hdangling : σ.Freed (.node kind c .objectPath) :=
    Or.inr ⟨kind, c, rfl, (State.slot_node hn _).trans hpasses.unowned⟩
  have hstrings : (σ.refuse kind c node newPath).strings =
      (σ.strings.alloc newPath).2.free (σ.strings.alloc newPath).1 := by
    simp [State.refuse]
  refine ⟨?_, fun d x hx => h.devices d x (hdevices ▸ hx), fun k m hm => ?_, ?_⟩
  · rw [slot_refuse hn, hfreed, hstrings]
    have halloc := h.owns.alloc (.node kind c .objectPath) newPath fun _ _ hj => hj
    have hfree := halloc.free (.node kind c .objectPath)
    rw [Function.update_self] at hfree
    refine hfree.mono fun s hs => ?_
    rcases hs with hs | rfl
    · exact hs
    · exact hdangling
  · rw [σ.nodes_refuse kind k c node newPath] at hm
    split_ifs at hm with hk
    · have hwf := h.nodes kind node (List.mem_of_getElem? hn)
      rcases State.mem_of_mem_modify hm with rfl | hm
      · exact ⟨hwf.uuid, hwf.parentPath, fun _ => ⟨_, _, rfl⟩, fun _ => by simp, hwf.origin⟩
      · exact h.nodes kind m hm
    · exact h.nodes k m hm
  · have hcount : (σ.refuse kind c node newPath).deviceCount = σ.deviceCount := by
      simp [State.refuse]
    rw [hcount, hdevices, h.deviceCount]

/-- The list of a device is no part of what the string fields are read from. -/
theorem shape_attach (σ : State) (kind : Kind) (p c : ℕ) (node : Node) (path : Ptr CStr)
    (children : Children) : (σ.attach kind p c node path children).devices.map Device.shape =
      σ.devices.map Device.shape := by
  cases kind with
  | service =>
    unfold State.attach
    apply State.map_modify_same
    intro x
    rfl
  | characteristic => rfl
  | descriptor => rfl

/-- Adding a child fills the slots of its two paths, and no other. -/
theorem slot_attach {kind : Kind} {p c : ℕ} {path : Ptr CStr} {children : Children} {node : Node}
    (hn : (σ.nodes kind)[c]? = some node) : (σ.attach kind p c node path children).slot =
      Function.update (Function.update σ.slot (.node kind c .objectPath)
        (σ.strings.alloc (σ.childPath kind path children)).1) (.node kind c .parentPath)
        ((σ.strings.alloc (σ.childPath kind path children)).2.alloc
          ((σ.strings.alloc (σ.childPath kind path children)).2.read path)).1 := by
  funext s
  rw [slot_modifyNode hn (shape_attach σ kind p c node path children)
    (fun k => σ.nodes_attach kind k p c node path children) s]
  cases s with
  | device d f => simp
  | node k e f =>
    by_cases hke : k = kind ∧ e = c
    · obtain ⟨rfl, rfl⟩ := hke
      cases f with
      | uuid => simp [Node.field, State.slot_node hn, State.attachedNode]
      | parentPath => simp [Node.field, State.attachedNode]
      | objectPath => simp [Node.field, State.attachedNode]
    · simp only [if_neg hke]
      rw [Function.update_of_ne (by simp; tauto), Function.update_of_ne (by simp; tauto)]

/-- Every slot but the two of the added child dangles as before. -/
theorem freed_attach {kind : Kind} {p c : ℕ} {path : Ptr CStr} {children : Children} {node : Node}
    (hn : (σ.nodes kind)[c]? = some node) {s : Slot} (hne : s ≠ .node kind c .objectPath)
    (hs : σ.Freed s) : (σ.attach kind p c node path children).Freed s := by
  have hfin : (σ.attach kind p c node path children).finalised = σ.finalised := by
    simp [State.attach]
  rcases hs with hs | ⟨k, e, rfl, hnull⟩
  · exact Or.inl (hfin ▸ hs)
  · refine Or.inr ⟨k, e, rfl, ?_⟩
    have hke : ¬ (k = kind ∧ e = c) := by
      rintro ⟨rfl, rfl⟩
      exact hne rfl
    rw [slot_modifyNode hn (shape_attach σ kind p c node path children)
      (fun k => σ.nodes_attach kind k p c node path children)]
    simp only [if_neg hke]
    exact hnull

/-- Adding a child assigns both of its paths. -/
theorem attach (h : PointersInv σ) {kind : Kind} {p c : ℕ} {path : Ptr CStr}
    {children : Children} {node : Node} (hpasses : Passes σ kind p c path children node) :
    PointersInv (σ.attach kind p c node path children) := by
  have hn := (State.node_eq_ok.mp hpasses.child).2
  have hdevices := shape_attach σ kind p c node path children
  have hstrings : (σ.attach kind p c node path children).strings =
      ((σ.strings.alloc (σ.childPath kind path children)).2.alloc
        ((σ.strings.alloc (σ.childPath kind path children)).2.read path)).2 := by
    simp [State.attach]
  have hfreed : ∀ s, s ≠ .node kind c .objectPath → σ.Freed s →
      (σ.attach kind p c node path children).Freed s := fun s hne hs => freed_attach hn hne hs
  refine ⟨?_, fun d x' hx' => ?_, fun k m hm => ?_, ?_⟩
  · rw [hstrings, slot_attach hn]
    have hpath := h.owns.alloc (.node kind c .objectPath) (σ.childPath kind path children) hfreed
    exact hpath.alloc (.node kind c .parentPath) _ fun _ _ hs => hs
  · have hd : (some x').map Device.shape = (σ.devices[d]?).map Device.shape := by
      rw [← hx', ← List.getElem?_map, hdevices, List.getElem?_map]
    cases hx : σ.devices[d]? with
    | none => rw [hx] at hd; cases hd
    | some x =>
      rw [hx] at hd
      exact (h.devices d x hx).congr (Option.some.inj hd)
  · rw [σ.nodes_attach kind k p c node path children] at hm
    split_ifs at hm with hk
    · have hwf := h.nodes kind node (List.mem_of_getElem? hn)
      rcases State.mem_of_mem_modify hm with rfl | hm
      · exact ⟨hwf.uuid, fun _ => ⟨_, _, rfl⟩, fun _ => ⟨_, _, rfl⟩,
          fun _ => by simp [State.attachedNode], hwf.origin⟩
      · exact h.nodes kind m hm
    · exact h.nodes k m hm
  · have hcount : (σ.attach kind p c node path children).deviceCount = σ.deviceCount := by
      simp [State.attach]
    have hlen := congrArg List.length hdevices
    simp only [List.length_map] at hlen
    rw [hcount, hlen, h.deviceCount]

/-! ## Registering a device -/

/-- Changing one device changes its slots at most. -/
theorem slot_modifyDevice {d : ℕ} {x : Device} {g : Device → Device} (hx : σ.devices[d]? = some x)
    (hdevices : σ'.devices = σ.devices.modify d g) (hnodes : ∀ k, σ'.nodes k = σ.nodes k)
    (s : Slot) :
    σ'.slot s = match s with
      | .device e f => if e = d then (g x).field f else σ.slot s
      | .node _ _ _ => σ.slot s := by
  cases s with
  | node k e f => simp only [State.slot, hnodes]
  | device e f =>
    by_cases he : e = d
    · subst he
      simp [State.slot, hdevices, List.getElem?_modify_eq, hx]
    · simp [State.slot, hdevices, List.getElem?_modify_ne _ _ (Ne.symm he), he]

/-- The slots of children are not touched, so what dangled still does. -/
theorem freed_of_nodes (hnodes : ∀ k, σ'.nodes k = σ.nodes k) (hfin : σ'.finalised = σ.finalised) :
    σ'.Freed = σ.Freed := by
  funext s
  unfold State.Freed State.Dangling
  simp only [State.slot, hnodes, hfin]

/-- A device after one of its fields has changed. -/
theorem devices_modify (h : PointersInv σ) {d : ℕ} {x : Device} {g : Device → Device}
    (hx : σ.devices[d]? = some x) (hwf : (g x).WellFormed d) {e : ℕ} {y : Device}
    (hy : (σ.devices.modify d g)[e]? = some y) : y.WellFormed e := by
  by_cases he : d = e
  · subst he
    rw [List.getElem?_modify_eq, hx] at hy
    cases hy
    exact hwf
  · rw [List.getElem?_modify_ne _ _ he] at hy
    exact h.devices e y hy

theorem controller (h : PointersInv σ) {d : ℕ} {vhciOpen : Option ℕ} {b : Bool}
    (hinit : deviceInitController d vhciOpen σ = .ok (b, σ')) : PointersInv σ' := by
  obtain ⟨x, vc, oc, co, cc, hx, rfl, -⟩ := deviceInitController_spec hinit
  obtain ⟨hfin, hx⟩ := State.device_eq_ok.mp hx
  set τ : State := { σ with
    strings := (σ.strings.alloc (adapterPath σ.controllerCount)).2
    devices := σ.devices.modify d fun x =>
      { x with
        controller := (σ.strings.alloc (adapterPath σ.controllerCount)).1
        virtualController := vc }
    openControllers := oc, controllersOpened := co, controllerCount := cc } with hτ
  have hnodes : ∀ k, τ.nodes k = σ.nodes k := State.nodes_congr rfl rfl rfl
  have hslot : τ.slot = Function.update σ.slot (.device d .controller)
      (σ.strings.alloc (adapterPath σ.controllerCount)).1 := by
    funext s
    rw [slot_modifyDevice hx rfl hnodes s]
    cases s with
    | node k e f => simp
    | device e f =>
      by_cases he : e = d
      · subst he
        cases f <;> simp [Device.field, State.slot_device hx]
      · simp [he]
  refine ⟨?_, fun e y hy => ?_, fun k n hn => h.nodes k n (hnodes k ▸ hn), ?_⟩
  · rw [hslot, freed_of_nodes hnodes rfl]
    exact h.owns.alloc _ _ fun _ _ hj => hj
  · have hwf := h.devices d x hx
    exact h.devices_modify hx ⟨hwf.deviceName, hwf.objectPath, by simp, hwf.advertisement,
      hwf.origin⟩ hy
  · rw [hτ, List.length_modify]
    exact h.deviceCount

theorem advertised (h : PointersInv σ) {d : ℕ} (hinit : deviceInitAdvertisement d σ = .ok σ') :
    PointersInv σ' := by
  obtain ⟨x, strings, a, i, j, k, hx, rfl, -, hext, hi, hij, hjk, hilive, hjlive, hklive, hpath,
    htype, hchannel, hdata⟩ := deviceInitAdvertisement_spec hinit
  rw [h.read_devicePath hx] at hpath
  obtain ⟨hfin, hx⟩ := State.device_eq_ok.mp hx
  set τ : State :=
    { σ with strings, devices := σ.devices.modify d fun x => { x with advertisement := a } } with hτ
  have hnodes : ∀ k, τ.nodes k = σ.nodes k := State.nodes_congr rfl rfl rfl
  have hslot : τ.slot = Function.update (Function.update (Function.update σ.slot
      (.device d .advertPath)
        (.block i (objectPathString (devicePath d) advertisementObjectName 0)))
      (.device d .advertType) (.block j advertisementTypeDefault))
      (.device d .advertChannel) (.block k advertisementSecondaryChannelDefault) := by
    funext s
    rw [slot_modifyDevice hx rfl hnodes s]
    cases s with
    | node k e f => simp
    | device e f =>
      by_cases he : e = d
      · subst he
        cases f <;> simp [Device.field, State.slot_device hx, hpath, htype, hchannel]
      · simp [he]
  refine ⟨?_, fun e y hy => ?_, fun k n hn => h.nodes k n (hnodes k ▸ hn), ?_⟩
  · rw [hslot, freed_of_nodes hnodes rfl]
    -- the three blocks are new, and differ from each other
    have hbound : ∀ s id b, σ.slot s = .block id b → id < i := fun s id b hs =>
      Nat.lt_of_lt_of_le (h.owns.bounded s id b hs) hi
    have hkeep : ∀ i j : Slot, j ≠ i → σ.Freed j → σ.Freed j := fun _ _ _ hj => hj
    have h₁ := (h.owns.extend hext).update (.device d .advertPath)
      (objectPathString (devicePath d) advertisementObjectName 0)
      (fun s b _ hs => Nat.lt_irrefl _ (hbound s i b hs)) (strings.live_lt i hilive)
      (fun _ => hilive) (hkeep _)
    have h₂ := h₁.update (.device d .advertType) advertisementTypeDefault
      (fun s b _ hs => ?_) (strings.live_lt j hjlive) (fun _ => hjlive) (hkeep _)
    · refine h₂.update (.device d .advertChannel) advertisementSecondaryChannelDefault
        (fun s b _ hs => ?_) (strings.live_lt k hklive) (fun _ => hklive) (hkeep _)
      simp only [Function.update_apply] at hs
      split_ifs at hs
      · cases hs; omega
      · cases hs; omega
      · have := hbound s k b hs; omega
    · simp only [Function.update_apply] at hs
      split_ifs at hs
      · cases hs; omega
      · have := hbound s j b hs; omega
  · have hwf := h.devices d x hx
    exact h.devices_modify hx ⟨hwf.deviceName, hwf.objectPath, hwf.controller,
      Or.inr ⟨⟨_, hpath⟩, ⟨_, htype⟩, ⟨_, hchannel⟩, hdata⟩, hwf.origin⟩ hy
  · rw [hτ, List.length_modify]
    exact h.deviceCount

/-! ## Finalising an object -/

/-- `fini` of a device releases it and closes its controller. The device belongs to Lua, as its
origin shows, so its list is left alone. -/
theorem finiObject_device (h : PointersInv σ) {d : ℕ}
    (hfini : finiObject (.device d) σ = .ok σ') :
    ∃ x, σ.device d = .ok x ∧ σ' = { σ.release (.device d) with
      openControllers := vhciClose σ.openControllers x.virtualController } := by
  obtain ⟨x, hx, -⟩ := bind_eq_ok.mp hfini
  have horigin := (h.devices d x (State.device_eq_ok.mp hx).2).origin
  rw [finiObject, deviceFini_eq hx, horigin] at hfini
  cases hfini
  exact ⟨x, hx, rfl⟩

/-- `fini` of any other object only releases it. -/
theorem finiObject_other (h : PointersInv σ) {o : Obj} (ho : ∀ d, o ≠ .device d)
    (hfini : finiObject o σ = .ok σ') :
    o ∉ σ.finalised ∧ (∀ d, o ≠ .advertisement d) ∧ σ' = σ.release o := by
  cases o with
  | device d => exact absurd rfl (ho d)
  | advertisement d => cases hfini
  | service s =>
    obtain ⟨x, hx, -⟩ := bind_eq_ok.mp hfini
    obtain ⟨hfin, hget⟩ := State.service_eq_ok.mp hx
    have hn : x.node ∈ σ.nodes .service := List.mem_map_of_mem (List.mem_of_getElem? hget)
    rw [finiObject, serviceFini_eq hx, (h.nodes .service x.node hn).origin] at hfini
    cases hfini
    exact ⟨hfin, by simp, rfl⟩
  | characteristic c =>
    obtain ⟨x, hx, -⟩ := bind_eq_ok.mp hfini
    obtain ⟨hfin, hget⟩ := State.characteristic_eq_ok.mp hx
    have hn : x.node ∈ σ.nodes .characteristic := List.mem_map_of_mem (List.mem_of_getElem? hget)
    rw [finiObject, characteristicFini_eq hx, (h.nodes .characteristic x.node hn).origin] at hfini
    cases hfini
    exact ⟨hfin, by simp, rfl⟩
  | descriptor k =>
    obtain ⟨x, hx, -⟩ := bind_eq_ok.mp hfini
    obtain ⟨hfin, -⟩ := State.descriptor_eq_ok.mp hx
    rw [finiObject, descriptorFini_eq hx] at hfini
    cases hfini
    exact ⟨hfin, by simp, rfl⟩

/-- `fini` of an object frees its slots and its value, and leaves every table as it is. -/
theorem finiObject_spec (h : PointersInv σ) {o : Obj} (hfini : finiObject o σ = .ok σ') :
    o ∉ σ.finalised ∧ (∀ d, o ≠ .advertisement d) ∧ ∃ openControllers, σ' = { σ with
      strings := σ.strings.freeAll σ.slot o.slots
      buffers := σ.buffers.free (σ.valueSlot o)
      openControllers
      finalised := o :: σ.finalised } := by
  by_cases ho : ∃ d, o = .device d
  · obtain ⟨d, rfl⟩ := ho
    obtain ⟨x, hx, rfl⟩ := h.finiObject_device hfini
    exact ⟨(State.device_eq_ok.mp hx).1, by simp, _, rfl⟩
  · obtain ⟨hfin, hadvert, rfl⟩ := h.finiObject_other (fun d hd => ho ⟨d, hd⟩) hfini
    exact ⟨hfin, hadvert, σ.openControllers, rfl⟩

/-- The tables of objects have not changed, so the fields hold what they held. -/
theorem finiObject_slot (h : PointersInv σ) {o : Obj} (hfini : finiObject o σ = .ok σ') :
    σ'.slot = σ.slot := by
  obtain ⟨-, -, oc, rfl⟩ := h.finiObject_spec hfini
  exact State.slot_congr rfl (State.nodes_congr rfl rfl rfl)

theorem finalised (h : PointersInv σ) {o : Obj} (hfini : finiObject o σ = .ok σ') :
    PointersInv σ' := by
  have hslot := h.finiObject_slot hfini
  obtain ⟨hfin, -, oc, rfl⟩ := h.finiObject_spec hfini
  refine ⟨?_, h.devices, fun k n hn => h.nodes k n ?_, h.deviceCount⟩
  swap
  · rwa [State.nodes_congr rfl rfl rfl] at hn
  · rw [hslot]
    -- the slots of the object dangle from now on
    refine (h.owns.freeAll o.slots).mono fun s hs => ?_
    rcases hs with (hs | ⟨k, c, rfl, hnull⟩) | hs
    · exact Or.inl (List.mem_cons_of_mem o hs)
    · exact Or.inr ⟨k, c, rfl, by rw [hslot]; exact hnull⟩
    · exact Or.inl (by rw [Obj.owner_of_mem_slots hs]; exact List.mem_cons_self)

/-! ## Every change -/

/-- A change of one device that its slots do not see. -/
theorem shapes_modify (l : List Device) (d : ℕ) {g : Device → Device}
    (hg : ∀ x, (g x).shape = x.shape) :
    (l.modify d g).map Device.shape = l.map Device.shape :=
  State.map_modify_same l d g Device.shape hg

theorem change {op : Op} (hchange : Change op σ σ') (h : PointersInv σ) : PointersInv σ' := by
  cases hchange with
  | createDevice => exact h.createDevice _
  | createService => exact h.createChild (luaiCreateService_creates _ σ)
  | createCharacteristic => exact h.createChild (luaiCreateCharacteristic_creates _ σ)
  | createDescriptor => exact h.createChild (luaiCreateDescriptor_creates _ σ)
  | refused hpasses _ => exact h.refuse hpasses _
  | added hpasses _ => exact h.attach hpasses
  | controller hinit => exact h.controller hinit
  | registered _ _ => exact h.same rfl rfl rfl rfl (State.nodes_congr rfl rfl rfl) rfl
  | requested => exact h.same rfl rfl rfl rfl (State.nodes_congr rfl rfl rfl) rfl
  | asked => exact h.same rfl rfl rfl rfl (State.nodes_congr rfl rfl rfl) rfl
  | advertised hinit => exact h.advertised hinit
  | @listed _ d _ _ _ =>
    rw [State.listDevice_eq]
    exact h.same rfl rfl rfl (shapes_modify _ d fun _ => rfl) (State.nodes_congr rfl rfl rfl) rfl
  | valued _ hframe =>
    have hnodes := hframe.nodes
    obtain ⟨⟨b, cs, sent, rfl⟩, -⟩ := hframe
    exact h.same rfl rfl rfl rfl hnodes rfl
  | @answered d success _ _ hreply =>
    obtain rfl := onRegisterApplicationReply_spec hreply
    exact h.same rfl rfl rfl (shapes_modify _ d fun _ => rfl) (State.nodes_congr rfl rfl rfl) rfl
  | @advertAnswered d success _ _ hreply =>
    obtain ⟨x, -, rfl⟩ := onRegisterAdvertReply_spec hreply
    exact h.same rfl rfl rfl (shapes_modify _ d fun x => by
      unfold Device.shape; congr 1) (State.nodes_congr rfl rfl rfl) rfl
  | reused => exact h.same rfl rfl rfl rfl (State.nodes_congr rfl rfl rfl) rfl
  | finalised hfini => exact h.finalised hfini

/-- The invariant holds in every reachable state. -/
theorem of_reachable (h : Reachable σ) : PointersInv σ :=
  h.changeInduction PointersInv (fun _ => of_isInitial) fun _ _ _ _ => change

end PointersInv

/-! ## What the tree sees of a change -/

/-- Nothing the tree is made of has changed. -/
structure TreeFrame (σ σ' : State) : Prop where
  nodes : ∀ kind, σ'.nodes kind = σ.nodes kind
  lists : ∀ kind, σ'.lists kind = σ.lists kind

/-- The changes of the tree: an object is created, a child is refused or added. -/
inductive TreeChange : Op → State → State → Prop
  | createDevice {deviceName : CStr} {σ : State} :
      TreeChange (.createDevice deviceName) σ (luaiCreateDevice deviceName σ).2
  | createChild {op : Op} {kind : Kind} {uuid : CStr} {σ σ' : State} :
      CreatesChild σ σ' kind uuid → TreeChange op σ σ'
  | refused {kind : Kind} {accepts : Accepts} {p c : ℕ} {σ : State} {path : Ptr CStr}
      {children : Children} {node : Node} :
      Passes σ kind p c path children node →
      accepts σ.bus.paths (σ.childPath kind path children) = false →
      TreeChange (.add kind accepts p c) σ (σ.refuse kind c node (σ.childPath kind path children))
  | added {kind : Kind} {accepts : Accepts} {p c : ℕ} {σ : State} {path : Ptr CStr}
      {children : Children} {node : Node} :
      Passes σ kind p c path children node →
      accepts σ.bus.paths (σ.childPath kind path children) = true →
      TreeChange (.add kind accepts p c) σ (σ.attach kind p c node path children)
  | frame {op : Op} {σ σ' : State} : TreeFrame σ σ' → TreeChange op σ σ'

/-- No object has gone or moved, and the new ones have neither paths nor children. -/
structure TreeGrows (σ σ' : State) : Prop where
  lists : ∀ kind, ∃ ls, σ'.lists kind = σ.lists kind ++ ls ∧ ∀ x ∈ ls, x = ⟨none, 0⟩
  nodes : ∀ kind, ∃ ns, σ'.nodes kind = σ.nodes kind ++ ns ∧
    ∀ n ∈ ns, n.parentPath = .null ∧ n.objectPath = .null ∧ n.next = none

theorem TreeFrame.grows {σ σ' : State} (h : TreeFrame σ σ') : TreeGrows σ σ' where
  lists kind := ⟨[], by rw [h.lists kind, List.append_nil], by simp⟩
  nodes kind := ⟨[], by rw [h.nodes kind, List.append_nil], by simp⟩

theorem luaiCreateDevice_grows (deviceName : CStr) (σ : State) :
    TreeGrows σ (luaiCreateDevice deviceName σ).2 := by
  refine ⟨fun kind => ?_, fun kind => ⟨[], ?_, by simp⟩⟩
  · cases kind with
    | service => exact ⟨[⟨none, 0⟩], by simp [State.lists, luaiCreateDevice, deviceInit], by simp⟩
    | characteristic => exact ⟨[], by simp [State.lists, luaiCreateDevice], by simp⟩
    | descriptor => exact ⟨[], by simp [State.lists, luaiCreateDevice], by simp⟩
  · rw [List.append_nil]
    exact State.nodes_congr rfl rfl rfl kind

theorem CreatesChild.grows {σ σ' : State} {kind : Kind} {uuid : CStr}
    (h : CreatesChild σ σ' kind uuid) : TreeGrows σ σ' := by
  refine ⟨h.lists, fun k => ?_⟩
  rw [h.nodes k]
  split_ifs with hk
  · subst hk
    refine ⟨_, rfl, fun n hn => ?_⟩
    rw [List.mem_singleton.mp hn]
    exact ⟨rfl, rfl, rfl⟩
  · exact ⟨[], (List.append_nil _).symm, by simp⟩

theorem TreeFrame.of_devices {σ σ' : State} (hservices : σ'.services = σ.services)
    (hcharacteristics : σ'.characteristics = σ.characteristics)
    (hdescriptors : σ'.descriptors = σ.descriptors)
    (hdevices : σ'.devices = σ.devices ∨ ∃ d g, σ'.devices = σ.devices.modify d g ∧
      ∀ x : Device, (g x).services = x.services) : TreeFrame σ σ' := by
  refine ⟨State.nodes_congr hservices hcharacteristics hdescriptors,
    State.lists_congr ?_ hservices hcharacteristics⟩
  rcases hdevices with hdevices | ⟨d, g, hdevices, hg⟩
  · rw [hdevices]
  · rw [hdevices]
    exact State.map_modify_same _ _ _ _ hg

/-- What a change does to the tree. -/
theorem Change.treeChange {op : Op} {σ σ' : State} (hchange : Change op σ σ')
    (h : PointersInv σ) : TreeChange op σ σ' := by
  cases hchange with
  | createDevice => exact .createDevice
  | createService => exact .createChild (luaiCreateService_creates _ σ)
  | createCharacteristic => exact .createChild (luaiCreateCharacteristic_creates _ σ)
  | createDescriptor => exact .createChild (luaiCreateDescriptor_creates _ σ)
  | refused hpasses haccept => exact .refused hpasses haccept
  | added hpasses haccept => exact .added hpasses haccept
  | controller hinit =>
    obtain ⟨x, vc, oc, co, cc, -, rfl, -⟩ := deviceInitController_spec hinit
    exact .frame (.of_devices rfl rfl rfl (Or.inr ⟨_, _, rfl, fun _ => rfl⟩))
  | registered _ _ => exact .frame (.of_devices rfl rfl rfl (Or.inl rfl))
  | requested => exact .frame (.of_devices rfl rfl rfl (Or.inl rfl))
  | asked => exact .frame (.of_devices rfl rfl rfl (Or.inl rfl))
  | advertised hinit =>
    obtain ⟨x, strings, a, i, j, k, -, rfl, -⟩ := deviceInitAdvertisement_spec hinit
    exact .frame (.of_devices rfl rfl rfl (Or.inr ⟨_, _, rfl, fun _ => rfl⟩))
  | listed _ _ =>
    rw [State.listDevice_eq]
    exact .frame (.of_devices rfl rfl rfl (Or.inr ⟨_, _, rfl, fun _ => rfl⟩))
  | valued _ hframe => exact .frame ⟨hframe.nodes, hframe.lists⟩
  | answered hreply =>
    obtain rfl := onRegisterApplicationReply_spec hreply
    exact .frame (.of_devices rfl rfl rfl (Or.inr ⟨_, _, rfl, fun _ => rfl⟩))
  | advertAnswered hreply =>
    obtain ⟨x, -, rfl⟩ := onRegisterAdvertReply_spec hreply
    exact .frame (.of_devices rfl rfl rfl (Or.inr ⟨_, _, rfl, fun _ => rfl⟩))
  | reused => exact .frame (.of_devices rfl rfl rfl (Or.inl rfl))
  | finalised hfini =>
    obtain ⟨-, -, oc, rfl⟩ := h.finiObject_spec hfini
    exact .frame (.of_devices rfl rfl rfl (Or.inl rfl))

/-- Every change that adds no child lets the tree grow. -/
theorem Change.treeGrows {op : Op} {σ σ' : State} (hchange : Change op σ σ') (h : PointersInv σ)
    (hne : ∀ kind accepts p c, op ≠ .add kind accepts p c) : TreeGrows σ σ' := by
  cases hchange.treeChange h with
  | createDevice => exact luaiCreateDevice_grows _ σ
  | createChild hcreates => exact hcreates.grows
  | refused _ _ => exact absurd rfl (hne _ _ _ _)
  | added _ _ => exact absurd rfl (hne _ _ _ _)
  | frame hframe => exact hframe.grows

end BleSim
