import BleSim.Values
import Mathlib.Logic.Relation

/-!
# What a step can do

`Change op σ σ'` lists, once, the ways in which the state can change while `op` is executed;
every step of the system is a sequence of such changes (`exec_changes`). Invariants are then
proved by cases on `Change` and never look into the program again.
-/

namespace BleSim

open Outcomes WriteOnce Intrusive

/-! ## Entries of the connection -/

/-- An entry that comes last is one of the entries. -/
theorem mem_registered_concat (l : List (CStr × Obj)) (path : CStr) (o : Obj) :
    o ∈ (l ++ [(path, o)]).map Prod.snd := by
  rw [List.map_append]
  exact List.mem_append_right _ List.mem_cons_self

/-- What has been registered stays registered when entries are added. -/
theorem mem_registered_append {l : List (CStr × Obj)} {o : Obj} (h : o ∈ l.map Prod.snd)
    (new : List (CStr × Obj)) : o ∈ (l ++ new).map Prod.snd := by
  rw [List.map_append]
  exact List.mem_append_left _ h

/-! ## Adding a child -/

/-- The path `dbusutils_create_object_path` makes for the next child of a parent. -/
def State.childPath (σ : State) (kind : Kind) (parentPath : Ptr CStr) (children : Children) :
    CStr :=
  objectPathString (σ.strings.read parentPath) kind.objectName children.count

/-- The state in which D-Bus has refused the path of a child. -/
def State.refuse (σ : State) (kind : Kind) (c : ℕ) (node : Node) (path : CStr) : State :=
  let (objectPath, strings) := σ.strings.alloc path
  State.setNode { σ with strings := strings.free objectPath } kind c { node with objectPath }

/-- The state in which a child has been added. -/
def State.attach (σ : State) (kind : Kind) (p c : ℕ) (node : Node) (parentPath : Ptr CStr)
    (children : Children) : State :=
  let path := σ.childPath kind parentPath children
  let (objectPath, strings) := σ.strings.alloc path
  let (parentPath, strings) := strings.alloc (strings.read parentPath)
  let bus := { σ.bus with registered := σ.bus.registered ++ [(path, kind.object c)] }
  let σ := State.setNode { σ with strings, bus } kind c
    { node with objectPath, parentPath, next := children.head }
  σ.setChildren kind p { head := some c, count := children.count + 1 }

theorem State.nodes_refuse (σ : State) (kind kind' : Kind) (c : ℕ) (node : Node) (path : CStr) :
    (σ.refuse kind c node path).nodes kind' =
      if kind' = kind then
        (σ.nodes kind).modify c fun _ => { node with objectPath := (σ.strings.alloc path).1 }
      else σ.nodes kind' := by
  unfold State.refuse
  rw [State.nodes_setNode]
  cases kind <;> cases kind' <;> rfl

theorem State.lists_refuse (σ : State) (kind kind' : Kind) (c : ℕ) (node : Node) (path : CStr) :
    (σ.refuse kind c node path).lists kind' = σ.lists kind' := by
  unfold State.refuse
  rw [State.lists_setNode]
  cases kind' <;> rfl

/-- The list node of a child that has been added. -/
def State.attachedNode (σ : State) (kind : Kind) (node : Node) (parentPath : Ptr CStr)
    (children : Children) : Node :=
  let path := σ.childPath kind parentPath children
  let (objectPath, strings) := σ.strings.alloc path
  let (parentPath, _) := strings.alloc (strings.read parentPath)
  { node with objectPath, parentPath, next := children.head }

theorem State.nodes_attach (σ : State) (kind kind' : Kind) (p c : ℕ) (node : Node)
    (path : Ptr CStr) (children : Children) :
    (σ.attach kind p c node path children).nodes kind' =
      if kind' = kind then
        (σ.nodes kind).modify c fun _ => σ.attachedNode kind node path children
      else σ.nodes kind' := by
  unfold State.attach
  rw [State.nodes_setChildren, State.nodes_setNode]
  cases kind <;> cases kind' <;> rfl

theorem State.lists_attach (σ : State) (kind kind' : Kind) (p c : ℕ) (node : Node)
    (path : Ptr CStr) (children : Children) :
    (σ.attach kind p c node path children).lists kind' =
      if kind' = kind then
        (σ.lists kind).modify p fun _ => { head := some c, count := children.count + 1 }
      else σ.lists kind' := by
  unfold State.attach
  rw [State.lists_setChildren, State.lists_setNode]
  cases kind <;> cases kind' <;> simp [State.lists, State.setNode, State.map_modify_same]

/-- A child that is added is registered under its path, and no device comes or goes. -/
theorem State.registered_attach (σ : State) (kind : Kind) (p c : ℕ) (node : Node)
    (path : Ptr CStr) (children : Children) :
    (σ.attach kind p c node path children).bus.registered =
      σ.bus.registered ++ [(σ.childPath kind path children, kind.object c)] := by
  simp [State.attach]

theorem State.registeredObjects_attach (σ : State) (kind : Kind) (p c : ℕ) (node : Node)
    (path : Ptr CStr) (children : Children) :
    (σ.attach kind p c node path children).registeredObjects =
      σ.registeredObjects ++ [kind.object c] := by
  simp [State.registeredObjects, State.registered_attach]

theorem State.length_devices_attach (σ : State) (kind : Kind) (p c : ℕ) (node : Node)
    (path : Ptr CStr) (children : Children) :
    (σ.attach kind p c node path children).devices.length = σ.devices.length := by
  unfold State.attach
  cases kind <;> simp [State.setChildren, State.setNode]

/-- All checks an add function makes before it turns to D-Bus pass. -/
structure Passes (σ : State) (kind : Kind) (p c : ℕ) (path : Ptr CStr) (children : Children)
    (node : Node) : Prop where
  parent : σ.parent kind p = .ok (path, children)
  child : σ.node kind c = .ok node
  published : ¬ Unpublished kind path
  unowned : node.parentPath = .null
  new : getChild kind children (σ.strings.read node.uuid) σ = .ok none

/-- The list nodes after a child has been added. -/
theorem Passes.getElem?_nodes {σ : State} {kind : Kind} {p c : ℕ} {path : Ptr CStr}
    {children : Children} {node : Node} (h : Passes σ kind p c path children node) (kind' : Kind)
    (e : ℕ) : ((σ.attach kind p c node path children).nodes kind')[e]? =
      if kind' = kind ∧ e = c then some (σ.attachedNode kind node path children)
      else (σ.nodes kind')[e]? := by
  rw [State.nodes_attach]
  by_cases hk : kind' = kind
  · subst hk
    by_cases hec : e = c
    · subst hec
      simp [List.getElem?_modify_eq, (State.node_eq_ok.mp h.child).2]
    · simp [List.getElem?_modify_ne _ _ (Ne.symm hec), hec]
  · simp [hk]

/-- One of the checks of an add function fails: the parent has no path, the child has an owner,
or a sibling has the child's UUID. -/
def Rejects (σ : State) (kind : Kind) (p c : ℕ) : Prop :=
  ∃ path children node, σ.parent kind p = .ok (path, children) ∧ σ.node kind c = .ok node ∧
    (Unpublished kind path ∨ node.parentPath ≠ .null ∨
      ∃ s, getFrom kind p (σ.strings.read node.uuid) σ = .ok (some s))

/-- The ways an add function can return. -/
inductive AddCase (kind : Kind) (accepts : Accepts) (p c : ℕ) (σ : State) : Bool → State → Prop
  | rejected : Rejects σ kind p c → AddCase kind accepts p c σ false σ
  | refused {path : Ptr CStr} {children : Children} {node : Node} :
      Passes σ kind p c path children node →
      accepts σ.bus.paths (σ.childPath kind path children) = false →
      AddCase kind accepts p c σ false (σ.refuse kind c node (σ.childPath kind path children))
  | added {path : Ptr CStr} {children : Children} {node : Node} :
      Passes σ kind p c path children node →
      accepts σ.bus.paths (σ.childPath kind path children) = true →
      AddCase kind accepts p c σ true (σ.attach kind p c node path children)

theorem Passes.not_rejects {σ : State} {kind : Kind} {p c : ℕ} {path : Ptr CStr}
    {children : Children} {node : Node} (h : Passes σ kind p c path children node) :
    ¬ Rejects σ kind p c := by
  rintro ⟨path', children', node', hparent, hchild, hreject⟩
  obtain ⟨rfl, rfl⟩ : path = path' ∧ children = children' := by
    simpa using h.parent.symm.trans hparent
  obtain rfl : node = node' := by simpa using h.child.symm.trans hchild
  rcases hreject with hpath | howned | ⟨s, hfound⟩
  · exact h.published hpath
  · exact howned h.unowned
  · simp only [getFrom_eq, h.parent, ok_bind, h.new] at hfound
    cases hfound

/-- What `addChild` does once the guards of its callers have passed. -/
theorem addChild_eq {σ : State} {kind : Kind} {p c : ℕ} {path : Ptr CStr} {children : Children}
    {node : Node} (h : Passes σ kind p c path children node) (accepts : Accepts) :
    addChild kind accepts p path children c node σ =
      if accepts σ.bus.paths (σ.childPath kind path children) then
        .ok (true, σ.attach kind p c node path children)
      else .ok (false, σ.refuse kind c node (σ.childPath kind path children)) := by
  have hnew := h.new
  cases haccept : accepts σ.bus.paths (σ.childPath kind path children) with
  | true =>
    unfold State.childPath at haccept
    simp [addChild, h.unowned, hnew, dbusutilsRegisterObject, haccept, State.attach,
      State.childPath, dbusutilsCreateObjectPath]
  | false =>
    unfold State.childPath at haccept
    simp [addChild, h.unowned, hnew, dbusutilsRegisterObject, haccept, State.refuse,
      State.childPath, dbusutilsCreateObjectPath]

/-- An add function that returns has taken one of its cases. -/
theorem addTo_cases {kind : Kind} {accepts : Accepts} {p c : ℕ} {σ σ' : State} {b : Bool}
    (h : addTo kind accepts p c σ = .ok (b, σ')) : AddCase kind accepts p c σ b σ' := by
  rw [addTo_eq] at h
  obtain ⟨⟨path, children⟩, hparent, h⟩ := bind_eq_ok.mp h
  obtain ⟨node, hchild, h⟩ := bind_eq_ok.mp h
  -- the checks are made in the order of the source
  by_cases hpath : Unpublished kind path
  · simp only [hpath, ↓reduceIte, Except.ok.injEq, Prod.mk.injEq] at h
    obtain ⟨rfl, rfl⟩ := h
    exact .rejected ⟨path, children, node, hparent, hchild, Or.inl hpath⟩
  simp only [hpath, ↓reduceIte] at h
  by_cases howned : node.parentPath = .null
  swap
  · simp only [addChild, ne_eq, howned, not_false_eq_true, ↓reduceIte, Except.ok.injEq,
      Prod.mk.injEq] at h
    obtain ⟨rfl, rfl⟩ := h
    exact .rejected ⟨path, children, node, hparent, hchild, Or.inr (Or.inl howned)⟩
  cases hfound : getChild kind children (σ.strings.read node.uuid) σ with
  | error e => simp [addChild, howned, hfound] at h
  | ok found =>
    cases found with
    | some s =>
      simp only [addChild, howned, ne_eq, not_true_eq_false, ↓reduceIte, hfound, ok_bind,
        Option.isSome_some, Except.ok.injEq, Prod.mk.injEq] at h
      obtain ⟨rfl, rfl⟩ := h
      refine .rejected ⟨path, children, node, hparent, hchild, Or.inr (Or.inr ⟨s, ?_⟩)⟩
      simp only [getFrom_eq, hparent, ok_bind, hfound]
    | none =>
      have hpasses : Passes σ kind p c path children node :=
        ⟨hparent, hchild, hpath, howned, hfound⟩
      rw [addChild_eq hpasses] at h
      split at h
      · rename_i haccept
        cases h
        exact .added hpasses haccept
      · rename_i haccept
        cases h
        exact .refused hpasses (by simpa using haccept)

/-- An add function whose checks pass does what D-Bus decides. -/
theorem addTo_of_passes {σ : State} {kind : Kind} {p c : ℕ} {path : Ptr CStr}
    {children : Children} {node : Node} (h : Passes σ kind p c path children node)
    (accepts : Accepts) :
    addTo kind accepts p c σ =
      if accepts σ.bus.paths (σ.childPath kind path children) then
        .ok (true, σ.attach kind p c node path children)
      else .ok (false, σ.refuse kind c node (σ.childPath kind path children)) := by
  simp only [addTo_eq, h.parent, ok_bind, h.child, h.published, ↓reduceIte, addChild_eq h]

/-! ## Creating an object -/

/-- The devices after one has been created. -/
theorem getElem?_createDevice (σ : State) (deviceName : CStr) (d : ℕ) :
    (luaiCreateDevice deviceName σ).2.devices[d]? = if d = σ.devices.length then
      some (deviceInit σ.strings σ.deviceCount deviceName .lua).1 else σ.devices[d]? :=
  State.getElem?_concat σ.devices _ d

/-- A new child has a UUID, no parent and no children. -/
structure CreatesChild (σ σ' : State) (kind : Kind) (uuid : CStr) : Prop where
  strings : σ'.strings = (σ.strings.alloc uuid).2
  devices : σ'.devices = σ.devices
  deviceCount : σ'.deviceCount = σ.deviceCount
  deviceListHead : σ'.deviceListHead = σ.deviceListHead
  bus : σ'.bus = σ.bus
  finalised : σ'.finalised = σ.finalised
  nodes : ∀ k, σ'.nodes k = if k = kind then
    σ.nodes kind ++ [⟨(σ.strings.alloc uuid).1, .null, .null, .lua, none⟩] else σ.nodes k
  lists : ∀ k, ∃ ls, σ'.lists k = σ.lists k ++ ls ∧ ∀ x ∈ ls, x = ⟨none, 0⟩

theorem luaiCreateService_creates (uuid : CStr) (σ : State) :
    CreatesChild σ (luaiCreateService uuid σ).2 .service uuid := by
  refine ⟨rfl, rfl, rfl, rfl, rfl, rfl, fun k => ?_, fun k => ?_⟩
  · cases k <;> simp [State.nodes, luaiCreateService, serviceInit]
  · cases k with
    | service => exact ⟨[], by simp [State.lists, luaiCreateService]⟩
    | characteristic => exact ⟨[⟨none, 0⟩], by simp [State.lists, luaiCreateService, serviceInit]⟩
    | descriptor => exact ⟨[], by simp [State.lists, luaiCreateService]⟩

theorem luaiCreateCharacteristic_creates (uuid : CStr) (σ : State) :
    CreatesChild σ (luaiCreateCharacteristic uuid σ).2 .characteristic uuid := by
  refine ⟨rfl, rfl, rfl, rfl, rfl, rfl, fun k => ?_, fun k => ?_⟩
  · cases k <;> simp [State.nodes, luaiCreateCharacteristic, characteristicInit]
  · cases k with
    | service => exact ⟨[], by simp [State.lists, luaiCreateCharacteristic]⟩
    | characteristic => exact ⟨[], by simp [State.lists, luaiCreateCharacteristic]⟩
    | descriptor =>
      exact ⟨[⟨none, 0⟩],
        by simp [State.lists, luaiCreateCharacteristic, characteristicInit]⟩

theorem luaiCreateDescriptor_creates (uuid : CStr) (σ : State) :
    CreatesChild σ (luaiCreateDescriptor uuid σ).2 .descriptor uuid := by
  refine ⟨rfl, rfl, rfl, rfl, rfl, rfl, fun k => ?_, fun k => ⟨[], ?_⟩⟩
  · cases k <;> simp [State.nodes, luaiCreateDescriptor, descriptorInit]
  · cases k <;> simp [State.lists, luaiCreateDescriptor]

/-! ## All changes -/

/-- The object and the path of one of the two registrations of a device. -/
inductive Publishes (σ : State) (d : ℕ) : Obj → CStr → Prop
  | device {x : Device} : σ.device d = .ok x →
      Publishes σ d (.device d) (σ.strings.read x.objectPath)
  | advertisement {x : Device} {id : ℕ} {path : CStr} : σ.device d = .ok x →
      x.advertisement.objectPath = .block id path →
      Publishes σ d (.advertisement d) (σ.strings.read x.advertisement.objectPath)

/-- A device at the end of a successful registration: linked and marked as initialised. -/
def State.listDevice (σ : State) (d : ℕ) : State :=
  let σ := addDeviceToDeviceList d σ
  { σ with devices := σ.devices.modify d fun x => { x with initialised := true } }

theorem State.listDevice_eq (σ : State) (d : ℕ) : σ.listDevice d = { σ with
    deviceListHead := some d
    devices := σ.devices.modify d fun x =>
      { x with next := σ.deviceListHead.or x.next, initialised := true } } := by
  unfold State.listDevice addDeviceToDeviceList
  cases σ.deviceListHead with
  | none => rfl
  | some head =>
    simp only [List.modify_modify_eq, Option.some_or]
    rfl

/-- The steps that can touch the value of a characteristic. -/
def Op.OnValues : Op → Prop
  | .setNotifying .. | .setValue .. | .deliver .. => True
  | _ => False

/-- The steps that set a property of an adapter. -/
def Op.OnAdapter : Op → Prop
  | .setPowered .. | .setDiscoverable .. => True
  | _ => False

/-- The changes of state that occur while an operation is executed. -/
inductive Change : Op → State → State → Prop
  | createDevice {deviceName : CStr} {σ : State} :
      Change (.createDevice deviceName) σ (luaiCreateDevice deviceName σ).2
  | createService {uuid : CStr} {σ : State} :
      Change (.createService uuid) σ (luaiCreateService uuid σ).2
  | createCharacteristic {uuid : CStr} {σ : State} :
      Change (.createCharacteristic uuid) σ (luaiCreateCharacteristic uuid σ).2
  | createDescriptor {uuid : CStr} {σ : State} :
      Change (.createDescriptor uuid) σ (luaiCreateDescriptor uuid σ).2
  | refused {kind : Kind} {accepts : Accepts} {p c : ℕ} {σ : State} {path : Ptr CStr}
      {children : Children} {node : Node} :
      Passes σ kind p c path children node →
      accepts σ.bus.paths (σ.childPath kind path children) = false →
      Change (.add kind accepts p c) σ (σ.refuse kind c node (σ.childPath kind path children))
  | added {kind : Kind} {accepts : Accepts} {p c : ℕ} {σ : State} {path : Ptr CStr}
      {children : Children} {node : Node} :
      Passes σ kind p c path children node →
      accepts σ.bus.paths (σ.childPath kind path children) = true →
      Change (.add kind accepts p c) σ (σ.attach kind p c node path children)
  | controller {env : RegisterEnv} {d : ℕ} {b : Bool} {σ σ' : State} :
      deviceInitController d env.vhciOpen σ = .ok (b, σ') →
      Change (.registerDevice env d) σ σ'
  | registered {env : RegisterEnv} {d : ℕ} {o : Obj} {path : CStr} {σ : State} :
      Publishes σ d o path → env.accepts σ.bus.paths path = true →
      Change (.registerDevice env d) σ
        { σ with bus := { σ.bus with registered := σ.bus.registered ++ [(path, o)] } }
  | requested {env : RegisterEnv} {d : ℕ} {o : Obj} {message : Message} {σ : State} :
      o ∈ σ.registeredObjects → message.type = .methodCall →
      Change (.registerDevice env d) σ
        { σ with bus := dbusConnectionSendWithReply σ.bus message o env.bluez.pendingCall }
  | advertised {env : RegisterEnv} {d : ℕ} {σ σ' : State} :
      deviceInitAdvertisement d σ = .ok σ' → Change (.registerDevice env d) σ σ'
  | listed {env : RegisterEnv} {d : ℕ} {σ : State} :
      .device d ∈ σ.registeredObjects → .advertisement d ∈ σ.registeredObjects →
      Change (.registerDevice env d) σ (σ.listDevice d)
  | asked {op : Op} {message : Message} {σ : State} : op.OnAdapter → message.type = .methodCall →
      Change op σ { σ with bus := dbusConnectionSend σ.bus message }
  | valued {op : Op} {σ σ' : State} : op.OnValues → ValueFrame σ σ' → Change op σ σ'
  | answered {d : ℕ} {success : Bool} {σ σ' : State} :
      onRegisterApplicationReply d success (σ.answer (.device d)) = .ok σ' →
      Change (.applicationReply d success) σ σ'
  | advertAnswered {d : ℕ} {success : Bool} {σ σ' : State} :
      onRegisterAdvertReply d success (σ.answer (.advertisement d)) = .ok σ' →
      Change (.advertReply d success) σ σ'
  | reused {strings : Ptr CStr → CStr} {buffers : Ptr Bytes → Bytes} {σ : State} :
      Change (.reuseMemory strings buffers) σ
        { σ with
          strings := { σ.strings with stale := strings }
          buffers := { σ.buffers with stale := buffers } }
  | finalised {o : Obj} {σ σ' : State} : finiObject o σ = .ok σ' → Change (.fini o) σ σ'

/-- Several changes. -/
abbrev Changes (op : Op) : State → State → Prop := Relation.ReflTransGen (Change op)

/-- What every change preserves, a sequence of them preserves. -/
theorem Changes.invariant {op : Op} {Inv : State → Prop}
    (hchange : ∀ σ σ', Change op σ σ' → Inv σ → Inv σ') {σ σ' : State} (h : Changes op σ σ')
    (hinv : Inv σ) : Inv σ' := by
  induction h with
  | refl => exact hinv
  | tail _ hlast ih => exact hchange _ _ hlast ih

/-- Setting up the controller of a device replaces the controller's path by a new string. -/
theorem deviceInitController_spec {d : ℕ} {vhciOpen : Option ℕ} {b : Bool} {σ σ' : State}
    (h : deviceInitController d vhciOpen σ = .ok (b, σ')) :
    ∃ x virtualController openControllers controllersOpened controllerCount,
      σ.device d = .ok x ∧
      σ' = { σ with
        strings := (σ.strings.alloc (adapterPath σ.controllerCount)).2
        devices := σ.devices.modify d fun x =>
          { x with
            controller := (σ.strings.alloc (adapterPath σ.controllerCount)).1
            virtualController }
        openControllers, controllersOpened, controllerCount } ∧
      ∃ x', σ'.device d = .ok x' ∧ x'.objectPath = x.objectPath := by
  obtain ⟨x, hx, h⟩ := bind_eq_ok.mp h
  cases vhciOpen with
  | none =>
    simp only [Except.ok.injEq, Prod.mk.injEq] at h
    obtain ⟨-, rfl⟩ := h
    exact ⟨x, none, _, _, _, hx, rfl, _, State.device_modify _ hx rfl rfl, rfl⟩
  | some index =>
    simp only [Except.ok.injEq, Prod.mk.injEq] at h
    obtain ⟨-, rfl⟩ := h
    exact ⟨x, some σ.controllersOpened, _, _, _, hx, rfl, _, State.device_modify _ hx rfl rfl, rfl⟩

/-- Setting up an advertisement allocates its three strings and nothing that stays besides. -/
theorem deviceInitAdvertisement_spec {d : ℕ} {σ σ' : State}
    (h : deviceInitAdvertisement d σ = .ok σ') :
    ∃ x strings advertisement i j k, σ.device d = .ok x ∧
      σ' = { σ with
        strings, devices := σ.devices.modify d fun x => { x with advertisement } } ∧
      σ'.device d = .ok { x with advertisement } ∧
      σ.strings.Extends strings ∧ σ.strings.size ≤ i ∧ i < j ∧ j < k ∧ i ∈ strings.live ∧
      j ∈ strings.live ∧ k ∈ strings.live ∧
      advertisement.objectPath = .block i
        (objectPathString (σ.strings.read x.objectPath) advertisementObjectName 0) ∧
      advertisement.type = .block j advertisementTypeDefault ∧
      advertisement.secondaryChannel = .block k advertisementSecondaryChannelDefault ∧
      advertisement.manufacturerData.length ≤ advertisementDataMaxSize := by
  obtain ⟨x, hx, h⟩ := bind_eq_ok.mp h
  simp only [advertisementInit, dbusutilsCreateObjectPath, Except.ok.injEq] at h
  generalize hpath :
    objectPathString (σ.strings.read x.objectPath) advertisementObjectName 0 = path at h ⊢
  -- the first block is the temporary path, which is released at the end
  set h₁ := (σ.strings.alloc path).2 with hh₁
  have hread : h₁.read (σ.strings.alloc path).1 = path := (Heap.alloc_pointsTo _ _).read
  rw [hread] at h
  set h₂ := (h₁.alloc path).2 with hh₂
  set h₃ := (h₂.alloc advertisementTypeDefault).2 with hh₃
  set h₄ := (h₃.alloc advertisementSecondaryChannelDefault).2 with hh₄
  have hext : σ.strings.Extends h₄ :=
    (((Heap.Extends.alloc _ _).trans (.alloc _ _)).trans (.alloc _ _)).trans (.alloc _ _)
  have hlive : σ.strings.size ∈ h₄.live := by simp [hh₄, hh₃, hh₂, hh₁]
  refine ⟨x, _, _, σ.strings.size + 1, σ.strings.size + 2, σ.strings.size + 3, hx, h.symm,
    by rw [← h]; exact State.device_modify (fun x => { x with advertisement := _ }) hx rfl rfl,
    hext.free_new hlive (Nat.le_refl _) path, by omega, by omega, by omega, ?_, ?_, ?_, ?_, rfl,
    rfl, List.length_take_le _ _⟩
  case refine_4 => rw [hpath]; rfl
  all_goals
    refine Heap.mem_live_free ?_ (by simp [WriteOnce.Ptr.id?])
    simp [hh₄, hh₃, hh₂, hh₁]

/-- Only a success needs the device. -/
theorem onRegisterApplicationReply_device {d : ℕ} {success : Bool} {σ σ' : State}
    (h : onRegisterApplicationReply d success σ = .ok σ') :
    success = true → ∃ x, σ.device d = .ok x := by
  rintro rfl
  obtain ⟨x, hx, -⟩ := bind_eq_ok.mp h
  exact ⟨x, hx⟩

/-- The answer to the request for an application sets a flag of the device if it is a success. -/
theorem onRegisterApplicationReply_spec {d : ℕ} {success : Bool} {σ σ' : State}
    (h : onRegisterApplicationReply d success σ = .ok σ') :
      σ' = { σ with devices := σ.devices.modify d fun x =>
        { x with applicationRegistered := success || x.applicationRegistered } } := by
  unfold onRegisterApplicationReply at h
  cases success with
  | true =>
    obtain ⟨x, -, h⟩ := bind_eq_ok.mp h
    cases h
    rfl
  | false =>
    cases h
    have hmodify : (σ.devices.modify d fun x => { x with
        applicationRegistered := false || x.applicationRegistered }) = σ.devices :=
      List.modify_id d σ.devices
    rw [hmodify]

/-- So does the answer to the request for an advertisement. -/
theorem onRegisterAdvertReply_spec {d : ℕ} {success : Bool} {σ σ' : State}
    (h : onRegisterAdvertReply d success σ = .ok σ') : ∃ x, σ.device d = .ok x ∧
      σ' = { σ with devices := σ.devices.modify d fun x =>
        { x with advertisement.registered := success || x.advertisement.registered } } := by
  unfold onRegisterAdvertReply at h
  obtain ⟨x, hx, h⟩ := bind_eq_ok.mp h
  refine ⟨x, hx, ?_⟩
  cases success with
  | true =>
    cases h
    rfl
  | false =>
    cases h
    have hmodify : (σ.devices.modify d fun x => { x with
        advertisement.registered := false || x.advertisement.registered }) = σ.devices :=
      List.modify_id d σ.devices
    rw [hmodify]

/-- A path registration either adds an entry or changes nothing. -/
theorem dbusutilsRegisterObject_cases (bus : Connection) (path : CStr) (o : Obj)
    (accepts : Accepts) :
    (accepts bus.paths path = true ∧ dbusutilsRegisterObject bus path o accepts =
        (true, { bus with registered := bus.registered ++ [(path, o)] })) ∨
      (accepts bus.paths path = false ∧
        dbusutilsRegisterObject bus path o accepts = (false, bus)) := by
  unfold dbusutilsRegisterObject
  cases accepts bus.paths path <;> simp

/-! ## Registering a device -/

/-- What `device_register` does with the advertisement, once BlueZ has been sent the first
request. -/
def registerAdvert (env : RegisterEnv) (d : ℕ) (σ : State) : Outcome (Bool × State) := do
  let σ ← deviceInitAdvertisement d σ
  let x ← σ.device d
  let (success, bus) := dbusutilsRegisterObject σ.bus
    (σ.strings.read x.advertisement.objectPath) (.advertisement d) env.accepts
  let σ := { σ with bus }
  if !success then .ok (false, σ)
  else
    let (success, bus) ← advertisementRegisterWithBluez σ.strings x.advertisement d
      x.controller env.bluez σ.bus
    let σ := { σ with bus }
    if !success then .ok (false, σ)
    else .ok (true, σ.listDevice d)

/-- What `device_register` does once the controller has been opened. -/
def registerPaths (env : RegisterEnv) (d : ℕ) (objectPath : CStr) (σ : State) :
    Outcome (Bool × State) := do
  let (success, bus) := dbusutilsRegisterObject σ.bus objectPath (.device d) env.accepts
  let σ := { σ with bus }
  if !success then .ok (false, σ)
  else
    let (success, σ) ← deviceRegisterWithBluez d env.bluez σ
    if !success then .ok (false, σ) else registerAdvert env d σ

/-- The request to BlueZ carries an object that has been registered, or it is not sent. -/
theorem deviceRegisterWithBluez_changes {env : RegisterEnv} {d : ℕ} {b : Bool} {σ σ' : State}
    (hregistered : .device d ∈ σ.registeredObjects)
    (h : deviceRegisterWithBluez d env.bluez σ = .ok (b, σ')) :
    Changes (.registerDevice env d) σ σ' ∧ .device d ∈ σ'.registeredObjects := by
  simp only [deviceRegisterWithBluez, bind_eq_ok, ite_eq_ok] at h
  obtain ⟨x, -, ⟨-, h⟩ | ⟨-, request, hrequest, h⟩⟩ := h
  · cases h
    exact ⟨.refl, hregistered⟩
  cases request with
  | none =>
    cases h
    exact ⟨.refl, hregistered⟩
  | some message =>
    cases h
    obtain ⟨controllerPath, objectPath, rfl⟩ := bluezRegisterRequest_some hrequest
    exact ⟨.single (.requested hregistered rfl), hregistered⟩

/-- The part of a registration that is about the advertisement. -/
theorem registerAdvert_changes {env : RegisterEnv} {d : ℕ} {b : Bool} {σ σ' : State}
    (hregistered : .device d ∈ σ.registeredObjects) (h : registerAdvert env d σ = .ok (b, σ')) :
    Changes (.registerDevice env d) σ σ' := by
  obtain ⟨σ₁, hadvert, h⟩ := bind_eq_ok.mp h
  have h₁ : Changes (.registerDevice env d) σ σ₁ := .single (.advertised hadvert)
  have hdevice : .device d ∈ σ₁.registeredObjects := by
    obtain ⟨y, strings, advertisement, i, j, k, -, rfl, -⟩ := deviceInitAdvertisement_spec hadvert
    exact hregistered
  obtain ⟨x, hx, h⟩ := bind_eq_ok.mp h
  obtain ⟨id, path, hblock⟩ : ∃ id path, x.advertisement.objectPath = .block id path := by
    obtain ⟨y, strings, advertisement, i, j, k, -, -, hdev, -, -, -, -, -, -, -, hblock, -⟩ :=
      deviceInitAdvertisement_spec hadvert
    rw [hdev] at hx
    cases hx
    exact ⟨_, _, hblock⟩
  rcases dbusutilsRegisterObject_cases σ₁.bus (σ₁.strings.read x.advertisement.objectPath)
    (.advertisement d) env.accepts with ⟨haccept, hbus⟩ | ⟨-, hbus⟩
  swap
  · simp only [hbus] at h
    cases h
    exact h₁
  simp only [hbus] at h
  have h₂ := h₁.tail (.registered (.advertisement hx hblock) haccept)
  have hmem := mem_registered_concat σ₁.bus.registered
    (σ₁.strings.read x.advertisement.objectPath) (.advertisement d)
  have hdevice' := mem_registered_append hdevice
    [(σ₁.strings.read x.advertisement.objectPath, Obj.advertisement d)]
  obtain ⟨⟨success, bus⟩, hbluez, h⟩ := bind_eq_ok.mp h
  obtain ⟨request, hrequest, hbluez⟩ := bind_eq_ok.mp hbluez
  cases request with
  | none =>
    cases hbluez
    cases h
    exact h₂
  | some message =>
    -- both objects are registered when the device enters the list
    cases hbluez
    cases h
    obtain ⟨controllerPath, objectPath, rfl⟩ := bluezRegisterRequest_some hrequest
    exact (h₂.tail (.requested hmem rfl)).tail (.listed hdevice' hmem)

/-- What follows the opening of the controller, for the path of the device. -/
theorem registerPaths_changes {env : RegisterEnv} {d : ℕ} {path : CStr} {b : Bool} {σ σ' : State}
    (hpublishes : Publishes σ d (.device d) path)
    (h : registerPaths env d path σ = .ok (b, σ')) : Changes (.registerDevice env d) σ σ' := by
  unfold registerPaths at h
  rcases dbusutilsRegisterObject_cases σ.bus path (.device d) env.accepts with
    ⟨haccept, hbus⟩ | ⟨-, hbus⟩
  swap
  · simp only [hbus] at h
    cases h
    exact .refl
  simp only [hbus] at h
  have h₁ : Changes (.registerDevice env d) σ _ := .single (.registered hpublishes haccept)
  obtain ⟨⟨success, σ₂⟩, hrequest, h⟩ := bind_eq_ok.mp h
  obtain ⟨hbluez, hdevice⟩ := deviceRegisterWithBluez_changes
    (mem_registered_concat σ.bus.registered path (.device d)) hrequest
  have h₂ := h₁.trans hbluez
  cases success with
  | false =>
    cases h
    exact h₂
  | true => exact h₂.trans (registerAdvert_changes hdevice h)

/-- A registration of a device is a sequence of changes. -/
theorem deviceRegister_changes {env : RegisterEnv} {d : ℕ} {b : Bool} {σ σ' : State}
    (h : deviceRegister env d σ = .ok (b, σ')) : Changes (.registerDevice env d) σ σ' := by
  obtain ⟨x, hx, h⟩ := bind_eq_ok.mp h
  obtain ⟨found, -, h⟩ := bind_eq_ok.mp h
  cases found with
  | some e =>
    -- the name is taken
    cases h
    exact .refl
  | none =>
  obtain ⟨⟨success, σ₁⟩, hcontroller, h⟩ := bind_eq_ok.mp h
  have h₁ : Changes (.registerDevice env d) σ σ₁ := .single (.controller hcontroller)
  cases success with
  | false =>
    -- no virtual controller has been opened
    cases h
    exact h₁
  | true =>
    have hpublishes : Publishes σ₁ d (.device d) (σ₁.strings.read x.objectPath) := by
      obtain ⟨y, -, -, -, -, hy, -, x₁, hx₁, hpath⟩ := deviceInitController_spec hcontroller
      obtain rfl : x = y := by simpa using hx.symm.trans hy
      rw [← hpath]
      exact .device hx₁
    exact h₁.trans (registerPaths_changes hpublishes h)

/-! ## Every step -/

/-- Setting a property of an adapter changes nothing, or sends one request. -/
theorem deviceSetAdapterProperty_cases {property : CStr} {env : PropertyEnv} {d : ℕ}
    {value b : Bool} {σ σ' : State}
    (h : deviceSetAdapterProperty property env d value σ = .ok (b, σ')) :
    σ' = σ ∨ ∃ message, message.type = .methodCall ∧
      σ' = { σ with bus := dbusConnectionSend σ.bus message } := by
  unfold deviceSetAdapterProperty dbusutilsSetPropertyBasic at h
  obtain ⟨x, -, h⟩ := bind_eq_ok.mp h
  rcases ite_eq_ok.mp h with ⟨-, h⟩ | ⟨-, h⟩
  · cases h
    exact Or.inl rfl
  · obtain ⟨⟨success, bus⟩, hset, h⟩ := bind_eq_ok.mp h
    cases h
    simp only [ite_eq_ok, bind_eq_ok] at hset
    obtain ⟨path, -, ⟨-, hset⟩ | ⟨-, w₁, -, w₂, -, w₃, -, hset⟩⟩ := hset
    · cases hset
      exact Or.inl rfl
    · cases hset
      exact Or.inr ⟨_, rfl, rfl⟩

/-- Every step is a sequence of changes. -/
theorem exec_changes {op : Op} {σ σ' : State} {r : Reply} (h : exec op σ = .ok (r, σ')) :
    Changes op σ σ' := by
  cases op with
  | createDevice deviceName => cases h; exact .single .createDevice
  | createService uuid => cases h; exact .single .createService
  | createCharacteristic uuid => cases h; exact .single .createCharacteristic
  | createDescriptor uuid => cases h; exact .single .createDescriptor
  | add kind accepts p c =>
    obtain ⟨⟨b, σ₁⟩, hadd, h⟩ := bind_eq_ok.mp h
    cases h
    cases addTo_cases hadd with
    | rejected _ => exact .refl
    | refused hpasses haccept => exact .single (.refused hpasses haccept)
    | added hpasses haccept => exact .single (.added hpasses haccept)
  | registerDevice env d =>
    obtain ⟨⟨b, σ₁⟩, hreg, h⟩ := bind_eq_ok.mp h
    cases h
    exact deviceRegister_changes hreg
  | setPowered env d powered =>
    obtain ⟨⟨b, σ₁⟩, hset, h⟩ := bind_eq_ok.mp h
    cases h
    obtain rfl | ⟨message, hmessage, rfl⟩ := deviceSetAdapterProperty_cases hset
    · exact .refl
    · exact .single (.asked trivial hmessage)
  | setDiscoverable env d discoverable =>
    obtain ⟨⟨b, σ₁⟩, hset, h⟩ := bind_eq_ok.mp h
    cases h
    obtain rfl | ⟨message, hmessage, rfl⟩ := deviceSetAdapterProperty_cases hset
    · exact .refl
    · exact .single (.asked trivial hmessage)
  | setNotifying c notifying =>
    obtain ⟨σ₁, hset, h⟩ := bind_eq_ok.mp h
    cases h
    exact .single (.valued trivial (characteristicSetNotifying_frame hset))
  | setValue c v t =>
    obtain ⟨⟨exit, σ₁⟩, hset, h⟩ := bind_eq_ok.mp h
    cases h
    exact .single (.valued trivial (luaiCharacteristicSetValue_frame hset))
  | deliver object message =>
    simp only [exec, ite_eq_ok, bind_eq_ok] at h
    rcases h with ⟨-, ⟨result, request, σ₁⟩, hhandle, h⟩ | ⟨-, h⟩
    · cases h
      exact .single (.valued trivial (dbusutilsObjectHandleMessage_frame hhandle))
    · cases h
      exact .refl
  | applicationReply d success =>
    simp only [exec, ite_eq_ok, bind_eq_ok] at h
    rcases h with ⟨-, σ₁, hreply, h⟩ | ⟨-, h⟩
    · cases h
      exact .single (.answered hreply)
    · cases h
      exact .refl
  | advertReply d success =>
    simp only [exec, ite_eq_ok, bind_eq_ok] at h
    rcases h with ⟨-, σ₁, hreply, h⟩ | ⟨-, h⟩
    · cases h
      exact .single (.advertAnswered hreply)
    · cases h
      exact .refl
  | reuseMemory strings buffers => cases h; exact .single .reused
  | fini object =>
    obtain ⟨σ₁, hfini, h⟩ := bind_eq_ok.mp h
    cases h
    exact .single (.finalised hfini)

/-- What the initial states satisfy and every change of an allowed operation preserves holds of
every reachable state. -/
theorem ReachableBy.changeInduction {Allowed : Op → Prop} (Inv : State → Prop)
    (hinit : ∀ σ, σ.IsInitial → Inv σ)
    (hchange : ∀ op σ σ', Allowed op → Change op σ σ' → Inv σ → Inv σ') {σ : State}
    (h : ReachableBy Allowed σ) : Inv σ :=
  h.induction hinit fun op _ _ _ hop hinv hexec =>
    (exec_changes hexec).invariant (fun σ σ' => hchange op σ σ' hop) hinv

end BleSim
