import BleSim.Cells
import BleSim.Server

/-!
# The server a state stands for

A state of the simulator stands for a state of the server (`Represents`): the strings its pointers
lead to are the server's texts, its linked lists are the server's lists, its buffers hold the
server's bytes, and the fields that are never changed have their defaults.
-/

namespace BleSim

open Outcomes WriteOnce Intrusive Refinement

/-! ## Fields that are never changed -/

/-- An advertisement that has been set up, but for its strings. -/
structure Advertisement.IsDefault (a : Advertisement) : Prop where
  manufacturerId : a.manufacturerId = 0xBEEF
  manufacturerData : a.manufacturerData = BleSim.manufacturerData
  discoverable : a.discoverable = advertisementDiscoverableDefault
  discoverableTimeout : a.discoverableTimeout = advertisementDiscoverableTimeoutDefault
  duration : a.duration = advertisementDurationDefault
  timeout : a.timeout = advertisementTimeoutDefault
  minInterval : a.minInterval = advertisementMinIntervalDefault
  maxInterval : a.maxInterval = advertisementMaxIntervalDefault

/-- The fields of an advertisement that do not depend on answers of BlueZ. -/
def Advertisement.fixed (a : Advertisement) : Advertisement := { a with registered := false }

/-- All objects have the defaults of their kind. -/
structure Constants (σ : State) : Prop where
  primary : ∀ b ∈ σ.services.map Service.primary, b = true
  characteristicFlags : ∀ f ∈ σ.characteristics.map Characteristic.flags,
    f = characteristicFlagsAllEnabled
  descriptorFlags : ∀ f ∈ σ.descriptors.map Descriptor.flags, f = descriptorFlagsAllEnabled
  advertisements : ∀ a ∈ σ.devices.map fun x => x.advertisement.fixed, a.Unset ∨ a.IsDefault

namespace Constants

variable {σ σ' : State}

theorem of_isInitial (h : σ.IsInitial) : Constants σ := by
  obtain ⟨strings, buffers, fails, outOfMemory, rfl⟩ := h
  constructor <;> simp [State.initial]

theorem congr (h : Constants σ)
    (hservices : σ'.services.map Service.primary = σ.services.map Service.primary)
    (hcharacteristics : σ'.characteristics.map Characteristic.flags =
      σ.characteristics.map Characteristic.flags)
    (hdescriptors : σ'.descriptors.map Descriptor.flags = σ.descriptors.map Descriptor.flags)
    (hdevices : (σ'.devices.map fun x => x.advertisement.fixed) =
      σ.devices.map fun x => x.advertisement.fixed) : Constants σ' :=
  ⟨hservices ▸ h.primary, hcharacteristics ▸ h.characteristicFlags,
    hdescriptors ▸ h.descriptorFlags, hdevices ▸ h.advertisements⟩

/-- A change of the devices that keeps their advertisements. -/
theorem of_devices (h : Constants σ) (hservices : σ'.services = σ.services)
    (hcharacteristics : σ'.characteristics = σ.characteristics)
    (hdescriptors : σ'.descriptors = σ.descriptors)
    (hdevices : (σ'.devices.map fun x => x.advertisement.fixed) =
      σ.devices.map fun x => x.advertisement.fixed) : Constants σ' :=
  h.congr (by rw [hservices]) (by rw [hcharacteristics]) (by rw [hdescriptors]) hdevices

theorem setNode (h : Constants σ) (kind : Kind) (c : ℕ) (n : Node) :
    Constants (σ.setNode kind c n) := by
  cases kind with
  | service => exact h.congr (State.map_modify_same _ _ _ _ fun _ => rfl) rfl rfl rfl
  | characteristic => exact h.congr rfl (State.map_modify_same _ _ _ _ fun _ => rfl) rfl rfl
  | descriptor => exact h.congr rfl rfl (State.map_modify_same _ _ _ _ fun _ => rfl) rfl

theorem setChildren (h : Constants σ) (kind : Kind) (p : ℕ) (children : Children) :
    Constants (σ.setChildren kind p children) := by
  cases kind with
  | service => exact h.congr rfl rfl rfl (State.map_modify_same _ _ _ _ fun _ => rfl)
  | characteristic => exact h.congr (State.map_modify_same _ _ _ _ fun _ => rfl) rfl rfl rfl
  | descriptor => exact h.congr rfl (State.map_modify_same _ _ _ _ fun _ => rfl) rfl rfl

/-- What an object that is created last has to satisfy. -/
theorem forall_mem_map_concat {α β : Type} {l : List α} {a : α} {f : α → β} {P : β → Prop}
    (h : ∀ b ∈ l.map f, P b) (ha : P (f a)) : ∀ b ∈ (l ++ [a]).map f, P b := by
  intro b hb
  rw [List.map_append, List.mem_append] at hb
  rcases hb with hb | hb
  · exact h b hb
  · rw [List.mem_singleton.mp hb]
    exact ha

/-- Setting up an advertisement gives it the defaults. -/
theorem advertised (h : Constants σ) {d : ℕ} (hinit : deviceInitAdvertisement d σ = .ok σ') :
    Constants σ' := by
  obtain ⟨x, -, hinit⟩ := bind_eq_ok.mp hinit
  cases hinit
  refine ⟨h.primary, h.characteristicFlags, h.descriptorFlags, fun a ha => ?_⟩
  obtain ⟨x, hx, rfl⟩ := List.mem_map.mp ha
  obtain ⟨y, hy, rfl | rfl⟩ := State.exists_of_mem_modify hx
  · exact h.advertisements _ (List.mem_map_of_mem hy)
  · exact Or.inr ⟨rfl, rfl, rfl, rfl, rfl, rfl, rfl, rfl⟩

theorem change {op : Op} (hchange : Change op σ σ') (hpointers : PointersInv σ)
    (h : Constants σ) : Constants σ' := by
  have hmodify : ∀ (d : ℕ) (f : Device → Device),
      (∀ x, (f x).advertisement.fixed = x.advertisement.fixed) →
      ((σ.devices.modify d f).map fun x => x.advertisement.fixed) =
        σ.devices.map fun x => x.advertisement.fixed :=
    fun d f hf => State.map_modify_same _ _ _ _ hf
  cases hchange with
  | createDevice =>
    exact ⟨h.primary, h.characteristicFlags, h.descriptorFlags,
      forall_mem_map_concat h.advertisements (Or.inl ⟨rfl, rfl, rfl⟩)⟩
  | createService =>
    exact ⟨forall_mem_map_concat h.primary rfl, h.characteristicFlags, h.descriptorFlags,
      h.advertisements⟩
  | createCharacteristic =>
    exact ⟨h.primary, forall_mem_map_concat h.characteristicFlags rfl, h.descriptorFlags,
      h.advertisements⟩
  | createDescriptor =>
    exact ⟨h.primary, h.characteristicFlags, forall_mem_map_concat h.descriptorFlags rfl,
      h.advertisements⟩
  | refused _ _ =>
    have hstrings : ∀ strings, Constants { σ with strings } := fun _ => h.of_devices rfl rfl rfl rfl
    exact (hstrings _).setNode _ _ _
  | added _ _ =>
    have hbus : ∀ strings bus, Constants { σ with strings, bus } := fun _ _ =>
      h.of_devices rfl rfl rfl rfl
    exact ((hbus _ _).setNode _ _ _).setChildren _ _ _
  | controller hinit =>
    obtain ⟨x, vc, oc, co, cc, -, rfl, -⟩ := deviceInitController_spec hinit
    exact h.of_devices rfl rfl rfl (hmodify _ _ fun _ => rfl)
  | registered _ _ => exact h.of_devices rfl rfl rfl rfl
  | requested => exact h.of_devices rfl rfl rfl rfl
  | advertised hinit => exact h.advertised hinit
  | listed _ _ =>
    rw [State.listDevice_eq]
    exact h.of_devices rfl rfl rfl (hmodify _ _ fun _ => rfl)
  | asked => exact h.of_devices rfl rfl rfl rfl
  | valued _ hframe =>
    obtain ⟨⟨b, cs, sent, rfl⟩, hshape, -⟩ := hframe
    refine h.congr rfl ?_ rfl rfl
    have hflags := congrArg (List.map fun s : Node × UInt32 × Children => s.2.1) hshape
    simpa [Characteristic.shape, Function.comp_def] using hflags
  | answered hreply =>
    obtain rfl := onRegisterApplicationReply_spec hreply
    exact h.of_devices rfl rfl rfl (hmodify _ _ fun _ => rfl)
  | advertAnswered hreply =>
    obtain ⟨x, -, rfl⟩ := onRegisterAdvertReply_spec hreply
    exact h.of_devices rfl rfl rfl (hmodify _ _ fun _ => rfl)
  | reused => exact h.of_devices rfl rfl rfl rfl
  | finalised hfini =>
    obtain ⟨-, -, oc, rfl⟩ := hpointers.finiObject_spec hfini
    exact h.of_devices rfl rfl rfl rfl

/-- In every reachable state the constant fields have their defaults. -/
theorem of_reachable (h : Reachable σ) : Constants σ := by
  have hboth : PointersInv σ ∧ Constants σ :=
    h.changeInduction (fun σ => PointersInv σ ∧ Constants σ)
      (fun _ hinit => ⟨.of_isInitial hinit, .of_isInitial hinit⟩)
      fun _ _ _ _ hchange hinv => ⟨hinv.1.change hchange, hinv.2.change hchange hinv.1⟩
  exact hboth.2

end Constants

/-! ## The relation -/

/-- The texts the strings of a list node hold. -/
def Node.texts (n : Node) : Option CStr × Option CStr × Option CStr :=
  (n.uuid.contents?, n.parentPath.contents?, n.objectPath.contents?)

def Attribute.texts (a : Attribute) : Option CStr × Option CStr × Option CStr :=
  (some a.uuid, a.place.map Place.parentPath, a.place.map Place.path)

/-- The texts the strings of a device hold, apart from its path. -/
def Device.texts (x : Device) : Option CStr × Option CStr :=
  (x.deviceName.contents?, x.controller.contents?)

def Peripheral.texts (x : Peripheral) : Option CStr × Option CStr := (some x.name, x.adapter)

/-- The library takes both paths of an attribute that has a place. -/
structure Place.Taken (place : Place) : Prop where
  parentPath : isObjectPath place.parentPath = true
  path : isObjectPath place.path = true

/-- The tree of a state in which nothing has been finalised, and its list of devices. -/
structure Standing (σ : State) (children : Kind → ℕ → List ℕ) (listed : List ℕ) : Prop where
  reachable : ReachableBy Op.NoFini σ
  forests : Forests σ children
  paths : PathInv σ children
  list : ListInv σ listed

/-- The state `σ` of the simulator stands for the state `g` of the server. -/
structure Represents (σ : State) (g : Server) : Prop where
  standing : Standing σ g.children g.listed
  attributes : ∀ kind, (σ.nodes kind).map Node.texts = (g.attributes kind).map Attribute.texts
  devices : σ.devices.map Device.texts = g.devices.map Peripheral.texts
  cells : ∀ (c : ℕ) (cell : Cell), g.cells[c]? = some cell → Shows σ c cell
  length : σ.characteristics.length = g.cells.length
  registered : σ.bus.registered = g.registered
  controllers : σ.controllerCount = g.controllers
  fails : σ.buffers.NeverFails
  memory : σ.bus.outOfMemory = false

namespace Standing

variable {σ σ' : State} {children : Kind → ℕ → List ℕ} {listed : List ℕ}
  (h : Standing σ children listed)

include h

theorem pointers : PointersInv σ := .of_reachable h.reachable.reachable

theorem registration : RegistrationInv σ := .of_reachable h.reachable.reachable

theorem values : ValuesInv σ := .of_reachable h.reachable.reachable

theorem constants : Constants σ := .of_reachable h.reachable.reachable

theorem pointed : PointedInv σ := by
  have hboth : PointersInv σ ∧ PointedInv σ :=
    h.reachable.changeInduction (fun σ => PointersInv σ ∧ PointedInv σ)
      (fun _ hinit => ⟨.of_isInitial hinit, .of_isInitial hinit⟩)
      fun _ _ _ _ hchange hinv => ⟨hinv.1.change hchange, hinv.2.change hchange hinv.1⟩
  exact hboth.2

theorem notMem_finalised (o : Obj) : o ∉ σ.finalised := BleSim.notMem_finalised h.reachable o

theorem placement : PlacementInv σ children :=
  ⟨h.pointers, h.registration, h.forests, h.paths⟩

/-- The path of a child goes on from the path of its parent. -/
theorem objectPath_of {kind : Kind} {c : ℕ} {n : Node} (hn : (σ.nodes kind)[c]? = some n)
    (hattached : n.parentPath ≠ .null) : ∃ p parentPath i,
      σ.pathOf (kind.parent p) = some parentPath ∧ n.parentPath.contents? = some parentPath ∧
      n.objectPath.contents? = some (objectPathString parentPath kind.objectName i) := by
  obtain ⟨p, hc⟩ := ((h.forests kind).wellFormed.owned_iff c).mp ⟨n, hn, hattached⟩
  obtain ⟨l₁, l₂, hsplit⟩ := List.append_of_mem hc
  obtain ⟨n', parentPath, hn', hparent, htext, hpath⟩ := h.paths.listed kind p l₁ c l₂ hsplit
  obtain rfl : n = n' := Option.some.inj (hn.symm.trans hn')
  exact ⟨p, parentPath, _, hparent, htext, hpath⟩

/-- The paths of objects are paths for the library. -/
theorem validObjectPath {o : Obj} {path : CStr} (ho : σ.pathOf o = some path) :
    ValidObjectPath path := by
  have hdevice : ∀ d, ValidObjectPath (devicePath d) := fun d =>
    (Position.device (UInt32.ofNat d)).validObjectPath
  -- a child has a valid path if all parents of its kind have
  have hchild : ∀ kind : Kind, (∀ p path, σ.pathOf (kind.parent p) = some path →
      ValidObjectPath path) → ∀ c path, σ.pathOf (kind.object c) = some path →
      ValidObjectPath path := by
    intro kind hparents c path hc
    rw [State.pathOf_object] at hc
    obtain ⟨n, hn, hpath⟩ := Option.bind_eq_some_iff.mp hc
    have hattached : n.parentPath ≠ .null := by
      intro hnull
      rw [h.paths.unlisted kind c n hn hnull] at hpath
      cases hpath
    obtain ⟨p, parentPath, i, hparent, -, htext⟩ := h.objectPath_of hn hattached
    obtain rfl := Option.some.inj (hpath.symm.trans htext)
    exact validObjectPath_objectPathString (Or.inr (hparents p parentPath hparent))
      kind.objectName_mem i
  have hservice := hchild .service fun p path hp => Option.some.inj hp ▸ hdevice p
  have hcharacteristic := hchild .characteristic hservice
  cases o with
  | device d => exact Option.some.inj ho ▸ hdevice d
  | advertisement d =>
    exact Option.some.inj ho ▸ (Position.advertisement (UInt32.ofNat d)).validObjectPath
  | service s => exact hservice s path ho
  | characteristic c => exact hcharacteristic c path ho
  | descriptor k => exact hchild .descriptor hcharacteristic k path ho

/-- A step that adds no child and registers no device leaves both alone. -/
theorem step {op : Op} {r : Reply} (hop : op.NoFini) (hexec : exec op σ = .ok (r, σ'))
    (hadd : ∀ kind accepts p c, op ≠ .add kind accepts p c)
    (hregister : ∀ env d, op ≠ .registerDevice env d) : Standing σ' children listed := by
  have hplacement := h.placement.changes (exec_changes hexec) hadd
  refine ⟨h.reachable.step op hop hexec, hplacement.forests, hplacement.paths, ?_⟩
  cases exec_deviceStep hexec with
  | created => exact h.list.createDevice _
  | registered _ => exact absurd rfl (hregister _ _)
  | answered _ _ =>
    refine h.list.of_frame ?_ rfl ⟨[], (List.append_nil _).symm⟩
    exact State.map_modify_same _ _ _ _ fun _ => rfl
  | advertAnswered _ _ =>
    refine h.list.of_frame ?_ rfl ⟨[], (List.append_nil _).symm⟩
    exact State.map_modify_same _ _ _ _ fun _ => rfl
  | finalised _ => exact absurd hop id
  | frame _ _ hframe =>
    exact h.list.of_frame (hframe.map_eq _ fun _ => rfl) hframe.deviceListHead hframe.registered

end Standing

namespace Represents

variable {σ σ' : State} {g g' : Server}

theorem of_isInitial (h : σ.IsInitial) (hfails : σ.buffers.NeverFails)
    (hmemory : σ.bus.outOfMemory = false) : Represents σ Server.empty := by
  refine ⟨⟨⟨σ, [], [], h, by simp, rfl⟩, fun kind => .of_isInitial h kind, .of_isInitial h,
    .of_isInitial h⟩, fun kind => ?_, ?_, fun c cell hc => ?_, ?_, ?_, ?_, hfails, hmemory⟩
  all_goals obtain ⟨strings, buffers, fails, outOfMemory, rfl⟩ := h
  · cases kind <;> rfl
  · rfl
  · simp [Server.empty] at hc
  · rfl
  · rfl
  · rfl

variable (h : Represents σ g)

include h

/-! ### Attributes -/

theorem texts_node (kind : Kind) (c : ℕ) :
    ((σ.nodes kind)[c]?).map Node.texts = (g.attributeAt kind c).map Attribute.texts := by
  rw [← List.getElem?_map, h.attributes, List.getElem?_map]
  rfl

theorem exists_node {kind : Kind} {c : ℕ} {a : Attribute} (ha : g.attributeAt kind c = some a) :
    ∃ n, (σ.nodes kind)[c]? = some n ∧ σ.node kind c = .ok n ∧ n.texts = a.texts := by
  have htexts := h.texts_node kind c
  rw [ha] at htexts
  obtain ⟨n, hn, heq⟩ := Option.map_eq_some_iff.mp htexts
  exact ⟨n, hn, State.node_eq_ok.mpr ⟨h.standing.notMem_finalised _, hn⟩, heq⟩

theorem exists_attribute {kind : Kind} {c : ℕ} {n : Node} (hn : (σ.nodes kind)[c]? = some n) :
    ∃ a, g.attributeAt kind c = some a ∧ n.texts = a.texts := by
  have htexts := h.texts_node kind c
  rw [hn, eq_comm] at htexts
  obtain ⟨a, ha, heq⟩ := Option.map_eq_some_iff.mp htexts
  exact ⟨a, ha, heq.symm⟩

theorem attributeAt_eq_none {kind : Kind} {c : ℕ} (hnone : (σ.nodes kind)[c]? = none) :
    g.attributeAt kind c = none := by
  have htexts := h.texts_node kind c
  rwa [hnone, Option.map_none, eq_comm, Option.map_eq_none_iff] at htexts

/-- What does not exist on the server cannot be accessed. -/
theorem no_node {kind : Kind} {c : ℕ} (hnone : g.attributeAt kind c = none) :
    σ.node kind c = .error .noObject := by
  have htexts := h.texts_node kind c
  rw [hnone, Option.map_none, Option.map_eq_none_iff] at htexts
  simp [State.node, State.access, State.fetch, htexts, h.standing.notMem_finalised]

/-- The UUID of an attribute, as the program reads it. -/
theorem read_uuid {kind : Kind} {c : ℕ} {n : Node} {a : Attribute} (hn : σ.node kind c = .ok n)
    (htexts : n.texts = a.texts) : σ.strings.read n.uuid = a.uuid := by
  obtain ⟨id, u, huuid, hread⟩ := h.standing.pointers.read_uuid hn
  have hsame : n.uuid.contents? = some a.uuid := congrArg Prod.fst htexts
  rw [huuid] at hsame
  rw [hread]
  exact Option.some.inj hsame

/-- An attribute has a place if its parent path is set. -/
theorem place_isSome_iff {kind : Kind} {c : ℕ} {n : Node} {a : Attribute}
    (hn : (σ.nodes kind)[c]? = some n) (htexts : n.texts = a.texts) :
    a.place.isSome = true ↔ n.parentPath ≠ .null := by
  have hsame : n.parentPath.contents? = a.place.map Place.parentPath :=
    congrArg (fun t => t.2.1) htexts
  constructor
  · intro hplace hnull
    rw [hnull] at hsame
    cases hp : a.place with
    | none => simp [hp] at hplace
    | some place => simp [hp, Ptr.contents?] at hsame
  · intro hnull
    have hwf := h.standing.pointers.nodes kind n (List.mem_of_getElem? hn)
    obtain ⟨id, text, htext⟩ := hwf.parentPath hnull
    rw [htext] at hsame
    cases hp : a.place with
    | none => simp [hp, Ptr.contents?] at hsame
    | some place => rfl

/-- The paths of an attribute that has a place, as the program reads them. -/
theorem read_place {kind : Kind} {c : ℕ} {n : Node} {a : Attribute} {place : Place}
    (hn : σ.node kind c = .ok n) (htexts : n.texts = a.texts) (hplace : a.place = some place) :
    n.Published σ.strings ∧ place.Taken ∧ σ.strings.read n.parentPath = place.parentPath ∧
      σ.strings.read n.objectPath = place.path := by
  have hget := (State.node_eq_ok.mp hn).2
  have hattached := (h.place_isSome_iff hget htexts).mp (by rw [hplace]; rfl)
  obtain ⟨p, parentText, i, hparent, hparentText, htext⟩ := h.standing.objectPath_of hget hattached
  have hobject : σ.pathOf (kind.object c) =
      some (objectPathString parentText kind.objectName i) := by
    rw [State.pathOf_object, hget]
    exact htext
  obtain rfl : parentText = place.parentPath := by
    have hsame : n.parentPath.contents? = a.place.map Place.parentPath :=
      congrArg (fun t => t.2.1) htexts
    rw [hparentText, hplace] at hsame
    exact Option.some.inj hsame
  obtain hpath : objectPathString place.parentPath kind.objectName i = place.path := by
    have hsame : n.objectPath.contents? = a.place.map Place.path :=
      congrArg (fun t => t.2.2) htexts
    rw [htext, hplace] at hsame
    exact Option.some.inj hsame
  rw [hpath] at htext hobject
  have hread : ∀ f : NodeField, ∀ {text : CStr}, (n.field f).contents? = some text →
      σ.strings.read (n.field f) = text := by
    intro f text hf
    cases hfield : n.field f with
    | block id a =>
      rw [hfield] at hf
      obtain rfl : a = text := Option.some.inj hf
      rw [← hfield]
      exact h.standing.pointers.read_attached hn hattached hfield
    | _ =>
      rw [hfield] at hf
      cases hf
  exact ⟨h.standing.pointers.published hn hattached,
    ⟨(h.standing.validObjectPath hparent).isObjectPath,
      (h.standing.validObjectPath hobject).isObjectPath⟩,
    hread .parentPath hparentText, hread .objectPath htext⟩

theorem uuid_eq (kind : Kind) (c : ℕ) : (σ.forest kind).key c = g.uuid kind c := by
  show ((σ.nodes kind)[c]?).bind (fun n => n.uuid.contents?) =
    (g.attributeAt kind c).map Attribute.uuid
  cases hn : (σ.nodes kind)[c]? with
  | none =>
    rw [h.attributeAt_eq_none hn]
    rfl
  | some n =>
    obtain ⟨a, ha, heq⟩ := h.exists_attribute hn
    rw [ha]
    exact congrArg Prod.fst heq

/-! ### Devices -/

theorem exists_device {d : ℕ} {x : Peripheral} (hx : g.devices[d]? = some x) :
    ∃ y, σ.device d = .ok y ∧ y.texts = x.texts := by
  have htexts : (σ.devices[d]?).map Device.texts = (g.devices[d]?).map Peripheral.texts := by
    rw [← List.getElem?_map, h.devices, List.getElem?_map]
  rw [hx] at htexts
  obtain ⟨y, hy, heq⟩ := Option.map_eq_some_iff.mp htexts
  exact ⟨y, State.device_eq_ok.mpr ⟨h.standing.notMem_finalised _, hy⟩, heq⟩

theorem no_device {d : ℕ} (hnone : g.devices[d]? = none) : σ.device d = .error .noObject := by
  have htexts : (σ.devices[d]?).map Device.texts = (g.devices[d]?).map Peripheral.texts := by
    rw [← List.getElem?_map, h.devices, List.getElem?_map]
  rw [hnone, Option.map_none, Option.map_eq_none_iff] at htexts
  simp [State.device, State.access, State.fetch, htexts, h.standing.notMem_finalised]

theorem nameOf_eq (d : ℕ) : σ.nameOf d = (g.devices[d]?).map Peripheral.name := by
  have htexts : (σ.devices[d]?).map Device.texts = (g.devices[d]?).map Peripheral.texts := by
    rw [← List.getElem?_map, h.devices, List.getElem?_map]
  have hnames := congrArg (fun o => o.bind Prod.fst) htexts
  rw [Option.bind_map, Option.bind_map] at hnames
  exact hnames.trans Option.map_eq_bind.symm

/-- The lookup for a device finds one if the name is taken. -/
theorem deviceGetDevice_isSome {d : ℕ} {y : Device} (hy : σ.device d = .ok y) :
    ∃ found, deviceGetDevice (σ.strings.read y.deviceName) σ = .ok found ∧
      (found.isSome = true ↔ g.nameTaken d) := by
  refine ⟨_, h.standing.list.deviceGetDevice_eq h.standing.pointers
    (fun e _ => h.standing.notMem_finalised _) _, ?_⟩
  have hname := ListInv.nameOf_eq h.standing.pointers hy
  simp only [List.find?_isSome, decide_eq_true_eq, Server.nameTaken, List.mem_map, ← hname,
    h.nameOf_eq]

/-! ### Parents -/

theorem length_attributes (kind : Kind) : (σ.nodes kind).length = (g.attributes kind).length := by
  have hlength := congrArg List.length (h.attributes kind)
  rwa [List.length_map, List.length_map] at hlength

theorem length_devices : σ.devices.length = g.devices.length := by
  have hlength := congrArg List.length h.devices
  rwa [List.length_map, List.length_map] at hlength

theorem path_attribute (kind : Kind) (c : ℕ) : σ.pathOf (kind.object c) =
    (g.attributeAt kind c).bind fun a => a.place.map Place.path := by
  rw [State.pathOf_object]
  cases hn : (σ.nodes kind)[c]? with
  | none =>
    rw [h.attributeAt_eq_none hn]
    rfl
  | some n =>
    obtain ⟨a, ha, heq⟩ := h.exists_attribute hn
    rw [ha]
    exact congrArg (fun t => t.2.2) heq

/-- A parent exists for the program where it does for the server, and has the same path. -/
theorem parentPath_eq (kind : Kind) (p : ℕ) : g.parentPath kind p =
    if p < (σ.lists kind).length then some (σ.pathOf (kind.parent p)) else none := by
  have hattribute : ∀ kind₀ : Kind, (g.attributeAt kind₀ p).map (fun a => a.place.map Place.path) =
      if p < (σ.nodes kind₀).length then some (σ.pathOf (kind₀.object p)) else none := by
    intro kind₀
    rw [h.path_attribute, h.length_attributes]
    split_ifs with hlt
    · have ha : g.attributeAt kind₀ p = some (g.attributes kind₀)[p] := List.getElem?_eq_getElem hlt
      rw [ha]
      rfl
    · have ha : g.attributeAt kind₀ p = none := List.getElem?_eq_none (Nat.not_lt.mp hlt)
      rw [ha]
      rfl
  cases kind with
  | service =>
    have hlength : (σ.lists .service).length = g.devices.length := by
      rw [← h.length_devices]
      simp [State.lists]
    rw [hlength, Server.parentPath]
    split_ifs with hlt
    · rw [List.getElem?_eq_getElem hlt]
      rfl
    · rw [List.getElem?_eq_none (Nat.not_lt.mp hlt)]
      rfl
  | characteristic =>
    have hlength : (σ.lists .characteristic).length = (σ.nodes .service).length := by
      simp [State.lists, State.nodes]
    rw [hlength]
    exact hattribute .service
  | descriptor =>
    have hlength : (σ.lists .descriptor).length = (σ.nodes .characteristic).length := by
      simp [State.lists, State.nodes]
    rw [hlength]
    exact hattribute .characteristic

theorem no_parent {kind : Kind} {p : ℕ} (hnone : g.parentPath kind p = none) :
    ∃ e, σ.parent kind p = .error e := by
  cases hparent : σ.parent kind p with
  | error e => exact ⟨e, rfl⟩
  | ok r =>
    have hlt := (List.getElem?_eq_some_iff.mp (State.parent_eq_ok.mp hparent).2.2).1
    rw [h.parentPath_eq, if_pos hlt] at hnone
    cases hnone

/-- A parent that exists for the server, as the program reads it. -/
theorem exists_parent {kind : Kind} {p : ℕ} {path : Option CStr}
    (hpath : g.parentPath kind p = some path) :
    ∃ ptr x, σ.parent kind p = .ok (ptr, x) ∧ (σ.lists kind)[p]? = some x ∧
      σ.pathOf (kind.parent p) = path := by
  rw [h.parentPath_eq] at hpath
  split_ifs at hpath with hlt
  obtain ⟨ptr, x, hparent, hx⟩ := State.parent_of_lt hlt (h.standing.notMem_finalised _)
  exact ⟨ptr, x, hparent, hx, Option.some.inj hpath⟩

/-- The program turns away the parents that have no path. -/
theorem unpublished_iff {kind : Kind} {p : ℕ} {ptr : Ptr CStr} {x : Children}
    (hparent : σ.parent kind p = .ok (ptr, x)) :
    Unpublished kind ptr ↔ σ.pathOf (kind.parent p) = none := by
  constructor
  · intro ⟨hkind, hnull⟩
    rcases kind.parent_eq with rfl | ⟨kind₀, hobject, hpaths⟩
    · exact absurd rfl hkind
    · have hpath := (State.parent_eq_ok.mp hparent).2.1
      rw [hpaths, List.getElem?_map, Option.map_eq_some_iff] at hpath
      obtain ⟨n, hn, rfl⟩ := hpath
      rw [hobject, State.pathOf_object, hn, Option.bind_some, hnull]
      rfl
  · intro hnone
    by_contra hpublished
    obtain ⟨text, -, hpath⟩ :=
      h.standing.paths.pointsTo_parent h.standing.pointers hparent hpublished
    rw [hnone] at hpath
    cases hpath

end Represents

/-! ## Sizes -/

section Sizes

variable {σ : State} {g : Server}

/-- The tables are short: no counter of the program can have wrapped around. -/
structure Server.Short (g : Server) : Prop where
  devices : g.devices.length < 2 ^ 32
  attributes : ∀ kind, (g.attributes kind).length < 2 ^ 32

theorem Represents.countersFit (h : Represents σ g) (hshort : g.Short) : CountersFit σ := by
  refine CountersFit.of_shortTables h.standing.reachable.reachable ⟨?_, ?_, ?_, ?_⟩
  · rw [h.length_devices]
    exact hshort.devices
  · have hlength := h.length_attributes .service
    rw [State.nodes, List.length_map] at hlength
    rw [hlength]
    exact hshort.attributes .service
  · have hlength := h.length_attributes .characteristic
    rw [State.nodes, List.length_map] at hlength
    rw [hlength]
    exact hshort.attributes .characteristic
  · have hlength := h.length_attributes .descriptor
    rw [State.nodes, List.length_map] at hlength
    rw [hlength]
    exact hshort.attributes .descriptor

end Sizes

end BleSim
