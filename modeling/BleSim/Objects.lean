import BleSim.DBus
import BleSim.Lib.Heap

/-!
# The simulator's objects and its state

`device_t`, `service_t`, `characteristic_t` and `descriptor_t` live in four tables; an object
is named by its position there, which stands for its address. The fields by which a service,
a characteristic or a descriptor hangs in its parent's list are the same on all three levels
and are collected in `Node` and `Children`.

String blocks and value buffers are numbered separately: no pointer to one kind is ever
stored in a field for the other.
-/

namespace BleSim

open Outcomes WriteOnce

/-- The fields of a child that tie it to its parent: `parentPath` is the field `device_path`,
`service_path` or `characteristic_path`. -/
structure Node where
  uuid : Ptr CStr
  parentPath : Ptr CStr
  objectPath : Ptr CStr
  origin : Origin
  next : Option ℕ
deriving DecidableEq

/-- A parent's list of children: `services` and `service_count`, `characteristics` and
`characteristic_count`, or `descriptors` and `descriptor_count`. -/
structure Children where
  head : Option ℕ
  count : UInt32
deriving DecidableEq

/-- `descriptor_t`. -/
structure Descriptor where
  node : Node
  value : Ptr Bytes
  valueSize : UInt32
  flags : UInt16

/-- `characteristic_t`. -/
structure Characteristic where
  node : Node
  value : Ptr Bytes
  valueSize : UInt32
  notifying : Bool
  flags : UInt32
  descriptors : Children

/-- `service_t`. -/
structure Service where
  node : Node
  primary : Bool
  characteristics : Children

/-- `advertisement_t`, without the fields no function reads. The members `services` and
`local_name` point back into the device that holds the advertisement. -/
structure Advertisement where
  registered : Bool
  objectPath : Ptr CStr
  type : Ptr CStr
  manufacturerId : UInt16
  manufacturerData : Bytes
  discoverable : Bool
  discoverableTimeout : UInt16
  duration : UInt16
  timeout : UInt16
  secondaryChannel : Ptr CStr
  minInterval : UInt32
  maxInterval : UInt32

/-- `device_t`. -/
structure Device where
  services : Children
  controller : Ptr CStr
  deviceName : Ptr CStr
  objectPath : Ptr CStr
  applicationRegistered : Bool
  initialised : Bool
  origin : Origin
  virtualController : Option ℕ
  advertisement : Advertisement
  next : Option ℕ

/-- What an untyped object pointer can point to. A device and the advertisement inside it are
registered with D-Bus separately. -/
inductive Obj where
  | device (d : ℕ)
  | advertisement (d : ℕ)
  | service (s : ℕ)
  | characteristic (c : ℕ)
  | descriptor (k : ℕ)
deriving DecidableEq, Repr

/-- The three kinds of object that hang in a parent's list. -/
inductive Kind where
  | service
  | characteristic
  | descriptor
deriving DecidableEq, Repr

/-- The object of a kind with the given position in its table. -/
def Kind.object : Kind → ℕ → Obj
  | service => .service
  | characteristic => .characteristic
  | descriptor => .descriptor

/-- The object whose list holds objects of a kind. -/
def Kind.parent : Kind → ℕ → Obj
  | service => .device
  | characteristic => .service
  | descriptor => .characteristic

/-- How the paths of a kind end, before the number. -/
def Kind.objectName : Kind → CStr
  | service => serviceObjectName
  | characteristic => characteristicObjectName
  | descriptor => descriptorObjectName

/-- The D-Bus connection: the registered object paths with their objects, everything sent, and
the `user_data` of the requests to BlueZ that have not been answered yet. -/
structure Connection where
  registered : List (CStr × Obj)
  sent : List Message
  pending : List Obj
  /-- whether the library fails to allocate replies and signals -/
  outOfMemory : Bool

/-- The paths registered with D-Bus. -/
def Connection.paths (bus : Connection) : List CStr := bus.registered.map Prod.fst

/-- The state of the simulator process. -/
structure State where
  strings : Heap CStr
  buffers : Heap Bytes
  devices : List Device
  services : List Service
  characteristics : List Characteristic
  descriptors : List Descriptor
  deviceListHead : Option ℕ
  deviceCount : UInt32
  controllerCount : UInt32
  bus : Connection
  /-- the virtual controllers that are open, with the adapter index each was given -/
  openControllers : List (ℕ × ℕ)
  /-- how many virtual controllers were ever opened -/
  controllersOpened : ℕ
  /-- the objects whose `fini` function has run -/
  finalised : List Obj
  /-- the objects whose struct was passed to `free` -/
  freedStructs : List Obj

namespace State

/-- The state of a process that has created no object yet. -/
def initial (strings : Ptr CStr → CStr) (buffers : Ptr Bytes → Bytes) (fails : ℕ → Bool)
    (outOfMemory : Bool) : State where
  strings := Heap.initial strings fun _ => false
  buffers := Heap.initial buffers fails
  devices := []
  services := []
  characteristics := []
  descriptors := []
  deviceListHead := none
  deviceCount := 0
  controllerCount := 1
  bus := ⟨[], [], [], outOfMemory⟩
  openControllers := []
  controllersOpened := 0
  finalised := []
  freedStructs := []

/-- The entry of a table. -/
def fetch {α : Type} (table : List α) (i : ℕ) : Outcome α :=
  match table[i]? with
  | some x => .ok x
  | none => .error .noObject

/-- The entry of a table that a pointer to the object `o` denotes, unless its `fini` function
has run. -/
def access {α : Type} (σ : State) (o : Obj) (table : List α) (i : ℕ) : Outcome α :=
  if o ∈ σ.finalised then .error .noObject else fetch table i

def device (σ : State) (d : ℕ) : Outcome Device := σ.access (.device d) σ.devices d
def service (σ : State) (s : ℕ) : Outcome Service := σ.access (.service s) σ.services s
def characteristic (σ : State) (c : ℕ) : Outcome Characteristic :=
  σ.access (.characteristic c) σ.characteristics c
def descriptor (σ : State) (k : ℕ) : Outcome Descriptor :=
  σ.access (.descriptor k) σ.descriptors k

/-- The list nodes of all objects of a kind. -/
def nodes (σ : State) : Kind → List Node
  | .service => σ.services.map Service.node
  | .characteristic => σ.characteristics.map Characteristic.node
  | .descriptor => σ.descriptors.map Descriptor.node

/-- The lists that hold the objects of a kind, by parent. -/
def lists (σ : State) : Kind → List Children
  | .service => σ.devices.map Device.services
  | .characteristic => σ.services.map Service.characteristics
  | .descriptor => σ.characteristics.map Characteristic.descriptors

/-- The object paths of the parents of a kind. -/
def parentPaths (σ : State) : Kind → List (Ptr CStr)
  | .service => σ.devices.map Device.objectPath
  | .characteristic => σ.services.map fun x => x.node.objectPath
  | .descriptor => σ.characteristics.map fun x => x.node.objectPath

/-- The list node an object pointer leads to. -/
def node (σ : State) (kind : Kind) (c : ℕ) : Outcome Node :=
  σ.access (kind.object c) (σ.nodes kind) c

/-- Replace the list node of an object. -/
def setNode (σ : State) (kind : Kind) (c : ℕ) (node : Node) : State :=
  match kind with
  | .service => { σ with services := σ.services.modify c fun y => { y with node } }
  | .characteristic =>
    { σ with characteristics := σ.characteristics.modify c fun y => { y with node } }
  | .descriptor => { σ with descriptors := σ.descriptors.modify c fun y => { y with node } }

/-- Replace the list of children of a parent. -/
def setChildren (σ : State) (kind : Kind) (p : ℕ) (children : Children) : State :=
  match kind with
  | .service => { σ with devices := σ.devices.modify p fun x => { x with services := children } }
  | .characteristic =>
    { σ with services := σ.services.modify p fun x => { x with characteristics := children } }
  | .descriptor =>
    { σ with characteristics := σ.characteristics.modify p fun x =>
      { x with descriptors := children } }

end State

end BleSim
