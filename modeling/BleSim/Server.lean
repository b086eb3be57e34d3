import BleSim.Lib.Refinement
import BleSim.PathTheorems
import BleSim.ValueCalls

/-!
# What the simulator is for

A simulated peripheral is a server of attributes: devices with services, services with
characteristics, characteristics with descriptors, and a value for each characteristic. This file
says what such a server answers and which messages it sends, in terms of texts, lists and bytes. It
knows nothing of pointers, blocks, linked lists, iterators and property tables, and it is undefined
where the simulator leaves defined behaviour. `ServerTheorems` shows that the simulator refines it.
-/

namespace BleSim

open Refinement

/-! ## The state of a server -/

/-- Where an attribute hangs: the path of its parent and its own. -/
structure Place where
  parentPath : CStr
  path : CStr
deriving DecidableEq

/-- A service, a characteristic or a descriptor. It has no place before it is added to a parent. -/
structure Attribute where
  uuid : CStr
  place : Option Place
deriving DecidableEq

/-- A device, with the path of the adapter it was last registered on. -/
structure Peripheral where
  name : CStr
  adapter : Option CStr
deriving DecidableEq

/-- The state of a server. -/
structure Server where
  devices : List Peripheral
  attributes : Kind → List Attribute
  /-- the children of every parent, the newest first -/
  children : Kind → ℕ → List ℕ
  /-- what the characteristics show -/
  cells : List Cell
  /-- the devices that have been registered successfully, the newest first -/
  listed : List ℕ
  /-- the number of the next adapter -/
  controllers : UInt32
  /-- the paths clients can reach, with the objects behind them -/
  registered : List (CStr × Obj)

/-- What a step of the server comes to. -/
abbrev Answer := Taken Reply Message Server

namespace Server

/-- The server before anything has been created. -/
def empty : Server where
  devices := []
  attributes _ := []
  children _ _ := []
  cells := []
  listed := []
  controllers := 1
  registered := []

variable (g : Server)

def paths : List CStr := g.registered.map Prod.fst

def objects : List Obj := g.registered.map Prod.snd

def attributeAt (kind : Kind) (c : ℕ) : Option Attribute := (g.attributes kind)[c]?

def uuid (kind : Kind) (c : ℕ) : Option CStr := (g.attributeAt kind c).map Attribute.uuid

/-- The path of an attribute that has been added to a parent. -/
def place (kind : Kind) (c : ℕ) : Option Place := (g.attributeAt kind c).bind Attribute.place

/-- Whether a parent for attributes of a kind exists, and its path if it has one: only devices have
one from the beginning. -/
def parentPath (kind : Kind) (p : ℕ) : Option (Option CStr) :=
  match kind with
  | .service => (g.devices[p]?).map fun _ => some (devicePath p)
  | .characteristic => (g.attributeAt .service p).map fun a => a.place.map Place.path
  | .descriptor => (g.attributeAt .characteristic p).map fun a => a.place.map Place.path

/-! ## What the script does -/

/-- Create an attribute. Characteristics are created empty and silent. -/
def create (kind : Kind) (uuid : CStr) : Server :=
  { g with
    attributes := Function.update g.attributes kind (g.attributes kind ++ [⟨uuid, none⟩])
    cells := if kind = .characteristic then g.cells ++ [⟨[], false⟩] else g.cells }

/-- The path the next child of a parent gets. -/
def nextPath (kind : Kind) (p : ℕ) (parentPath : CStr) : CStr :=
  objectPathString parentPath kind.objectName (UInt32.ofNat (g.children kind p).length)

/-- Hang an attribute under a parent. -/
def attach (kind : Kind) (p c : ℕ) (parentPath : CStr) : Server :=
  { g with
    attributes := Function.update g.attributes kind ((g.attributes kind).modify c fun a =>
      { a with place := some ⟨parentPath, g.nextPath kind p parentPath⟩ })
    children := childrenPush g.children kind p c
    registered := g.registered ++ [(g.nextPath kind p parentPath, kind.object c)] }

/-- Add an attribute to a parent: the parent has to have a path, the attribute must not have been
added before, and no other child of the parent may have its UUID. -/
def add (kind : Kind) (p c : ℕ) : Option (Bool × Server) := do
  let path ← g.parentPath kind p
  let a ← g.attributeAt kind c
  match path with
  | none => some (false, g)
  | some path =>
    if a.place.isSome ∨ some a.uuid ∈ (g.children kind p).map (g.uuid kind) then some (false, g)
    else some (true, g.attach kind p c path)

/-- The name of a device is the name of a registered one. -/
def nameTaken (d : ℕ) : Prop :=
  (g.devices[d]?).map Peripheral.name ∈ g.listed.map fun e => (g.devices[e]?).map Peripheral.name

instance (d : ℕ) : Decidable (g.nameTaken d) := inferInstanceAs (Decidable (_ ∈ _))

/-- The server after a registration, which goes as far as it is let. -/
def afterRegister (env : RegisterEnv) (d : ℕ) : Server :=
  { g with
    devices := g.devices.modify d fun x => { x with adapter := some (adapterPath g.controllers) }
    listed := if env.succeeds g.paths d then d :: g.listed else g.listed
    controllers := g.controllers + if env.vhciOpen.isSome then 1 else 0
    registered := g.registered ++
      ((if env.publishesDevice g.paths d then [(devicePath d, .device d)] else []) ++
        if env.publishesAdvert g.paths d then [(advertPath d, .advertisement d)] else []) }

/-- Register a device, unless its name is taken. -/
def register (env : RegisterEnv) (d : ℕ) : Option Answer :=
  if d < g.devices.length then
    if g.nameTaken d then some ⟨.bool false, [], g⟩
    else some ⟨.bool (env.succeeds g.paths d),
      env.requests g.paths d (adapterPath g.controllers), g.afterRegister env d⟩
  else none

/-- Ask the adapter of a registered device to change a property. -/
def setAdapterProperty (property : CStr) (env : PropertyEnv) (d : ℕ) (value : Bool) :
    Option Answer := do
  let x ← g.devices[d]?
  if d ∈ g.listed then
    let path ← x.adapter
    if env.message then
      some ⟨.bool env.answered,
        [⟨.methodCall, some path, some dbusInterfaceProperties, some dbusMethodSet,
          [.string bluezAdapterInterface, .string property, .variant ['b'] (.boolean value)]⟩], g⟩
    else some ⟨.bool false, [], g⟩
  else some ⟨.bool false, [], g⟩

/-- A characteristic comes to show something else. -/
def setCell (c : ℕ) (cell : Cell) : Server := { g with cells := g.cells.set c cell }

/-- Switch notifications. -/
def notify (c : ℕ) (notifying : Bool) : Option Server :=
  (g.cells[c]?).map fun cell => g.setCell c { cell with notifying }

end Server

/-- The values at which a conversion raises an error when the data type does not take them. -/
def LuaValue.raises : LuaValue → Bool
  | .integer _ | .float _ | .table _ => true
  | _ => false

/-- How `setValue` turns down a value that the data type does not take: with an error or by
returning false. In a table the first item that is not taken decides. -/
def refusal (type : UInt32) : LuaValue → LuaExit Bool
  | .table items =>
    match items, BleDataType.ofCode type with
    | [], _ => .ret false
    | _, none => .ret false
    | _, some .string => .raise
    | items, some type =>
      if ((items.takeWhile LuaValue.isSome).find? fun v => !acceptsScalar type v).any
        LuaValue.raises then .raise else .ret false
  | v => if v.raises then .raise else .ret false

namespace Server

variable (g : Server)

/-- Store new bytes for the script. Subscribers are told of a change, which needs a path and a value
that fits into a message. -/
def store (c : ℕ) (bytes : Bytes) : Option Answer := do
  let cell ← g.cells[c]?
  if bytes = cell.bytes then some ⟨.lua (.ret true), [], g⟩
  else if cell.notifying then
    let place ← g.place .characteristic c
    if bytes.length ≤ dbusMaximumArrayLength then
      some ⟨.lua (.ret true), [valueSignal place.path bytes], g.setCell c { cell with bytes }⟩
    else none
  else some ⟨.lua (.ret true), [], g.setCell c { cell with bytes }⟩

/-- `setValue`: the data type and the value are checked before anything else. -/
def setValue (c : ℕ) (v t : LuaValue) : Option Answer :=
  match luaiCheckTypeBleDataType t with
  | .raise => some ⟨.lua .raise, [], g⟩
  | .ret type =>
    if overruns type v then none
    else
      match convertedBytes type v with
      | none => some ⟨.lua (refusal type v), [], g⟩
      | some bytes => g.store c (narrowed bytes)

/-! ## What clients are told -/

end Server

/-- A property as clients are told it, unless its value does not go into a message. -/
structure Fact where
  name : CStr
  signature : Signature
  value : Option DBusValue

/-- The entry for a fact in a dump of all of them. -/
def Fact.entry (fact : Fact) : Option DBusValue :=
  fact.value.map (propertyEntry fact.name fact.signature)

/-- The UUID of an attribute. The script chooses it, and only UTF-8 goes into a message. -/
def uuidFact (uuid : CStr) : Fact :=
  ⟨blePropertyUuid, ['s'], if validUtf8 uuid then some (.string uuid) else none⟩

/-- What an advertisement tells about itself never changes. -/
def advertisementFacts : List Fact :=
  [⟨blePropertyType, ['s'], some (.string advertisementTypeDefault)⟩,
    ⟨blePropertyManufacturerData, "a{qv}".toList, some (.array "{qv}".toList
      [.dictEntry (.uint16 0xBEEF) (.variant ['a', 'y'] (.byteArray manufacturerData))])⟩,
    ⟨blePropertyDiscoverable, ['b'], some (.boolean advertisementDiscoverableDefault)⟩,
    ⟨blePropertyDiscoverableTimeout, ['q'],
      some (.uint16 advertisementDiscoverableTimeoutDefault)⟩,
    ⟨blePropertyIncludes, ['a', 's'], some (.array ['a', 's'] [])⟩,
    ⟨blePropertyDuration, ['q'], some (.uint16 advertisementDurationDefault)⟩,
    ⟨blePropertyTimeout, ['q'], some (.uint16 advertisementTimeoutDefault)⟩,
    ⟨blePropertyMinInterval, ['u'], some (.uint32 advertisementMinIntervalDefault)⟩,
    ⟨blePropertyMaxInterval, ['u'], some (.uint32 advertisementMaxIntervalDefault)⟩]

def serviceFacts (uuid : CStr) (place : Place) : List Fact :=
  [uuidFact uuid,
    ⟨blePropertyDevice, ['o'], some (.objectPath place.parentPath)⟩,
    ⟨blePropertyPrimary, ['b'], some (.boolean true)⟩]

def characteristicFacts (uuid : CStr) (place : Place) (bytes : Bytes) : List Fact :=
  [uuidFact uuid,
    ⟨blePropertyService, ['o'], some (.objectPath place.parentPath)⟩,
    ⟨blePropertyFlags, ['a', 's'],
      some (.array ['s'] (flagNames characteristicFlags characteristicFlagsAllEnabled))⟩,
    ⟨blePropertyValue, ['a', 'y'],
      if bytes.length ≤ dbusMaximumArrayLength then some (.byteArray bytes) else none⟩]

def descriptorFacts (uuid : CStr) (place : Place) : List Fact :=
  [uuidFact uuid,
    ⟨blePropertyCharacteristic, ['o'], some (.objectPath place.parentPath)⟩,
    ⟨blePropertyFlags, ['a', 's'],
      some (.array ['s'] (flagNames descriptorFlags descriptorFlagsAllEnabled.toUInt32))⟩,
    ⟨blePropertyValue, ['a', 'y'], some (.byteArray [])⟩]

/-- The interface of the attributes of a kind. -/
def Kind.interface : Kind → CStr
  | service => bluezGattServiceInterface
  | characteristic => bluezGattCharacteristicInterface
  | descriptor => bluezGattDescriptorInterface

namespace Server

variable (g : Server)

/-- The bytes a characteristic holds. -/
def bytes (c : ℕ) : Bytes := ((g.cells[c]?).map Cell.bytes).getD []

/-- What an attribute with a place tells about itself. -/
def attributeFacts (kind : Kind) (c : ℕ) (uuid : CStr) (place : Place) : List Fact :=
  match kind with
  | .service => serviceFacts uuid place
  | .characteristic => characteristicFacts uuid place (g.bytes c)
  | .descriptor => descriptorFacts uuid place

/-- What an attribute tells about itself, once it has a place. -/
def kindFacts (kind : Kind) (c : ℕ) : List Fact :=
  match g.attributeAt kind c with
  | some ⟨uuid, some place⟩ => g.attributeFacts kind c uuid place
  | _ => []

/-- What an object tells about itself. A device tells nothing. -/
def facts : Obj → List Fact
  | .device _ => []
  | .advertisement _ => advertisementFacts
  | .service s => g.kindFacts .service s
  | .characteristic c => g.kindFacts .characteristic c
  | .descriptor k => g.kindFacts .descriptor k

/-- The entry of an attribute among those of a device. -/
def kindEntry (kind : Kind) (c : ℕ) : Option DBusValue := do
  let place ← g.place kind c
  let entries ← (g.kindFacts kind c).mapM Fact.entry
  some (objectEntry place.path kind.interface entries)

/-- The entry of an object among those of a device. -/
def entry : Obj → Option DBusValue
  | .service s => g.kindEntry .service s
  | .characteristic c => g.kindEntry .characteristic c
  | .descriptor k => g.kindEntry .descriptor k
  | _ => none

/-- What a device tells about everything below it. -/
def managedEntries (d : ℕ) : Option (List DBusValue) :=
  (managedObjects g.children d).mapM g.entry

/-! ## What clients ask -/

/-- The message is left to the library. -/
def left (m : Message) : Answer := ⟨.handled .notYetHandled m, [], g⟩

/-- The message is answered with one method return. -/
def reply (m : Message) (body : List DBusValue) (g' : Server) : Answer :=
  ⟨.handled .handled m, [methodReturn body], g'⟩

/-- Calls of the interface of properties. `Get` answers with nothing and writes the value into the
request, and `Set` is not answered. -/
def properties (o : Obj) (m : Message) : Option Answer :=
  if m.isMethodCall dbusInterfaceProperties dbusMethodGet then
    match getPropertyNameFromPropertiesGetMessage m with
    | none => some ⟨.handled .handled m, [], g⟩
    | some name =>
      match (g.facts o).find? fun fact => fact.name = name with
      | none => some (reply m [] g)
      | some fact => fact.value.map fun v =>
        reply { m with body := m.body ++ [.variant fact.signature v] } [] g
  else if m.isMethodCall dbusInterfaceProperties dbusMethodSet then
    some ⟨.handled .handled m, [], g⟩
  else if m.isMethodCall dbusInterfaceProperties dbusMethodGetAll then
    ((g.facts o).mapM Fact.entry).map fun entries => reply m [.array "{sv}".toList entries] g
  else some (g.left m)

/-- A client writes a value: an array of a type of fixed size, of which as many bytes are stored as
it has items. An empty array is left to the library, and no subscriber is told. -/
def write (c : ℕ) (cell : Cell) (m : Message) : Option Answer :=
  match m.body with
  | .array elem items :: _ =>
    if isFixedSignature elem then
      match items with
      | [] => some (g.left m)
      | items => some (reply m [] (g.setCell c { cell with bytes := writtenBytes items }))
    else none
  | _ => none

/-- Calls of the methods of a characteristic. -/
def characteristicCall (c : ℕ) (cell : Cell) (m : Message) : Option Answer :=
  if m.isMethodCall bluezGattCharacteristicInterface bluezMethodReadValue then
    if cell.bytes.length ≤ dbusMaximumArrayLength then
      some (reply m [.byteArray cell.bytes] g)
    else none
  else if m.isMethodCall bluezGattCharacteristicInterface bluezMethodWriteValue then
    g.write c cell m
  else if m.isMethodCall bluezGattCharacteristicInterface bluezMethodStartNotify then
    some (reply m [] (g.setCell c { cell with notifying := true }))
  else if m.isMethodCall bluezGattCharacteristicInterface bluezMethodStopNotify then
    some (reply m [] (g.setCell c { cell with notifying := false }))
  else some (g.left m)

/-- Calls of the methods of an object. Only devices and characteristics have any that answer. -/
def call (o : Obj) (m : Message) : Option Answer :=
  match o with
  | .device d =>
    if m.isMethodCall dbusInterfaceObjectManager dbusMethodGetManagedObjects then
      (g.managedEntries d).map fun entries =>
        reply m [.array "{oa{sa{sv}}}".toList entries] g
    else some (g.left m)
  | .characteristic c => (g.cells[c]?).bind fun cell => g.characteristicCall c cell m
  | _ => some (g.left m)

/-- A message reaches an object if it is registered, and needs an interface. -/
def deliver (o : Obj) (m : Message) : Option Answer :=
  if o ∈ g.objects then
    m.interface.bind fun interface =>
      if interface = dbusInterfaceProperties then g.properties o m else g.call o m
  else some (g.left m)

/-! ## The steps -/

/-- One step of the server. Answers of BlueZ and reuse of memory go unnoticed. -/
def step : Machine Op Server Reply Message := fun op g =>
  match op with
  | .createDevice deviceName => some ⟨.created (.device g.devices.length), [],
      { g with devices := g.devices ++ [⟨deviceName, none⟩] }⟩
  | .createService uuid =>
    some ⟨.created (.service (g.attributes .service).length), [], g.create .service uuid⟩
  | .createCharacteristic uuid =>
    some ⟨.created (.characteristic (g.attributes .characteristic).length), [],
      g.create .characteristic uuid⟩
  | .createDescriptor uuid =>
    some ⟨.created (.descriptor (g.attributes .descriptor).length), [],
      g.create .descriptor uuid⟩
  | .add kind _ p c => (g.add kind p c).map fun r => ⟨.bool r.1, [], r.2⟩
  | .registerDevice env d => g.register env d
  | .setPowered env d powered =>
    g.setAdapterProperty bluezAdapterPropertyPowered env d powered
  | .setDiscoverable env d discoverable =>
    g.setAdapterProperty bluezAdapterPropertyDiscoverable env d discoverable
  | .setNotifying c notifying => (g.notify c notifying).map fun g => ⟨.none, [], g⟩
  | .setValue c v t => g.setValue c v t
  | .deliver o m => g.deliver o m
  | .applicationReply _ _ | .advertReply _ _ | .reuseMemory _ _ => some ⟨.none, [], g⟩
  | .fini _ => none

end Server

end BleSim
