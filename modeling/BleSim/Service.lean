import BleSim.Characteristic

/-!
# Services (`service.c`)
-/

namespace BleSim

open Outcomes WriteOnce Intrusive

/-! ## Life of a service -/

/-- `service_init`. -/
def serviceInit (strings : Heap CStr) (uuid : CStr) (primary : Bool) (origin : Origin) :
    Service × Heap CStr :=
  let (uuid, strings) := strings.alloc uuid
  ({ node :=
      { uuid
        parentPath := .null
        objectPath := .null
        origin
        next := none }
     primary
     characteristics := { head := none, count := 0 } }, strings)

/-- `service_fini`: only a service made in C frees its characteristics. -/
def serviceFini (s : ℕ) (σ : State) : Outcome State := do
  let x ← σ.service s
  let σ := { σ with
    strings := ((σ.strings.free x.node.uuid).free x.node.parentPath).free x.node.objectPath
    finalised := .service s :: σ.finalised }
  if x.node.origin = .c then
    let σ ← loop .divergence
      (fun c σ => do
        let y ← σ.characteristic c
        let σ ← characteristicFree c σ
        .ok (y.node.next, { σ with
          services := σ.services.modify s fun x =>
            { x with characteristics.head := y.node.next } }))
      σ.characteristics.length x.characteristics.head σ
    .ok { σ with services := σ.services.modify s fun x => { x with node.next := none } }
  else .ok σ

/-- `service_free`. -/
def serviceFree (s : ℕ) (σ : State) : Outcome State := do
  let σ ← serviceFini s σ
  .ok { σ with freedStructs := .service s :: σ.freedStructs }

/-! ## Characteristics of a service -/

/-- `service_get_characteristic`. -/
def serviceGetCharacteristic (s : ℕ) (uuid : CStr) (σ : State) : Outcome (Option ℕ) := do
  let x ← σ.service s
  getChild .characteristic x.characteristics uuid σ

/-- `service_add_characteristic`. -/
def serviceAddCharacteristic (accepts : Accepts) (s c : ℕ) (σ : State) :
    Outcome (Bool × State) := do
  let x ← σ.service s
  let y ← σ.characteristic c
  if x.node.objectPath = .null then .ok (false, σ)
  else addChild .characteristic accepts s x.node.objectPath x.characteristics c y.node σ

/-! ## D-Bus -/

def serviceGetUuid (σ : State) (x : Service) : Iter → Writer → Outcome Writer :=
  appendField σ.strings .string x.node.uuid

def serviceGetDevicePath (σ : State) (x : Service) : Iter → Writer → Outcome Writer :=
  appendField σ.strings .objectPath x.node.parentPath

def serviceGetPrimary (x : Service) (iter : Iter) (w : Writer) : Outcome Writer :=
  w.appendBasic iter (.boolean x.primary)

/-- `service_properties`. -/
def serviceProperties (σ : State) (object : Outcome Service) : List Property :=
  [⟨blePropertyUuid, ['s'], getFromObject object (serviceGetUuid σ)⟩,
    ⟨blePropertyDevice, ['o'], getFromObject object (serviceGetDevicePath σ)⟩,
    ⟨blePropertyPrimary, ['b'], getFromObject object serviceGetPrimary⟩]

/-- `service_get_object`. -/
def serviceGetObject (σ : State) (x : Service) : Iter → Writer → Outcome Writer :=
  dbusutilsGetObjectData σ.strings (serviceProperties σ (.ok x)) x.node.objectPath
    bluezGattServiceInterface

end BleSim
