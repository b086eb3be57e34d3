import BleSim.Changes
import BleSim.Lib.Ownership

/-!
# The string fields of the objects

Every `char *` field of every object is a slot. In every reachable state no two slots hold the
same block, and a slot holds a live block as long as its object has not been finalised, except
for the object path of a child whose registration was refused (`PointersInv`).
-/

namespace BleSim

open Outcomes WriteOnce Intrusive

/-! ## Slots -/

/-- The string fields of a device and of its advertisement. -/
inductive DeviceField where
  | controller
  | deviceName
  | objectPath
  | advertPath
  | advertType
  | advertChannel
deriving DecidableEq

/-- The string fields of a list node. -/
inductive NodeField where
  | uuid
  | parentPath
  | objectPath
deriving DecidableEq

/-- The string fields of all objects. -/
inductive Slot where
  | device (d : ℕ) (f : DeviceField)
  | node (kind : Kind) (c : ℕ) (f : NodeField)
deriving DecidableEq

/-- Whether a field is part of the advertisement. -/
def DeviceField.IsAdvert : DeviceField → Prop
  | .advertPath | .advertType | .advertChannel => True
  | .controller | .deviceName | .objectPath => False

def Device.field (x : Device) : DeviceField → Ptr CStr
  | .controller => x.controller
  | .deviceName => x.deviceName
  | .objectPath => x.objectPath
  | .advertPath => x.advertisement.objectPath
  | .advertType => x.advertisement.type
  | .advertChannel => x.advertisement.secondaryChannel

def Node.field (n : Node) : NodeField → Ptr CStr
  | .uuid => n.uuid
  | .parentPath => n.parentPath
  | .objectPath => n.objectPath

/-- The object a slot belongs to. -/
def Slot.owner : Slot → Obj
  | .device d _ => .device d
  | .node kind c _ => kind.object c

/-- What a slot holds; NULL where there is no object. -/
def State.slot (σ : State) : Slot → Ptr CStr
  | .device d f => (σ.devices[d]?).elim .null fun x => x.field f
  | .node kind c f => ((σ.nodes kind)[c]?).elim .null fun n => n.field f

/-- The object path of a child without a parent: it may have been freed. -/
def State.Dangling (σ : State) (s : Slot) : Prop :=
  ∃ kind c, s = .node kind c .objectPath ∧ σ.slot (.node kind c .parentPath) = .null

/-- The slots whose blocks may have been freed. -/
def State.Freed (σ : State) (s : Slot) : Prop := s.owner ∈ σ.finalised ∨ σ.Dangling s

theorem Kind.object_injective {kind kind' : Kind} {c c' : ℕ} (h : kind.object c = kind'.object c') :
    kind = kind' ∧ c = c' := by
  cases kind <;> cases kind' <;> simp_all [Kind.object]

theorem State.slot_device {σ : State} {d : ℕ} {x : Device} (hx : σ.devices[d]? = some x)
    (f : DeviceField) : σ.slot (.device d f) = x.field f := by
  simp [State.slot, hx]

theorem State.slot_node {σ : State} {kind : Kind} {c : ℕ} {n : Node}
    (hn : (σ.nodes kind)[c]? = some n) (f : NodeField) : σ.slot (.node kind c f) = n.field f := by
  simp [State.slot, hn]

/-- The slots of an object, in the order in which its `fini` function frees them. -/
def Obj.slots : Obj → List Slot
  | .device d =>
    [.device d .controller, .device d .deviceName, .device d .objectPath, .device d .advertPath,
      .device d .advertType, .device d .advertChannel]
  | .service s =>
    [.node .service s .uuid, .node .service s .parentPath, .node .service s .objectPath]
  | .characteristic c =>
    [.node .characteristic c .uuid, .node .characteristic c .parentPath,
      .node .characteristic c .objectPath]
  | .descriptor k =>
    [.node .descriptor k .objectPath, .node .descriptor k .uuid, .node .descriptor k .parentPath]
  | .advertisement _ => []

theorem Obj.owner_of_mem_slots {o : Obj} {s : Slot} (hs : s ∈ o.slots) : s.owner = o := by
  cases o <;> simp only [Obj.slots, List.mem_cons, List.not_mem_nil, or_false] at hs
  case device => rcases hs with rfl | rfl | rfl | rfl | rfl | rfl <;> rfl
  all_goals rcases hs with rfl | rfl | rfl <;> rfl

theorem Obj.nodup_slots (o : Obj) : o.slots.Nodup := by
  cases o <;> simp [Obj.slots]

/-! ## The invariant -/

/-- The object path of the `d`-th device. -/
def devicePath (d : ℕ) : CStr := objectPathString emptyString deviceObjectName (UInt32.ofNat d)

/-- An advertisement that has not been assigned. -/
structure Advertisement.Unset (a : Advertisement) : Prop where
  objectPath : a.objectPath = .indeterminate
  type : a.type = .indeterminate
  secondaryChannel : a.secondaryChannel = .indeterminate

/-- An initialised advertisement of a device with the given path. -/
structure Advertisement.Named (a : Advertisement) (path : CStr) : Prop where
  objectPath : ∃ id, a.objectPath = .block id (objectPathString path advertisementObjectName 0)
  type : ∃ id, a.type = .block id advertisementTypeDefault
  secondaryChannel : ∃ id, a.secondaryChannel = .block id advertisementSecondaryChannelDefault
  manufacturerData : a.manufacturerData.length ≤ advertisementDataMaxSize

/-- What the fields of the `d`-th device hold. -/
structure Device.WellFormed (x : Device) (d : ℕ) : Prop where
  deviceName : ∃ id name, x.deviceName = .block id name
  objectPath : ∃ id, x.objectPath = .block id (devicePath d)
  controller : x.controller ≠ .indeterminate
  advertisement : x.advertisement.Unset ∨ x.advertisement.Named (devicePath d)
  origin : x.origin = .lua

/-- What the fields of a list node hold: a child with a parent has a path. -/
structure Node.WellFormed (n : Node) : Prop where
  uuid : ∃ id u, n.uuid = .block id u
  parentPath : n.parentPath ≠ .null → ∃ id path, n.parentPath = .block id path
  objectPath : n.objectPath ≠ .null → ∃ id path, n.objectPath = .block id path
  attached : n.parentPath ≠ .null → n.objectPath ≠ .null
  origin : n.origin = .lua

/-- What holds of the string fields in every reachable state. -/
structure PointersInv (σ : State) : Prop where
  owns : Owns σ.strings σ.slot σ.Freed
  devices : ∀ (d : ℕ) (x : Device), σ.devices[d]? = some x → x.WellFormed d
  nodes : ∀ kind, ∀ n ∈ σ.nodes kind, n.WellFormed
  deviceCount : σ.deviceCount = UInt32.ofNat σ.devices.length

namespace PointersInv

variable {σ σ' : State}

theorem of_isInitial (h : σ.IsInitial) : PointersInv σ := by
  obtain ⟨strings, buffers, fails, outOfMemory, rfl⟩ := h
  refine ⟨Owns.of_no_block fun s id a => ?_, fun d x hx => ?_, fun kind n hn => ?_, rfl⟩
  · cases s with
    | device d f => simp [State.slot, State.initial]
    | node kind c f => cases kind <;> simp [State.slot, State.initial, State.nodes]
  · simp [State.initial] at hx
  · cases kind <;> simp [State.initial, State.nodes] at hn

/-- Only the fields of an advertisement can lack an assignment. -/
theorem assigned (h : PointersInv σ) {s : Slot} (hs : σ.slot s = .indeterminate) :
    ∃ d f x, s = .device d f ∧ f.IsAdvert ∧ σ.devices[d]? = some x ∧ x.advertisement.Unset := by
  cases s with
  | device d f =>
    cases hx : σ.devices[d]? with
    | none => simp [State.slot, hx] at hs
    | some x =>
      rw [State.slot_device hx] at hs
      have hwf := h.devices d x hx
      -- only the fields of the advertisement are left out when a device is created
      have hadvert : f.IsAdvert := by
        cases f with
        | controller => exact absurd hs hwf.controller
        | deviceName =>
          obtain ⟨id, name, hname⟩ := hwf.deviceName
          exact absurd (hs.symm.trans hname) (by simp)
        | objectPath =>
          obtain ⟨id, hpath⟩ := hwf.objectPath
          exact absurd (hs.symm.trans hpath) (by simp)
        | advertPath => trivial
        | advertType => trivial
        | advertChannel => trivial
      refine ⟨d, f, x, rfl, hadvert, hx, ?_⟩
      rcases hwf.advertisement with hunset | hnamed
      · exact hunset
      · obtain ⟨i, hi⟩ := hnamed.objectPath
        obtain ⟨j, hj⟩ := hnamed.type
        obtain ⟨k, hk⟩ := hnamed.secondaryChannel
        cases f <;> simp_all [Device.field, DeviceField.IsAdvert]
  | node kind c f =>
    cases hn : (σ.nodes kind)[c]? with
    | none => simp [State.slot, hn] at hs
    | some n =>
      rw [State.slot_node hn] at hs
      have hwf := h.nodes kind n (List.mem_of_getElem? hn)
      obtain ⟨id, u, huuid⟩ := hwf.uuid
      cases f with
      | uuid => exact absurd (hs.symm.trans huuid) (by simp)
      | parentPath =>
        obtain ⟨i, path, hpath⟩ := hwf.parentPath (by rw [show n.parentPath = _ from hs]; simp)
        exact absurd (hs.symm.trans hpath) (by simp)
      | objectPath =>
        obtain ⟨i, path, hpath⟩ := hwf.objectPath (by rw [show n.objectPath = _ from hs]; simp)
        exact absurd (hs.symm.trans hpath) (by simp)

/-- A slot of an object that is still there, and does not dangle, can be read. -/
theorem pointsTo (h : PointersInv σ) {s : Slot} {id : ℕ} {a : CStr} (hs : ¬ σ.Freed s)
    (hblock : σ.slot s = .block id a) : σ.strings.PointsTo (σ.slot s) a :=
  ⟨id, h.owns.live s id a hs hblock, hblock⟩

/-- The UUID of an object that is still there can be read. -/
theorem read_uuid (h : PointersInv σ) {kind : Kind} {c : ℕ} {n : Node}
    (hn : σ.node kind c = .ok n) : ∃ id u, n.uuid = .block id u ∧ σ.strings.read n.uuid = u := by
  obtain ⟨hfin, hn⟩ := State.node_eq_ok.mp hn
  obtain ⟨id, u, huuid⟩ := (h.nodes kind n (List.mem_of_getElem? hn)).uuid
  have hslot := State.slot_node hn .uuid
  have hfreed : ¬ σ.Freed (.node kind c .uuid) := by
    rintro (howner | ⟨kind', c', heq, -⟩)
    · exact hfin howner
    · cases heq
  have hread := (h.pointsTo hfreed (hslot.trans huuid)).read
  rw [hslot] at hread
  exact ⟨id, u, huuid, hread⟩

/-- The fields of a device that is still there point to live blocks. -/
theorem pointsTo_device (h : PointersInv σ) {d : ℕ} {x : Device} (hx : σ.device d = .ok x)
    {f : DeviceField} {id : ℕ} {a : CStr} (hf : x.field f = .block id a) :
    σ.strings.PointsTo (x.field f) a := by
  obtain ⟨hfin, hx⟩ := State.device_eq_ok.mp hx
  have hslot := State.slot_device hx f
  have hfreed : ¬ σ.Freed (.device d f) := by
    rintro (howner | ⟨kind', c', heq, -⟩)
    · exact hfin howner
    · cases heq
  rw [← hslot]
  exact h.pointsTo hfreed (hslot.trans hf)

/-- The fields of a device that is still there can be read. -/
theorem read_device (h : PointersInv σ) {d : ℕ} {x : Device} (hx : σ.device d = .ok x)
    {f : DeviceField} {id : ℕ} {a : CStr} (hf : x.field f = .block id a) :
    σ.strings.read (x.field f) = a :=
  (h.pointsTo_device hx hf).read

/-- The path of a device that is still there. -/
theorem read_devicePath (h : PointersInv σ) {d : ℕ} {x : Device} (hx : σ.device d = .ok x) :
    σ.strings.read x.objectPath = devicePath d := by
  obtain ⟨id, hpath⟩ := (h.devices d x (State.device_eq_ok.mp hx).2).objectPath
  exact h.read_device hx (show x.field .objectPath = _ from hpath)

/-- The fields of an attached child that is still there point to live blocks. -/
theorem pointsTo_attached (h : PointersInv σ) {kind : Kind} {c : ℕ} {n : Node}
    (hn : σ.node kind c = .ok n) (hattached : n.parentPath ≠ .null) {f : NodeField} {id : ℕ}
    {a : CStr} (hf : n.field f = .block id a) : σ.strings.PointsTo (n.field f) a := by
  obtain ⟨hfin, hn⟩ := State.node_eq_ok.mp hn
  have hslot := State.slot_node hn f
  have hfreed : ¬ σ.Freed (.node kind c f) := by
    rintro (howner | ⟨kind', c', heq, hnull⟩)
    · exact hfin howner
    · cases heq
      rw [State.slot_node hn] at hnull
      exact hattached hnull
  rw [← hslot]
  exact h.pointsTo hfreed (hslot.trans hf)

/-- The paths of an attached child that is still there can be read. -/
theorem read_attached (h : PointersInv σ) {kind : Kind} {c : ℕ} {n : Node}
    (hn : σ.node kind c = .ok n) (hattached : n.parentPath ≠ .null) {f : NodeField} {id : ℕ}
    {a : CStr} (hf : n.field f = .block id a) : σ.strings.read (n.field f) = a :=
  (h.pointsTo_attached hn hattached hf).read

end PointersInv

end BleSim
