import BleSim.Pointers

/-!
# Finalising an object

Every `fini` function frees the strings and the value of its object. That of an object made in C
then frees the children in its list, from the head on.
-/

namespace BleSim

open Outcomes WriteOnce Intrusive

/-! ## The parts of `fini` -/

namespace State

/-- Finalise an object without going into its list: free its strings and its value. -/
def release (σ : State) (o : Obj) : State :=
  { σ with
    strings := σ.strings.freeAll σ.slot o.slots
    buffers := σ.buffers.free (σ.valueSlot o)
    finalised := o :: σ.finalised }

/-- Move the head of a parent's list. -/
def setHead (σ : State) (kind : Kind) (p : ℕ) (head : Option ℕ) : State :=
  match kind with
  | .service => { σ with devices := σ.devices.modify p fun x => { x with services.head := head } }
  | .characteristic =>
    { σ with services := σ.services.modify p fun x => { x with characteristics.head := head } }
  | .descriptor =>
    { σ with characteristics := σ.characteristics.modify p fun x =>
      { x with descriptors.head := head } }

end State

/-- The loop of the `fini` functions: free a child after its link has been read, and move the
head of the list on. -/
def freeChildren (kind : Kind) (p : ℕ) (free : ℕ → State → Outcome State) (head : Option ℕ)
    (σ : State) : Outcome State :=
  loop .divergence
    (fun c σ => do
      let n ← σ.node kind c
      let σ ← free c σ
      .ok (n.next, σ.setHead kind p n.next))
    (σ.nodes kind).length head σ

/-! ## The `fini` functions -/

section Equations

variable {σ : State}

theorem descriptorFini_eq {k : ℕ} {x : Descriptor} (hx : σ.descriptor k = .ok x) :
    descriptorFini k σ = .ok (σ.release (.descriptor k)) := by
  obtain ⟨-, hget⟩ := State.descriptor_eq_ok.mp hx
  have hn : (σ.nodes .descriptor)[k]? = some x.node := by simp [State.nodes, hget]
  simp [descriptorFini, hx, State.release, Heap.freeAll, Obj.slots, State.slot_node hn, Node.field,
    State.valueSlot, hget]

theorem characteristicFini_eq {c : ℕ} {x : Characteristic} (hx : σ.characteristic c = .ok x) :
    characteristicFini c σ =
      if x.node.origin = .c then
        freeChildren .descriptor c descriptorFree x.descriptors.head (σ.release (.characteristic c))
      else .ok (σ.release (.characteristic c)) := by
  obtain ⟨-, hget⟩ := State.characteristic_eq_ok.mp hx
  have hn : (σ.nodes .characteristic)[c]? = some x.node := by simp [State.nodes, hget]
  have hrelease : σ.release (.characteristic c) = { σ with
      strings := ((σ.strings.free x.node.uuid).free x.node.parentPath).free x.node.objectPath
      buffers := σ.buffers.free x.value
      finalised := .characteristic c :: σ.finalised } := by
    simp [State.release, Heap.freeAll, Obj.slots, State.slot_node hn, Node.field, State.valueSlot,
      hget]
  have hbody : (fun k (σ : State) => (do
        let n ← σ.node .descriptor k
        let σ ← descriptorFree k σ
        .ok (n.next, σ.setHead .descriptor c n.next) : Outcome (Option ℕ × State))) =
      fun k σ => (do
        let y ← σ.descriptor k
        let σ ← descriptorFree k σ
        .ok (y.node.next, { σ with
          characteristics := σ.characteristics.modify c fun x =>
            { x with descriptors.head := y.node.next } })) := by
    funext k σ
    simp only [State.node, State.nodes, State.access_map, State.descriptor, Kind.object]
    cases σ.access (.descriptor k) σ.descriptors k <;> rfl
  simp only [characteristicFini, hx, ok_bind, freeChildren, hrelease, hbody, State.nodes,
    List.length_map]

theorem serviceFini_eq {s : ℕ} {x : Service} (hx : σ.service s = .ok x) :
    serviceFini s σ =
      if x.node.origin = .c then do
        let σ ← freeChildren .characteristic s characteristicFree x.characteristics.head
          (σ.release (.service s))
        .ok { σ with services := σ.services.modify s fun x => { x with node.next := none } }
      else .ok (σ.release (.service s)) := by
  obtain ⟨-, hget⟩ := State.service_eq_ok.mp hx
  have hn : (σ.nodes .service)[s]? = some x.node := by simp [State.nodes, hget]
  have hrelease : σ.release (.service s) = { σ with
      strings := ((σ.strings.free x.node.uuid).free x.node.parentPath).free x.node.objectPath
      finalised := .service s :: σ.finalised } := by
    simp [State.release, Heap.freeAll, Obj.slots, State.slot_node hn, Node.field, State.valueSlot]
  have hbody : (fun c (σ : State) => (do
        let n ← σ.node .characteristic c
        let σ ← characteristicFree c σ
        .ok (n.next, σ.setHead .characteristic s n.next) : Outcome (Option ℕ × State))) =
      fun c σ => (do
        let y ← σ.characteristic c
        let σ ← characteristicFree c σ
        .ok (y.node.next, { σ with
          services := σ.services.modify s fun x =>
            { x with characteristics.head := y.node.next } })) := by
    funext c σ
    simp only [State.node, State.nodes, State.access_map, State.characteristic, Kind.object]
    cases σ.access (.characteristic c) σ.characteristics c <;> rfl
  simp only [serviceFini, hx, ok_bind, freeChildren, hrelease, hbody, State.nodes, List.length_map]

theorem deviceFini_eq {d : ℕ} {x : Device} (hx : σ.device d = .ok x) :
    deviceFini d σ =
      let σ' := { σ.release (.device d) with
        openControllers := vhciClose σ.openControllers x.virtualController }
      if x.origin = .c then freeChildren .service d serviceFree x.services.head σ' else .ok σ' := by
  obtain ⟨-, hget⟩ := State.device_eq_ok.mp hx
  have hrelease : σ.release (.device d) = { σ with
      strings := advertisementFini
        (((σ.strings.free x.controller).free x.deviceName).free x.objectPath) x.advertisement
      finalised := .device d :: σ.finalised } := by
    simp [State.release, Heap.freeAll, Obj.slots, State.slot_device hget, Device.field,
      advertisementFini, State.valueSlot]
  have hbody : (fun s (σ : State) => (do
        let n ← σ.node .service s
        let σ ← serviceFree s σ
        .ok (n.next, σ.setHead .service d n.next) : Outcome (Option ℕ × State))) =
      fun s σ => (do
        let y ← σ.service s
        let σ ← serviceFree s σ
        .ok (y.node.next, { σ with
          devices := σ.devices.modify d fun x =>
            { x with services.head := y.node.next } })) := by
    funext s σ
    simp only [State.node, State.nodes, State.access_map, State.service, Kind.object]
    cases σ.access (.service s) σ.services s <;> rfl
  simp only [deviceFini, hx, ok_bind, freeChildren, hrelease, hbody, State.nodes, List.length_map]

end Equations

end BleSim
