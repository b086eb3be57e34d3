import BleSim.ForestTheorems

/-!
# Failed adds

An add function that returns false because one of its own checks failed has changed nothing.
When D-Bus refuses the path, the child keeps a pointer to the path that was freed; later calls
take it for a path.
-/

namespace BleSim

open Outcomes WriteOnce Intrusive

/-- Every object, and everything that refers to objects, is as before. -/
structure SameObjects (σ σ' : State) : Prop where
  devices : σ'.devices = σ.devices
  services : σ'.services = σ.services
  characteristics : σ'.characteristics = σ.characteristics
  descriptors : σ'.descriptors = σ.descriptors
  deviceListHead : σ'.deviceListHead = σ.deviceListHead
  bus : σ'.bus = σ.bus
  finalised : σ'.finalised = σ.finalised

/-- A failed add was atomic: the objects are as before, and every later run is the one without
the failed call. -/
def Atomic (σ σ' : State) : Prop :=
  SameObjects σ σ' ∧ ∀ ops, execAll ops σ' = execAll ops σ

/-- The new path of a refused child is a block no field held before. -/
theorem not_sameObjects_refuse {σ : State} (h : PointersInv σ) {kind : Kind} {c : ℕ} {node : Node}
    (hn : (σ.nodes kind)[c]? = some node) (path : CStr) :
    ¬ SameObjects σ (σ.refuse kind c node path) := by
  intro hsame
  have hnodes := State.nodes_congr hsame.services hsame.characteristics hsame.descriptors kind
  rw [State.nodes_refuse, if_pos rfl] at hnodes
  have hget := congrArg (fun l => l[c]?) hnodes
  simp only [List.getElem?_modify_eq, hn] at hget
  have hpath : node.objectPath = .block σ.strings.size path :=
    (congrArg Node.objectPath (Option.some.inj hget)).symm
  have hbound := h.owns.bounded (.node kind c .objectPath) σ.strings.size path
    ((State.slot_node hn _).trans hpath)
  exact Nat.lt_irrefl _ hbound

/-- An add function that returns false is atomic exactly when one of its own checks failed: the
parent has no path, the child has an owner, or a sibling has the child's UUID. -/
theorem addTo_atomic_iff {σ σ' : State} (hreach : Reachable σ) (kind : Kind) (accepts : Accepts)
    (p c : ℕ) (hadd : addTo kind accepts p c σ = .ok (false, σ')) :
    Atomic σ σ' ↔ Rejects σ kind p c := by
  cases addTo_cases hadd with
  | rejected hrejects => exact ⟨fun _ => hrejects, fun _ => ⟨⟨rfl, rfl, rfl, rfl, rfl, rfl, rfl⟩,
      fun _ => rfl⟩⟩
  | refused hpasses haccept =>
    have hn := (State.node_eq_ok.mp hpasses.child).2
    constructor
    · intro hatomic
      exact absurd hatomic.1 (not_sameObjects_refuse (.of_reachable hreach) hn _)
    · exact fun hrejects => absurd hrejects hpasses.not_rejects

/-- The theorem where a service is added twice. -/
theorem addTo_atomic_iff_added_twice :
    Atomic (State.after [.createDevice "lamp".toList, .createService "180F".toList,
        .add .service (fun _ _ => true) 0 0])
      (State.after [.createDevice "lamp".toList, .createService "180F".toList,
        .add .service (fun _ _ => true) 0 0]) ↔
      Rejects (State.after [.createDevice "lamp".toList, .createService "180F".toList,
        .add .service (fun _ _ => true) 0 0]) .service 0 0 :=
  addTo_atomic_iff (State.reachable_after (by decide) fun _ _ => trivial) .service
    (fun _ _ => true) 0 0 rfl

/-- A service whose path D-Bus refuses is left with a path. -/
theorem addTo_not_atomic : ¬ ∀ (σ σ' : State) (kind : Kind) (accepts : Accepts) (p c : ℕ),
    Reachable σ → addTo kind accepts p c σ = .ok (false, σ') → Atomic σ σ' := by
  intro h
  have hatomic := h
    (State.after [.createDevice "lamp".toList, .createService "180F".toList])
    (State.after [.createDevice "lamp".toList, .createService "180F".toList,
      .add .service (fun _ _ => false) 0 0])
    .service (fun _ _ => false) 0 0 (State.reachable_after (by decide) fun _ _ => trivial) rfl
  have hservices := congrArg (List.map fun x : Service => x.node.objectPath) hatomic.1.services
  exact absurd hservices (by decide)

-- a characteristic can then be added to the service, which has no device
example : (addTo .characteristic (fun _ _ => true) 0 0 (State.after
    [.createDevice [], .createService [], .createCharacteristic []])).map Prod.fst
      = .ok false := by decide
example : (addTo .characteristic (fun _ _ => true) 0 0 (State.after
    [.createDevice [], .createService [], .add .service (fun _ _ => false) 0 0,
      .createCharacteristic []])).map Prod.fst = .ok true := by decide

end BleSim
