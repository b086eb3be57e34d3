import BleSim.Registrations

/-!
# Lifetimes

The collector decides when an object is finalised, while the process keeps pointers to objects
the collector does not see. Nothing dangles as long as no object is collected whose path, or
whose advertisement's path, is registered; no path is ever unregistered.
-/

namespace BleSim

open Outcomes WriteOnce

/-! ## Stored pointers -/

/-- The devices in the chain that starts at `device_list_head`. -/
inductive ListedDevice (σ : State) : ℕ → Prop
  | head {d : ℕ} : σ.deviceListHead = some d → ListedDevice σ d
  | next {d e : ℕ} {x : Device} : ListedDevice σ d → σ.devices[d]? = some x → x.next = some e →
      ListedDevice σ e

/-- The children in the list of a parent. -/
inductive ListedChild (σ : State) (kind : Kind) (p : ℕ) : ℕ → Prop
  | head {c : ℕ} {x : Children} : (σ.lists kind)[p]? = some x → x.head = some c →
      ListedChild σ kind p c
  | next {c e : ℕ} {n : Node} : ListedChild σ kind p c → (σ.nodes kind)[c]? = some n →
      n.next = some e → ListedChild σ kind p e

/-- The objects that pointers stored in the process lead to: those in the list of devices, in
the lists of parents that are still there, behind registered paths and in pending requests. -/
inductive Held (σ : State) : Obj → Prop
  | device {d : ℕ} : ListedDevice σ d → Held σ (.device d)
  | child {kind : Kind} {p c : ℕ} : kind.parent p ∉ σ.finalised → ListedChild σ kind p c →
      Held σ (kind.object c)
  | registered {o : Obj} : o ∈ σ.registeredObjects → Held σ o
  | pending {o : Obj} : o ∈ σ.bus.pending → Held σ o

/-- The object an object is finalised with: an advertisement is part of its device. -/
def Obj.lifetime : Obj → Obj
  | .advertisement d => .device d
  | o => o

/-- No stored pointer leads to an object that has been finalised. -/
def NothingDangling (σ : State) : Prop := ∀ o, Held σ o → o.lifetime ∉ σ.finalised

/-- Whatever a stored pointer leads to is registered. -/
theorem PointedInv.registered_of_held {σ : State} (h : PointedInv σ) {o : Obj} (ho : Held σ o) :
    o ∈ σ.registeredObjects := by
  cases ho with
  | device hd =>
    cases hd with
    | head hd => exact h.head _ hd
    | next _ hx hnext => exact h.next _ (List.mem_of_getElem? hx) _ hnext
  | child _ hc =>
    cases hc with
    | head hx hhead => exact h.heads _ _ (List.mem_of_getElem? hx) _ hhead
    | next _ hn hnext => exact h.links _ _ (List.mem_of_getElem? hn) _ hnext
  | registered ho => exact ho
  | pending ho => exact h.pending o ho

/-! ## Collecting objects -/

/-- A step that collects nothing, or an object that is not registered and whose advertisement is
not either. -/
def CollectsUnregistered : Op → State → Prop
  | .fini o, σ => ∀ o' ∈ σ.registeredObjects, o'.lifetime ≠ o
  | _, _ => True

/-- No registered object has been finalised. -/
def RegisteredAlive (σ : State) : Prop := ∀ o ∈ σ.registeredObjects, o.lifetime ∉ σ.finalised

/-- Whatever a change registers is still there, and it finalises one object at most. -/
theorem Change.registeredAlive {op : Op} {σ σ' : State} (hchange : Change op σ σ')
    (hpointers : PointersInv σ)
    (hcollects : ∀ o, op = .fini o → ∀ o' ∈ σ.registeredObjects, o'.lifetime ≠ o)
    (h : RegisteredAlive σ) : RegisteredAlive σ' := by
  have hgrow : ∀ {τ : State}, τ.finalised = σ.finalised →
      (∀ o ∈ τ.registeredObjects, o ∈ σ.registeredObjects ∨ o.lifetime ∉ σ.finalised) →
      RegisteredAlive τ := by
    intro τ hfin hregistered o ho
    rw [hfin]
    exact (hregistered o ho).elim (h o) id
  cases hchange with
  | refused hpasses _ =>
    exact hgrow (by simp [State.refuse]) fun o ho => Or.inl (by
      simpa [State.registeredObjects, State.refuse] using ho)
  | @added kind _ _ c _ _ _ _ hpasses _ =>
    refine hgrow (by simp [State.attach]) fun o ho => ?_
    rw [State.registeredObjects_attach, List.mem_append, List.mem_singleton] at ho
    rcases ho with ho | rfl
    · exact Or.inl ho
    · right
      have hfin := (State.node_eq_ok.mp hpasses.child).1
      cases kind <;> exact hfin
  | controller hinit =>
    obtain ⟨x, vc, oc, co, cc, -, rfl, -⟩ := deviceInitController_spec hinit
    exact h
  | @registered _ d o path _ hpublishes _ =>
    refine hgrow rfl fun o' ho => ?_
    simp only [State.registeredObjects, List.map_append, List.mem_append, List.map_cons,
      List.map_nil, List.mem_singleton] at ho
    rcases ho with ho | rfl
    · exact Or.inl ho
    · right
      cases hpublishes with
      | device hx => exact (State.device_eq_ok.mp hx).1
      | advertisement hx _ => exact (State.device_eq_ok.mp hx).1
  | advertised hinit =>
    obtain ⟨x, strings, a, i, j, k, -, rfl, -⟩ := deviceInitAdvertisement_spec hinit
    exact h
  | listed _ _ =>
    rw [State.listDevice_eq]
    exact h
  | valued _ hframe =>
    obtain ⟨b, cs, sent, rfl⟩ := hframe.rest
    exact h
  | answered hreply =>
    obtain rfl := onRegisterApplicationReply_spec hreply
    exact h
  | advertAnswered hreply =>
    obtain ⟨x, -, rfl⟩ := onRegisterAdvertReply_spec hreply
    exact h
  | finalised hfini =>
    obtain ⟨-, -, oc, rfl⟩ := hpointers.finiObject_spec hfini
    intro o ho hmem
    rcases List.mem_cons.mp hmem with heq | hmem
    · exact hcollects _ rfl o ho heq
    · exact h o ho hmem
  | _ => exact h

/-- What carries the run: the invariants of the pointers, and that the registered are alive. -/
structure LifetimeInv (σ : State) : Prop where
  pointers : PointersInv σ
  pointed : PointedInv σ
  alive : RegisteredAlive σ

theorem LifetimeInv.of_isInitial {σ : State} (h : σ.IsInitial) : LifetimeInv σ := by
  refine ⟨.of_isInitial h, .of_isInitial h, ?_⟩
  obtain ⟨strings, buffers, fails, outOfMemory, rfl⟩ := h
  simp [RegisteredAlive, State.registeredObjects, State.initial]

theorem LifetimeInv.step {op : Op} {σ σ' : State} {r : Reply} (hop : CollectsUnregistered op σ)
    (h : LifetimeInv σ) (hexec : exec op σ = .ok (r, σ')) : LifetimeInv σ' := by
  have hchange : ∀ {τ τ' : State}, Change op τ τ' →
      (∀ o, op = .fini o → ∀ o' ∈ τ.registeredObjects, o'.lifetime ≠ o) → LifetimeInv τ →
      LifetimeInv τ' := fun hchange hcollects h =>
    ⟨h.pointers.change hchange, h.pointed.change hchange h.pointers,
      hchange.registeredAlive h.pointers hcollects h.alive⟩
  by_cases hfini : ∃ o, op = .fini o
  · obtain ⟨o, rfl⟩ := hfini
    obtain ⟨σ₁, hfini, heq⟩ := bind_eq_ok.mp hexec
    cases heq
    refine hchange (.finalised hfini) (fun o' heq => ?_) h
    cases heq
    exact hop
  · exact (exec_changes hexec).invariant
      (fun τ τ' hc => hchange hc fun o heq => absurd ⟨o, heq⟩ hfini) h

/-- Collecting an object that is registered, or whose advertisement is, leaves the pointer to it
behind the registered path dangling. -/
theorem dangling_of_collects {σ σ' : State} {r : Reply} (hpointers : PointersInv σ) {o o' : Obj}
    (ho' : o' ∈ σ.registeredObjects) (hlifetime : o'.lifetime = o)
    (hexec : exec (.fini o) σ = .ok (r, σ')) : ¬ NothingDangling σ' := by
  obtain ⟨σ₁, hfini, heq⟩ := bind_eq_ok.mp hexec
  cases heq
  obtain ⟨-, -, oc, rfl⟩ := hpointers.finiObject_spec hfini
  intro hnothing
  refine hnothing o' (.registered ho') ?_
  rw [hlifetime]
  exact List.mem_cons_self

/-- In every run that collects only objects without a registered path, no stored pointer ever
dangles. -/
theorem nothingDangling_of_collectsUnregistered {σ₀ σ : State} (hinit : σ₀.IsInitial)
    {ops : List Op} {replies : List Reply} (hall : AllSteps exec CollectsUnregistered ops σ₀)
    (hrun : execAll ops σ₀ = .ok (replies, σ)) : NothingDangling σ := by
  have hinv : LifetimeInv σ := AllSteps.invariant
    (fun _ _ _ _ hop hinv hexec => LifetimeInv.step hop hinv hexec) hall (.of_isInitial hinit) hrun
  exact fun o ho => hinv.alive o (hinv.pointed.registered_of_held ho)

/-- A device with a service, which are registered, and a service that was refused and is
collected. -/
def lampWithSpare : List Op :=
  [.createDevice "lamp".toList, .createService "180F".toList, .createService "180F".toList,
    .registerDevice ⟨fun _ _ => true, some 1, ⟨true, true, true⟩⟩ 0,
    .add .service (fun _ _ => true) 0 0, .add .service (fun _ _ => true) 0 1, .fini (.service 1)]

/-- The theorem for this run: the other service is in the list of its device, which is in the list
of devices, and all that is held is registered and there. -/
theorem nothingDangling_of_collectsUnregistered_unused :
    NothingDangling (State.after lampWithSpare) ∧ ListedDevice (State.after lampWithSpare) 0 ∧
    ListedChild (State.after lampWithSpare) .service 0 0 ∧
    .service 0 ∈ (State.after lampWithSpare).registeredObjects ∧
    .device 0 ∈ (State.after lampWithSpare).bus.pending ∧
    (State.after lampWithSpare).finalised = [.service 1] := by
  obtain ⟨⟨replies, σ⟩, hrun⟩ := exists_of_isOk
    (show (execAll lampWithSpare State.empty).isOk = true by decide +kernel)
  obtain rfl : State.after lampWithSpare = σ := by rw [State.after, hrun]
  refine ⟨nothingDangling_of_collectsUnregistered State.isInitial_empty ?_ hrun, .head rfl,
    .head rfl rfl, by decide +kernel, by decide +kernel, by decide +kernel⟩
  refine ⟨trivial, trivial, trivial, trivial, trivial, trivial, ?_, trivial⟩
  have hothers : ∀ o ∈ (State.after lampWithSpare.dropLast).registeredObjects,
      o.lifetime ≠ .service 1 := by decide +kernel
  exact hothers

/-- A service that was added to a device can be collected all the same: no finaliser takes it out
of the device's list or unregisters its path. -/
theorem not_nothingDangling : ¬ ∀ σ, Reachable σ → NothingDangling σ := by
  intro h
  have hnothing := h (State.after [.createDevice "lamp".toList, .createService "180F".toList,
    .add .service (fun _ _ => true) 0 0, .fini (.service 0)])
    (State.reachable_after (by decide) fun _ _ => trivial)
  have hlisted : ListedChild (State.after [.createDevice "lamp".toList,
      .createService "180F".toList, .add .service (fun _ _ => true) 0 0, .fini (.service 0)])
      .service 0 0 := .head rfl rfl
  exact hnothing (.service 0) (.child (by decide) hlisted) (by decide)

end BleSim
