import BleSim.Registering
import BleSim.TypingTheorems

/-!
# Failed registrations

`device_register` undoes nothing when a step fails: a registration that returns false is atomic
only if it did not get past the check of the name. What it leaves behind stands in the way of
the next attempt: a path that is registered already is refused, and every attempt that opens a
controller overwrites the handle of the one before.
-/

namespace BleSim

open Outcomes WriteOnce Intrusive

/-! ## Atomicity -/

/-- The library accepts every path that is not registered yet. -/
def AcceptsFresh (accepts : Accepts) : Prop :=
  ∀ (paths : List CStr) (path : CStr), path ∉ paths → accepts paths path = true

/-- Nothing outside the process stands in the way of a new device. -/
structure RegisterEnv.Favourable (env : RegisterEnv) : Prop where
  accepts : AcceptsFresh env.accepts
  vhciOpen : env.vhciOpen.isSome = true
  applicationMessage : env.bluez.applicationMessage = true
  advertisementMessage : env.bluez.advertisementMessage = true

/-- An open controller whose handle no device holds. -/
def State.LostController (σ : State) (handle : ℕ) : Prop :=
  handle ∈ σ.openControllers.map Prod.fst ∧
    ∀ x ∈ σ.devices, x.virtualController ≠ some handle

/-- A failed registration of a device was atomic: what it works on is as before, and unless the
name is taken a new attempt that nothing stands in the way of succeeds, with no controller
lost. -/
structure RegisterAtomic (σ σ' : State) (d : ℕ) : Prop where
  device : σ'.device d = σ.device d
  registered : σ'.bus.registered = σ.bus.registered
  openControllers : σ'.openControllers = σ.openControllers
  pending : σ'.bus.pending = σ.bus.pending
  controllerCount : σ'.controllerCount = σ.controllerCount
  deviceListHead : σ'.deviceListHead = σ.deviceListHead
  next : σ'.devices.map Device.next = σ.devices.map Device.next
  lost : ∀ handle, σ'.LostController handle → σ.LostController handle
  retry : ¬ σ.NameTaken d → ∀ env : RegisterEnv, env.Favourable →
    ∃ σ'', deviceRegister env d σ' = .ok (true, σ'') ∧
      ∀ handle, σ''.LostController handle → σ.LostController handle

/-- A registration that gets past the check of the name gives the device a new block as the
path of its controller. -/
theorem State.device_afterRegister_ne {σ : State} (hpointers : PointersInv σ) {d : ℕ} {x : Device}
    (hx : σ.device d = .ok x) (env : RegisterEnv) (strings : Heap CStr) (a : Advertisement)
    (sent : List Message) : (σ.afterRegister env d strings a sent).device d ≠ σ.device d := by
  intro hsame
  have hx' : (σ.afterRegister env d strings a sent).device d = .ok _ :=
    State.device_modify _ hx rfl rfl
  rw [hx', hx] at hsame
  have hcontroller : x.controller = .block σ.strings.size (adapterPath σ.controllerCount) :=
    (congrArg Device.controller (Except.ok.inj hsame)).symm
  have hslot := State.slot_device (State.device_eq_ok.mp hx).2 .controller
  have hbound := hpointers.owns.bounded (.device d .controller) σ.strings.size _
    (hslot.trans hcontroller)
  exact Nat.lt_irrefl _ hbound

/-- A registration that returns false is atomic exactly when a device of its name is in the
list. -/
theorem deviceRegister_atomic_iff {σ σ' : State} (hreach : Reachable σ) (env : RegisterEnv) (d : ℕ)
    (hfail : deviceRegister env d σ = .ok (false, σ')) :
    RegisterAtomic σ σ' d ↔ σ.NameTaken d := by
  have hpointers := PointersInv.of_reachable hreach
  obtain ⟨x, hx, ⟨e, hfound, -, rfl⟩ | ⟨hnone, -, strings, a, -, -, rfl⟩⟩ :=
    deviceRegister_cases hpointers hfail
  · have htaken : σ'.NameTaken d := ⟨x, e, hx, hfound⟩
    refine ⟨fun _ => htaken, fun _ => ?_⟩
    exact ⟨rfl, rfl, rfl, rfl, rfl, rfl, rfl, fun _ hlost => hlost,
      fun hfree => absurd htaken hfree⟩
  · constructor
    · intro hatomic
      exact absurd hatomic.device (State.device_afterRegister_ne hpointers hx env strings a _)
    · exact fun htaken => absurd htaken (State.not_nameTaken hx hnone)

/-- What a registration meets when only the request `RegisterApplication` cannot be made. -/
def noApplicationMessage : RegisterEnv :=
  ⟨fun paths path => !paths.contains path, some 1, ⟨false, true, true⟩⟩

/-- The theorem where a second device of the same name is registered. -/
theorem deviceRegister_atomic_iff_same_name :
    RegisterAtomic
      (State.after [.createDevice "lamp".toList, .registerDevice allSucceeds 0,
        .createDevice "lamp".toList])
      (State.after [.createDevice "lamp".toList, .registerDevice allSucceeds 0,
        .createDevice "lamp".toList]) 1 ↔
      (State.after [.createDevice "lamp".toList, .registerDevice allSucceeds 0,
        .createDevice "lamp".toList]).NameTaken 1 :=
  deviceRegister_atomic_iff (State.reachable_after (by decide) fun _ _ => trivial) allSucceeds 1 rfl

/-- A registration that fails at the request `RegisterApplication` leaves the path of the device
registered. -/
theorem deviceRegister_not_atomic : ¬ ∀ (σ σ' : State) (env : RegisterEnv) (d : ℕ),
    Reachable σ → deviceRegister env d σ = .ok (false, σ') → RegisterAtomic σ σ' d := by
  intro h
  have hatomic := h (State.after [.createDevice "lamp".toList])
    (State.after [.createDevice "lamp".toList, .registerDevice noApplicationMessage 0])
    noApplicationMessage 0 (State.reachable_after (by decide) fun _ _ => trivial) rfl
  have hlength := congrArg List.length hatomic.registered
  exact absurd hlength (by decide)

/-! ## The next attempt -/

/-- A library that refuses registered paths does not let a device through whose path is
registered already. -/
theorem deviceRegister_of_registered {σ σ' : State} (hpointers : PointersInv σ) {env : RegisterEnv}
    {d : ℕ} {b : Bool} (hregistered : devicePath d ∈ σ.bus.paths)
    (hrefuses : ∀ path ∈ σ.bus.paths, env.accepts σ.bus.paths path = false)
    (h : deviceRegister env d σ = .ok (b, σ')) : b = false := by
  obtain ⟨x, -, ⟨-, -, rfl, -⟩ | ⟨-, rfl, -⟩⟩ := deviceRegister_cases hpointers h
  · rfl
  · have hpublishes : env.publishesDevice σ.bus.paths d = false := by
      unfold RegisterEnv.publishesDevice
      rw [hrefuses _ hregistered, Bool.and_false]
    simp [RegisterEnv.succeeds, RegisterEnv.publishesAdvert, RegisterEnv.requestsApplication,
      hpublishes]

/-- A registration that fails after the path of the device has been registered can only be
followed by registrations of the device that fail. -/
theorem deviceRegister_retry_fails {σ σ₁ σ₂ : State} (hreach : Reachable σ) {env env' : RegisterEnv}
    {d : ℕ} {b : Bool} (hfail : deviceRegister env d σ = .ok (false, σ₁))
    (hpublishes : env.publishesDevice σ.bus.paths d = true) (hfree : ¬ σ.NameTaken d)
    (hrefuses : ∀ path ∈ σ₁.bus.paths, env'.accepts σ₁.bus.paths path = false)
    (hretry : deviceRegister env' d σ₁ = .ok (b, σ₂)) : b = false := by
  have hreach₁ : Reachable σ₁ := hreach.step (r := .bool false) (.registerDevice env d) trivial (by
    simp only [exec, hfail, ok_bind])
  refine deviceRegister_of_registered (.of_reachable hreach₁) ?_ hrefuses hretry
  obtain ⟨x, hx, ⟨e, hfound, -, -⟩ | ⟨-, -, strings, a, -, -, rfl⟩⟩ :=
    deviceRegister_cases (.of_reachable hreach) hfail
  · exact absurd ⟨x, e, hx, hfound⟩ hfree
  · unfold State.afterRegister
    rw [hpublishes]
    simp [Connection.paths]

-- the second attempt is refused the path, and the controller of the first is lost
example : ((execAll [.createDevice "lamp".toList, .registerDevice noApplicationMessage 0,
    .registerDevice ⟨noApplicationMessage.accepts, some 2, ⟨true, true, true⟩⟩ 0]
      State.empty).map fun result =>
    (result.2.openControllers, result.2.devices.map Device.virtualController))
      = .ok ([(0, 1), (1, 2)], [some 1]) := by decide

end BleSim
