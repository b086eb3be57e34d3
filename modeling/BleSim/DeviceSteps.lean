import BleSim.Registering

/-!
# What a step does to the devices

Of all steps only a few touch more of a device than its list of services: the creation of a
device, its registration, the replies to its two requests, and its finalisation. `DeviceStep`
says so once; what is known of the devices is then carried through a run by these few cases.
-/

namespace BleSim

open Outcomes WriteOnce Intrusive

/-- A device without its list of services. -/
def Device.own (x : Device) : Device := { x with services := ⟨none, 0⟩ }

/-- The devices, their list and their controllers are as before, but for the services; no
registration is undone and no request is sent or answered. -/
structure DeviceFrame (σ σ' : State) : Prop where
  devices : σ'.devices.map Device.own = σ.devices.map Device.own
  deviceListHead : σ'.deviceListHead = σ.deviceListHead
  controllerCount : σ'.controllerCount = σ.controllerCount
  openControllers : σ'.openControllers = σ.openControllers
  controllersOpened : σ'.controllersOpened = σ.controllersOpened
  finalised : σ'.finalised = σ.finalised
  registered : ∃ entries, σ'.bus.registered = σ.bus.registered ++ entries
  pending : σ'.bus.pending = σ.bus.pending

/-- What a step that returns `r` does to the devices. -/
inductive DeviceStep : Op → State → Reply → State → Prop
  | created {deviceName : CStr} {σ : State} {r : Reply} :
      DeviceStep (.createDevice deviceName) σ r (luaiCreateDevice deviceName σ).2
  | registered {env : RegisterEnv} {d : ℕ} {b : Bool} {σ σ' : State} :
      deviceRegister env d σ = .ok (b, σ') → DeviceStep (.registerDevice env d) σ (.bool b) σ'
  | answered {d : ℕ} {success : Bool} {σ : State} {r : Reply} :
      .device d ∈ σ.bus.pending → (success = true → ∃ x, σ.device d = .ok x) →
      DeviceStep (.applicationReply d success) σ r { σ.answer (.device d) with
        devices := σ.devices.modify d fun x =>
          { x with applicationRegistered := success || x.applicationRegistered } }
  | advertAnswered {d : ℕ} {success : Bool} {x : Device} {σ : State} {r : Reply} :
      .advertisement d ∈ σ.bus.pending → σ.device d = .ok x →
      DeviceStep (.advertReply d success) σ r { σ.answer (.advertisement d) with
        devices := σ.devices.modify d fun x =>
          { x with advertisement.registered := success || x.advertisement.registered } }
  | finalised {o : Obj} {σ σ' : State} {r : Reply} :
      finiObject o σ = .ok σ' → DeviceStep (.fini o) σ r σ'
  | frame {op : Op} {σ σ' : State} {r : Reply} :
      (∀ env d, op ≠ .registerDevice env d) →
      (∀ d success, op = .applicationReply d success → .device d ∉ σ.bus.pending) →
      DeviceFrame σ σ' → DeviceStep op σ r σ'

/-! ## Steps that leave the devices alone -/

namespace DeviceFrame

variable {σ σ' : State}

theorem refl (σ : State) : DeviceFrame σ σ :=
  ⟨rfl, rfl, rfl, rfl, rfl, rfl, ⟨[], (List.append_nil _).symm⟩, rfl⟩

/-- Any function of a device that does not depend on its services is as before. -/
theorem map_eq (h : DeviceFrame σ σ') {α : Type} (f : Device → α) (hf : ∀ x, f x.own = f x) :
    σ'.devices.map f = σ.devices.map f := by
  have hown := congrArg (List.map f) h.devices
  rwa [List.map_map, List.map_map, show f ∘ Device.own = f from funext hf] at hown

end DeviceFrame

theorem deviceFrame_refuse (σ : State) (kind : Kind) (c : ℕ) (node : Node) (path : CStr) :
    DeviceFrame σ (σ.refuse kind c node path) := by
  unfold State.refuse
  cases kind <;> exact ⟨rfl, rfl, rfl, rfl, rfl, rfl, ⟨[], (List.append_nil _).symm⟩, rfl⟩

theorem deviceFrame_attach (σ : State) (kind : Kind) (p c : ℕ) (node : Node) (path : Ptr CStr)
    (children : Children) : DeviceFrame σ (σ.attach kind p c node path children) := by
  unfold State.attach
  cases kind with
  | service =>
    refine ⟨?_, rfl, rfl, rfl, rfl, rfl, ⟨_, rfl⟩, rfl⟩
    exact State.map_modify_same _ _ _ _ fun _ => rfl
  | characteristic => exact ⟨rfl, rfl, rfl, rfl, rfl, rfl, ⟨_, rfl⟩, rfl⟩
  | descriptor => exact ⟨rfl, rfl, rfl, rfl, rfl, rfl, ⟨_, rfl⟩, rfl⟩

theorem ValueFrame.deviceFrame {σ σ' : State} (h : ValueFrame σ σ') : DeviceFrame σ σ' := by
  obtain ⟨⟨b, cs, sent, rfl⟩, -, -⟩ := h
  exact ⟨rfl, rfl, rfl, rfl, rfl, rfl, ⟨[], (List.append_nil _).symm⟩, rfl⟩

theorem deviceSetAdapterProperty_frame {property : CStr} {env : PropertyEnv} {d : ℕ}
    {value b : Bool} {σ σ' : State}
    (h : deviceSetAdapterProperty property env d value σ = .ok (b, σ')) :
    DeviceFrame σ σ' := by
  obtain rfl | ⟨message, -, rfl⟩ := deviceSetAdapterProperty_cases h
  · exact .refl σ'
  · exact ⟨rfl, rfl, rfl, rfl, rfl, rfl, ⟨[], (List.append_nil _).symm⟩, rfl⟩

/-! ## Every step -/

theorem exec_deviceStep {op : Op} {σ σ' : State} {r : Reply} (h : exec op σ = .ok (r, σ')) :
    DeviceStep op σ r σ' := by
  have hsame : ∀ {τ : State}, τ.devices = σ.devices → τ.deviceListHead = σ.deviceListHead →
      τ.controllerCount = σ.controllerCount → τ.openControllers = σ.openControllers →
      τ.controllersOpened = σ.controllersOpened → τ.finalised = σ.finalised → τ.bus = σ.bus →
      DeviceFrame σ τ := by
    intro τ h₁ h₂ h₃ h₄ h₅ h₆ h₇
    exact ⟨congrArg _ h₁, h₂, h₃, h₄, h₅, h₆, ⟨[], by rw [h₇, List.append_nil]⟩, by rw [h₇]⟩
  cases op with
  | createDevice deviceName => cases h; exact .created
  | createService uuid =>
    cases h
    exact .frame (by simp) (by simp) (hsame rfl rfl rfl rfl rfl rfl rfl)
  | createCharacteristic uuid =>
    cases h
    exact .frame (by simp) (by simp) (hsame rfl rfl rfl rfl rfl rfl rfl)
  | createDescriptor uuid =>
    cases h
    exact .frame (by simp) (by simp) (hsame rfl rfl rfl rfl rfl rfl rfl)
  | add kind accepts p c =>
    obtain ⟨⟨b, σ₁⟩, hadd, h⟩ := bind_eq_ok.mp h
    cases h
    cases addTo_cases hadd with
    | rejected _ => exact .frame (by simp) (by simp) (.refl σ)
    | refused _ _ => exact .frame (by simp) (by simp) (deviceFrame_refuse σ kind c _ _)
    | added _ _ => exact .frame (by simp) (by simp) (deviceFrame_attach σ kind p c _ _ _)
  | registerDevice env d =>
    obtain ⟨⟨b, σ₁⟩, hreg, h⟩ := bind_eq_ok.mp h
    cases h
    exact .registered hreg
  | setPowered env d powered =>
    obtain ⟨⟨b, σ₁⟩, hset, h⟩ := bind_eq_ok.mp h
    cases h
    exact .frame (by simp) (by simp) (deviceSetAdapterProperty_frame hset)
  | setDiscoverable env d discoverable =>
    obtain ⟨⟨b, σ₁⟩, hset, h⟩ := bind_eq_ok.mp h
    cases h
    exact .frame (by simp) (by simp) (deviceSetAdapterProperty_frame hset)
  | setNotifying c notifying =>
    obtain ⟨σ₁, hset, h⟩ := bind_eq_ok.mp h
    cases h
    exact .frame (by simp) (by simp) (characteristicSetNotifying_frame hset).deviceFrame
  | setValue c v t =>
    obtain ⟨⟨exit, σ₁⟩, hset, h⟩ := bind_eq_ok.mp h
    cases h
    exact .frame (by simp) (by simp) (luaiCharacteristicSetValue_frame hset).deviceFrame
  | deliver object message =>
    simp only [exec, ite_eq_ok, bind_eq_ok] at h
    obtain ⟨-, ⟨result, request, σ₁⟩, hhandle, h⟩ | ⟨-, h⟩ := h
    · cases h
      exact .frame (by simp) (by simp) (dbusutilsObjectHandleMessage_frame hhandle).deviceFrame
    · cases h
      exact .frame (by simp) (by simp) (.refl σ)
  | applicationReply d success =>
    simp only [exec, ite_eq_ok, bind_eq_ok] at h
    obtain ⟨hpending, σ₁, hreply, h⟩ | ⟨hpending, h⟩ := h
    · cases h
      have hdevice := onRegisterApplicationReply_device hreply
      obtain rfl := onRegisterApplicationReply_spec hreply
      exact .answered hpending hdevice
    · cases h
      refine .frame (by simp) (fun e _ heq => ?_) (.refl σ)
      cases heq
      exact hpending
  | advertReply d success =>
    simp only [exec, ite_eq_ok, bind_eq_ok] at h
    obtain ⟨hpending, σ₁, hreply, h⟩ | ⟨-, h⟩ := h
    · cases h
      obtain ⟨x, hx, rfl⟩ := onRegisterAdvertReply_spec hreply
      exact .advertAnswered hpending hx
    · cases h
      exact .frame (by simp) (by simp) (.refl σ)
  | reuseMemory strings buffers =>
    cases h
    exact .frame (by simp) (by simp) (hsame rfl rfl rfl rfl rfl rfl rfl)
  | fini o =>
    obtain ⟨σ₁, hfini, h⟩ := bind_eq_ok.mp h
    cases h
    exact .finalised hfini

end BleSim
