import BleSim.DeviceList

/-!
# The controllers of the devices

A device holds a handle on the virtual controller that was opened for it last, and the path of
that controller as a string. `ControllerStep` says what a step does to them; from it follow that
no two devices hold the same handle (`HandleInv`) and, as long as nothing is finalised, that
every path is made from the number of controllers opened before (`ControllerInv`).
-/

namespace BleSim

open Outcomes WriteOnce Intrusive

/-! ## What a step does -/

/-- The fields of a device that its controller rests on. -/
def Device.adapter (x : Device) : Ptr CStr × Option ℕ × Bool :=
  (x.controller, x.virtualController, x.initialised)

/-- What a step does to the controllers. -/
inductive ControllerStep (op : Op) (σ σ' : State) : Prop
  | kept :
      (∀ (d : ℕ) (x' : Device), σ'.devices[d]? = some x' →
        (∃ x, σ.devices[d]? = some x ∧ x'.adapter = x.adapter) ∨
          x'.virtualController = none ∧ x'.initialised = false) →
      σ'.openControllers = σ.openControllers → σ'.controllersOpened = σ.controllersOpened →
      σ'.controllerCount = σ.controllerCount → (∀ o ∈ σ.finalised, o ∈ σ'.finalised) →
      ControllerStep op σ σ'
  | opened {env : RegisterEnv} {d index : ℕ} {x x' : Device} :
      op = .registerDevice env d → ¬ σ.NameTaken d → env.vhciOpen = some index →
      σ.device d = .ok x →
      (∀ e : ℕ, σ'.devices[e]? = if d = e then some x' else σ.devices[e]?) →
      x'.controller = .block σ.strings.size (adapterPath σ.controllerCount) →
      x'.virtualController = some σ.controllersOpened →
      σ'.openControllers = σ.openControllers ++ [(σ.controllersOpened, index)] →
      σ'.controllersOpened = σ.controllersOpened + 1 →
      σ'.controllerCount = σ.controllerCount + 1 → σ'.finalised = σ.finalised →
      ControllerStep op σ σ'
  | closed {d : ℕ} {x : Device} :
      op = .fini (.device d) → σ.device d = .ok x → σ'.devices = σ.devices →
      σ'.openControllers = vhciClose σ.openControllers x.virtualController →
      σ'.controllersOpened = σ.controllersOpened →
      σ'.controllerCount = σ.controllerCount → σ'.finalised = .device d :: σ.finalised →
      ControllerStep op σ σ'

/-- A step after which every device has its controller. -/
theorem ControllerStep.of_adapter {op : Op} {σ σ' : State}
    (hdevices : σ'.devices.map Device.adapter = σ.devices.map Device.adapter)
    (hopen : σ'.openControllers = σ.openControllers)
    (hopened : σ'.controllersOpened = σ.controllersOpened)
    (hcount : σ'.controllerCount = σ.controllerCount)
    (hfin : ∀ o ∈ σ.finalised, o ∈ σ'.finalised) : ControllerStep op σ σ' := by
  refine .kept (fun d x' hx' => Or.inl ?_) hopen hopened hcount hfin
  have hget := congrArg (fun l => l[d]?) hdevices
  simp only [List.getElem?_map, hx', Option.map_some] at hget
  obtain ⟨x, hx, heq⟩ := Option.map_eq_some_iff.mp hget.symm
  exact ⟨x, hx, heq.symm⟩

/-- A registration opens a controller unless the name is taken or the kernel refuses. -/
theorem ControllerStep.of_register {σ σ' : State} {l : List ℕ} (hlist : ListInv σ l)
    (hpointers : PointersInv σ) {env : RegisterEnv} {d : ℕ} {b : Bool}
    (hregister : deviceRegister env d σ = .ok (b, σ')) :
    ControllerStep (.registerDevice env d) σ σ' := by
  obtain ⟨x, hx, ⟨e, -, -, rfl⟩ | ⟨hnone, -, strings, a, -, -, rfl⟩⟩ :=
    deviceRegister_cases hpointers hregister
  · -- the name is taken, and nothing changes
    exact .of_adapter rfl rfl rfl rfl fun _ ho => ho
  have hget := (State.device_eq_ok.mp hx).2
  have hafter := State.getElem?_afterRegister hget env strings a
    (σ.bus.sent ++ env.requests σ.bus.paths d (adapterPath σ.controllerCount))
  cases hopen : env.vhciOpen with
  | some index =>
    refine .opened rfl (State.not_nameTaken hx hnone) hopen hx hafter rfl ?_ ?_ ?_ ?_ rfl
    all_goals simp [State.afterRegister, Device.afterRegister, hopen]
  | none =>
    have hfails : env.succeeds σ.bus.paths d = false := by
      by_contra hsucceeds
      have hsome := (RegisterEnv.of_succeeds (eq_true_of_ne_false hsucceeds)).1
      rw [hopen] at hsome
      cases hsome
    have hinit : x.initialised = false := by
      by_contra hinit
      exact (hlist.notMem_of_deviceGetDevice hpointers hx hnone).1
        ((hlist.listed d).mpr ⟨x, hget, eq_true_of_ne_false hinit⟩)
    refine .kept (fun e x' hx' => ?_) ?_ ?_ ?_ fun _ ho => ho
    · rw [hafter e] at hx'
      split_ifs at hx'
      · cases hx'
        right
        simp [Device.afterRegister, hopen, hfails, hinit]
      · exact Or.inl ⟨x', hx', rfl⟩
    all_goals simp [State.afterRegister, hopen]

/-- A finalisation closes the controller of a device. -/
theorem ControllerStep.of_fini {σ σ' : State} (hpointers : PointersInv σ) {o : Obj}
    (hfini : finiObject o σ = .ok σ') : ControllerStep (.fini o) σ σ' := by
  by_cases ho : ∃ d, o = .device d
  · obtain ⟨d, rfl⟩ := ho
    obtain ⟨x, hx, rfl⟩ := hpointers.finiObject_device hfini
    exact .closed rfl hx rfl rfl rfl rfl rfl
  · obtain ⟨-, -, rfl⟩ := hpointers.finiObject_other (fun d hd => ho ⟨d, hd⟩) hfini
    exact .of_adapter rfl rfl rfl rfl fun o' ho' => List.mem_cons_of_mem o ho'

theorem exec_controllerStep {σ σ' : State} {l : List ℕ} (hlist : ListInv σ l)
    (hpointers : PointersInv σ) {op : Op} {r : Reply} (hexec : exec op σ = .ok (r, σ')) :
    ControllerStep op σ σ' := by
  cases exec_deviceStep hexec with
  | created =>
    refine .kept (fun d x' hx' => ?_) rfl rfl rfl fun _ ho => ho
    rw [getElem?_createDevice] at hx'
    split_ifs at hx'
    · -- a new device holds no handle
      cases hx'
      exact Or.inr ⟨rfl, rfl⟩
    · exact Or.inl ⟨x', hx', rfl⟩
  | registered hregister => exact .of_register hlist hpointers hregister
  | answered _ _ =>
    refine .of_adapter ?_ rfl rfl rfl fun _ ho => ho
    exact State.map_modify_same _ _ _ _ fun _ => rfl
  | advertAnswered _ _ =>
    refine .of_adapter ?_ rfl rfl rfl fun _ ho => ho
    exact State.map_modify_same _ _ _ _ fun _ => rfl
  | finalised hfini => exact .of_fini hpointers hfini
  | frame _ _ hframe =>
    refine .of_adapter (hframe.map_eq _ fun _ => rfl) hframe.openControllers
      hframe.controllersOpened hframe.controllerCount fun o ho => ?_
    rwa [hframe.finalised]

/-! ## Handles -/

/-- No two devices hold the same handle, and every initialised device holds one. -/
structure HandleInv (σ : State) : Prop where
  lt : ∀ (d : ℕ) (x : Device) (handle : ℕ), σ.devices[d]? = some x →
    x.virtualController = some handle → handle < σ.controllersOpened
  distinct : ∀ (d e : ℕ) (x y : Device) (handle : ℕ), σ.devices[d]? = some x →
    σ.devices[e]? = some y → x.virtualController = some handle →
    y.virtualController = some handle → d = e
  initialised : ∀ (d : ℕ) (x : Device), σ.devices[d]? = some x → x.initialised = true →
    x.virtualController.isSome = true

/-- A device with a handle is an old one. -/
theorem exists_adapter {σ σ' : State}
    (hdevices : ∀ (d : ℕ) (x' : Device), σ'.devices[d]? = some x' →
      (∃ x, σ.devices[d]? = some x ∧ x'.adapter = x.adapter) ∨
        x'.virtualController = none ∧ x'.initialised = false) {d handle : ℕ} {x' : Device}
    (hx' : σ'.devices[d]? = some x') (hhandle : x'.virtualController = some handle) :
    ∃ x, σ.devices[d]? = some x ∧ x.virtualController = some handle ∧
      x'.controller = x.controller := by
  rcases hdevices d x' hx' with ⟨x, hx, hadapter⟩ | ⟨hnone, -⟩
  · exact ⟨x, hx, (congrArg (fun k => k.2.1) hadapter).symm.trans hhandle,
      congrArg Prod.fst hadapter⟩
  · rw [hnone] at hhandle
    cases hhandle

/-- When a controller has been opened, a device with a handle holds the new one, or is an old
one. -/
theorem opened_cases {σ σ' : State} {d newest : ℕ} {x' : Device}
    (hget : ∀ e : ℕ, σ'.devices[e]? = if d = e then some x' else σ.devices[e]?)
    (hnew : x'.virtualController = some newest) {e handle : ℕ} {y : Device}
    (hy : σ'.devices[e]? = some y) (hhandle : y.virtualController = some handle) :
    (d = e ∧ x' = y ∧ newest = handle) ∨ σ.devices[e]? = some y := by
  rw [hget e] at hy
  split_ifs at hy with hde
  · cases hy
    exact Or.inl ⟨hde, rfl, Option.some.inj (hnew.symm.trans hhandle)⟩
  · exact Or.inr hy

namespace HandleInv

variable {σ σ' : State}

theorem of_isInitial (h : σ.IsInitial) : HandleInv σ := by
  obtain ⟨strings, buffers, fails, outOfMemory, rfl⟩ := h
  exact ⟨by simp [State.initial], by simp [State.initial], by simp [State.initial]⟩

theorem step (h : HandleInv σ) {op : Op} (hstep : ControllerStep op σ σ') : HandleInv σ' := by
  cases hstep with
  | kept hdevices _ hopened _ _ =>
    refine ⟨fun d x' handle hx' hhandle => ?_, fun d e x' y' handle hx' hy' hxh hyh => ?_,
      fun d x' hx' hinit => ?_⟩
    · obtain ⟨x, hx, hold, -⟩ := exists_adapter hdevices hx' hhandle
      rw [hopened]
      exact h.lt d x handle hx hold
    · obtain ⟨x, hx, hxold, -⟩ := exists_adapter hdevices hx' hxh
      obtain ⟨y, hy, hyold, -⟩ := exists_adapter hdevices hy' hyh
      exact h.distinct d e x y handle hx hy hxold hyold
    · rcases hdevices d x' hx' with ⟨x, hx, hadapter⟩ | ⟨-, hfalse⟩
      · rw [show x'.virtualController = x.virtualController from
          congrArg (fun k => k.2.1) hadapter]
        exact h.initialised d x hx ((congrArg (fun k => k.2.2) hadapter).symm.trans hinit)
      · rw [hfalse] at hinit
        cases hinit
  | @opened env d index x x' _ _ _ _ hget _ hnew _ hopened _ _ =>
    refine ⟨fun e y handle hy hhandle => ?_, fun e e' y y' handle hy hy' hyh hyh' => ?_,
      fun e y hy hinit => ?_⟩
    · rw [hopened]
      rcases opened_cases hget hnew hy hhandle with ⟨-, -, rfl⟩ | hy
      · exact Nat.lt_succ_self _
      · exact Nat.lt_succ_of_lt (h.lt e y handle hy hhandle)
    · -- the new handle is none of the old ones
      rcases opened_cases hget hnew hy hyh with ⟨hde, -, hnewest⟩ | hold
      · rcases opened_cases hget hnew hy' hyh' with ⟨hde', -, -⟩ | hold'
        · exact hde.symm.trans hde'
        · exact absurd (h.lt e' y' _ hold' hyh') (hnewest ▸ Nat.lt_irrefl _)
      · rcases opened_cases hget hnew hy' hyh' with ⟨-, -, hnewest⟩ | hold'
        · exact absurd (h.lt e y _ hold hyh) (hnewest ▸ Nat.lt_irrefl _)
        · exact h.distinct e e' y y' handle hold hold' hyh hyh'
    · rw [hget e] at hy
      split_ifs at hy
      · cases hy
        rw [hnew]
        rfl
      · exact h.initialised e y hy hinit
  | closed _ _ hdevices _ hopened _ _ =>
    -- a closed controller leaves its handle where it was: handles are not used again
    refine ⟨?_, ?_, ?_⟩
    · rw [hdevices, hopened]
      exact h.lt
    · rw [hdevices]
      exact h.distinct
    · rw [hdevices]
      exact h.initialised

end HandleInv

/-! ## Paths -/

/-- A device is named after the number of controllers opened before its own, which is open. -/
structure ControllerInv (σ : State) : Prop where
  named : ∀ (d : ℕ) (x : Device) (handle : ℕ), σ.devices[d]? = some x →
    x.virtualController = some handle → (∃ index, (handle, index) ∈ σ.openControllers) ∧
      ∃ id, x.controller = .block id (adapterPath (UInt32.ofNat (handle + 1)))
  controllerCount : σ.controllerCount = UInt32.ofNat (σ.controllersOpened + 1)

namespace ControllerInv

variable {σ σ' : State}

theorem of_isInitial (h : σ.IsInitial) : ControllerInv σ := by
  obtain ⟨strings, buffers, fails, outOfMemory, rfl⟩ := h
  exact ⟨by simp [State.initial], rfl⟩

/-- As long as nothing is finalised, a step keeps the controllers open. -/
theorem step (h : ControllerInv σ) {op : Op} (hop : op.NoFini) (hstep : ControllerStep op σ σ') :
    ControllerInv σ' := by
  cases hstep with
  | kept hdevices hopen hopened hcount _ =>
    refine ⟨fun d x' handle hx' hhandle => ?_, ?_⟩
    · obtain ⟨x, hx, hold, hcontroller⟩ := exists_adapter hdevices hx' hhandle
      rw [hopen, hcontroller]
      exact h.named d x handle hx hold
    · rw [hcount, hopened]
      exact h.controllerCount
  | @opened env d index x x' _ _ _ _ hget hcontroller hnew hopen hopened hcount _ =>
    refine ⟨fun e y handle hy hhandle => ?_, ?_⟩
    · rw [hopen]
      rcases opened_cases hget hnew hy hhandle with ⟨-, rfl, rfl⟩ | hy
      · rw [← h.controllerCount]
        exact ⟨⟨index, List.mem_append_right _ List.mem_cons_self⟩, _, hcontroller⟩
      · obtain ⟨⟨i, hmem⟩, hpath⟩ := h.named e y handle hy hhandle
        exact ⟨⟨i, List.mem_append_left _ hmem⟩, hpath⟩
    · rw [hcount, hopened, h.controllerCount]
      simp only [UInt32.ofNat_add]
      rfl
  | closed hfini _ _ _ _ _ _ =>
    rw [hfini] at hop
    exact hop.elim

end ControllerInv

end BleSim
