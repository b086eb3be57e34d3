import BleSim.Controllers
import BleSim.TypingTheorems

/-!
# Controller paths and adapter indices

`device_init_controller` predicts the index of the adapter it opens from a counter of successful
opens. The kernel gives every new controller the lowest index that is free, and releases the
index when the controller is closed. The prediction is right as long as the two agree.
-/

namespace BleSim

open Outcomes WriteOnce Intrusive Decimal

/-! ## The kernel -/

/-- The indices in use: 0 is that of the default controller. -/
def State.usedIndices (σ : State) : List ℕ := 0 :: σ.openControllers.map Prod.snd

/-- The lowest index that is free. -/
def LowestFree (σ : State) (index : ℕ) : Prop :=
  index ∉ σ.usedIndices ∧ ∀ i < index, i ∈ σ.usedIndices

theorem LowestFree.unique {σ : State} {i j : ℕ} (hi : LowestFree σ i) (hj : LowestFree σ j) :
    i = j := by
  rcases Nat.lt_trichotomy i j with hlt | heq | hlt
  · exact absurd (hj.2 i hlt) hi.1
  · exact heq
  · exact absurd (hi.2 j hlt) hj.1

/-- A controller that the step opens gets the lowest index that is free. -/
def KernelNumbers (op : Op) (σ : State) : Prop :=
  ∀ env d index, op = .registerDevice env d → env.vhciOpen = some index → LowestFree σ index

/-! ## Names and indices -/

/-- Every initialised device is named after the index of its own controller. -/
def ControllersNamed (σ : State) : Prop :=
  ∀ d x, σ.device d = .ok x → x.initialised = true → ∃ handle index,
    x.virtualController = some handle ∧ (handle, index) ∈ σ.openControllers ∧
      (∀ i, (handle, i) ∈ σ.openControllers → i = index) ∧
      σ.strings.read x.controller = baseAdapterPath ++ decimal index

/-- When the step opens a controller, the counter is the lowest index that is free. -/
def CountsInStep (op : Op) (σ : State) : Prop :=
  ∀ env d index, op = .registerDevice env d → env.vhciOpen = some index → ¬ σ.NameTaken d →
    LowestFree σ σ.controllerCount.toNat

/-- Every device that is still there is named after the index of its controller. -/
structure AdapterInv (σ : State) : Prop where
  named : ∀ (d : ℕ) (x : Device) (handle : ℕ), σ.devices[d]? = some x →
    .device d ∉ σ.finalised → x.virtualController = some handle →
    ∃ index id, (handle, index) ∈ σ.openControllers ∧
      x.controller = .block id (baseAdapterPath ++ decimal index)
  opened : ∀ c ∈ σ.openControllers, c.1 < σ.controllersOpened
  unique : ∀ handle i j, (handle, i) ∈ σ.openControllers → (handle, j) ∈ σ.openControllers → i = j

namespace AdapterInv

variable {σ σ' : State}

theorem of_isInitial (h : σ.IsInitial) : AdapterInv σ := by
  obtain ⟨strings, buffers, fails, outOfMemory, rfl⟩ := h
  exact ⟨by simp [State.initial], by simp [State.initial], by simp [State.initial]⟩

theorem mem_vhciClose {openControllers : List (ℕ × ℕ)} {virtualController : Option ℕ} {c : ℕ × ℕ} :
    c ∈ vhciClose openControllers virtualController ↔
      c ∈ openControllers ∧ virtualController ≠ some c.1 := by
  cases virtualController with
  | none => simp [vhciClose]
  | some handle =>
    simp only [vhciClose, List.mem_filter, bne_iff_ne, ne_eq, Option.some.injEq]
    exact and_congr_right fun _ => not_congr eq_comm

theorem step (h : AdapterInv σ) (hhandles : HandleInv σ) {op : Op} (hkernel : KernelNumbers op σ)
    (hcounts : CountsInStep op σ) (hstep : ControllerStep op σ σ') : AdapterInv σ' := by
  cases hstep with
  | kept hdevices hopen hopened _ hfin =>
    refine ⟨fun d x' handle hx' halive hhandle => ?_, by rw [hopen, hopened]; exact h.opened,
      by rw [hopen]; exact h.unique⟩
    obtain ⟨x, hx, hold, hcontroller⟩ := exists_adapter hdevices hx' hhandle
    rw [hopen, hcontroller]
    exact h.named d x handle hx (fun hd => halive (hfin _ hd)) hold
  | @opened env d index x x' hop hfree hvhci _ hget hcontroller hnew hopen hopened _ hfin =>
    -- the index the kernel gives is the one the counter predicts
    have hindex : index = σ.controllerCount.toNat :=
      (hkernel env d index hop hvhci).unique (hcounts env d index hop hvhci hfree)
    refine ⟨fun e y handle hy halive hhandle => ?_, fun c hc => ?_, fun handle i j hi hj => ?_⟩
    · rw [hopen]
      rcases opened_cases hget hnew hy hhandle with ⟨-, rfl, rfl⟩ | hy
      · rw [hindex]
        exact ⟨_, _, List.mem_append_right _ List.mem_cons_self, hcontroller⟩
      · rw [hfin] at halive
        obtain ⟨i, id, hmem, hpath⟩ := h.named e y handle hy halive hhandle
        exact ⟨i, id, List.mem_append_left _ hmem, hpath⟩
    · rw [hopen] at hc
      rw [hopened]
      rcases List.mem_append.mp hc with hc | hc
      · exact Nat.lt_succ_of_lt (h.opened c hc)
      · rw [List.mem_singleton.mp hc]
        exact Nat.lt_succ_self _
    · rw [hopen] at hi hj
      simp only [List.mem_append, List.mem_singleton, Prod.mk.injEq] at hi hj
      rcases hi with hi | ⟨rfl, rfl⟩
      · rcases hj with hj | ⟨rfl, rfl⟩
        · exact h.unique handle i j hi hj
        · exact absurd (h.opened _ hi) (Nat.lt_irrefl _)
      · rcases hj with hj | ⟨-, rfl⟩
        · exact absurd (h.opened _ hj) (Nat.lt_irrefl _)
        · rfl
  | @closed d x _ hx hdevices hopen hopened _ hfin =>
    have hget := (State.device_eq_ok.mp hx).2
    refine ⟨fun e y handle hy halive hhandle => ?_, fun c hc => ?_, fun handle i j hi hj => ?_⟩
    · rw [hdevices] at hy
      rw [hfin, List.mem_cons, not_or] at halive
      obtain ⟨i, id, hmem, hpath⟩ := h.named e y handle hy halive.2 hhandle
      refine ⟨i, id, ?_, hpath⟩
      rw [hopen, mem_vhciClose]
      refine ⟨hmem, fun hsame => halive.1 ?_⟩
      rw [hhandles.distinct d e x y handle hget hy hsame hhandle]
    · rw [hopen, mem_vhciClose] at hc
      rw [hopened]
      exact h.opened c hc.1
    · rw [hopen, mem_vhciClose] at hi hj
      exact h.unique handle i j hi.1 hj.1

theorem controllersNamed (h : AdapterInv σ) (hhandles : HandleInv σ) (hpointers : PointersInv σ) :
    ControllersNamed σ := by
  intro d x hx hinit
  obtain ⟨halive, hget⟩ := State.device_eq_ok.mp hx
  obtain ⟨handle, hhandle⟩ := Option.isSome_iff_exists.mp (hhandles.initialised d x hget hinit)
  obtain ⟨index, id, hmem, hpath⟩ := h.named d x handle hget halive hhandle
  refine ⟨handle, index, hhandle, hmem, fun i hi => h.unique handle i index hi hmem, ?_⟩
  exact hpointers.read_device hx (show x.field .controller = _ from hpath)

end AdapterInv

/-- In every run in which the counter is the lowest free index whenever a controller is opened, the
initialised devices are named after their controllers. -/
theorem controllers_named_of_run {σ₀ σ : State} (hinit : σ₀.IsInitial) {ops : List Op}
    (hkernel : AllSteps exec KernelNumbers ops σ₀) (hcounts : AllSteps exec CountsInStep ops σ₀)
    {replies : List Reply} (hrun : execAll ops σ₀ = .ok (replies, σ)) : ControllersNamed σ := by
  have hstart : Reachable σ₀ := ⟨σ₀, [], [], hinit, by simp, rfl⟩
  have hstep : ∀ op τ r τ', KernelNumbers op τ ∧ CountsInStep op τ →
      Reachable τ ∧ HandleInv τ ∧ AdapterInv τ → exec op τ = .ok (r, τ') →
      Reachable τ' ∧ HandleInv τ' ∧ AdapterInv τ' := by
    intro op τ r τ' hop hτ hexec
    obtain ⟨hreach, hhandles, hadapter⟩ := hτ
    obtain ⟨l, hlist⟩ := ListInv.of_reachable hreach
    have hstep := exec_controllerStep hlist (.of_reachable hreach) hexec
    exact ⟨hreach.step op trivial hexec, hhandles.step hstep,
      hadapter.step hhandles hop.1 hop.2 hstep⟩
  obtain ⟨hreach, hhandles, hadapter⟩ := AllSteps.invariant hstep (hkernel.and hcounts)
    ⟨hstart, .of_isInitial hinit, .of_isInitial hinit⟩ hrun
  exact hadapter.controllersNamed hhandles (.of_reachable hreach)

/-- Next to the default controller alone, the index 1 is the lowest free one. -/
theorem lowestFree_one {σ : State} (hnone : σ.openControllers = []) : LowestFree σ 1 := by
  unfold LowestFree State.usedIndices
  rw [hnone]
  exact ⟨by decide, by decide⟩

/-! ## Without finalisations -/

/-- The controllers have the indices from 1 on, in the order in which they were opened. -/
structure CountedInv (σ : State) : Prop where
  indices : σ.openControllers.map Prod.snd = (List.range σ.controllersOpened).map (· + 1)
  controllers : ControllerInv σ

namespace CountedInv

variable {σ σ' : State}

theorem lowestFree (h : CountedInv σ) : LowestFree σ (σ.controllersOpened + 1) := by
  have hused : ∀ i, i ∈ σ.usedIndices ↔ i < σ.controllersOpened + 1 := by
    intro i
    unfold State.usedIndices
    rw [h.indices, List.mem_cons, List.mem_map]
    constructor
    · rintro (rfl | ⟨j, hj, rfl⟩)
      · omega
      · exact Nat.succ_lt_succ (List.mem_range.mp hj)
    · intro hlt
      cases i with
      | zero => exact Or.inl rfl
      | succ j => exact Or.inr ⟨j, List.mem_range.mpr (by omega), rfl⟩
  refine ⟨fun hmem => ?_, fun i hi => (hused i).mpr hi⟩
  exact Nat.lt_irrefl _ ((hused _).mp hmem)

theorem step (h : CountedInv σ) {op : Op} (hop : op.NoFini) (hkernel : KernelNumbers op σ)
    (hstep : ControllerStep op σ σ') : CountedInv σ' := by
  refine ⟨?_, h.controllers.step hop hstep⟩
  cases hstep with
  | kept _ hopen hopened _ _ => rw [hopen, hopened, h.indices]
  | @opened env d index x x' hregister _ hvhci _ _ _ _ hopen hopened _ _ =>
    have hindex := (hkernel env d index hregister hvhci).unique h.lowestFree
    rw [hopen, hopened, List.map_append, h.indices, List.range_succ, List.map_append, hindex]
    rfl
  | closed hfini _ _ _ _ _ _ =>
    rw [hfini] at hop
    exact hop.elim

end CountedInv

/-- Without finalisations the counter is right until it wraps around. -/
theorem countsInStep_of_noFini {σ₀ : State} (hinit : σ₀.IsInitial) {ops : List Op}
    (hops : ∀ op ∈ ops, op.NoFini) (hkernel : AllSteps exec KernelNumbers ops σ₀)
    (hfew : AllSteps exec (fun _ σ => σ.controllersOpened < 2 ^ 32 - 1) ops σ₀) :
    AllSteps exec CountsInStep ops σ₀ := by
  have hstart : Reachable σ₀ ∧ CountedInv σ₀ := by
    refine ⟨⟨σ₀, [], [], hinit, by simp, rfl⟩, ?_, .of_isInitial hinit⟩
    obtain ⟨strings, buffers, fails, outOfMemory, rfl⟩ := hinit
    rfl
  have hstep : ∀ op σ, op.NoFini ∧ KernelNumbers op σ ∧ σ.controllersOpened < 2 ^ 32 - 1 →
      Reachable σ ∧ CountedInv σ → CountsInStep op σ ∧
        ∀ r σ', exec op σ = .ok (r, σ') → Reachable σ' ∧ CountedInv σ' := by
    intro op σ ⟨hop, hkernel, hfew⟩ ⟨hreach, hcounted⟩
    constructor
    · intro env d index _ _ _
      have hsize : UInt32.size = 2 ^ 32 := rfl
      have hcount : σ.controllerCount.toNat = σ.controllersOpened + 1 := by
        rw [hcounted.controllers.controllerCount]
        exact UInt32.toNat_ofNat_of_lt' (by omega)
      rw [hcount]
      exact hcounted.lowestFree
    · intro r σ' hexec
      obtain ⟨l, hlist⟩ := ListInv.of_reachable hreach
      exact ⟨hreach.step op trivial hexec,
        hcounted.step hop hkernel (exec_controllerStep hlist (.of_reachable hreach) hexec)⟩
  exact AllSteps.of_invariant hstep ((allSteps_of_forall hops σ₀).and (hkernel.and hfew)) hstart

/-! ## A run that keeps in step, and one that does not -/

/-- Two devices, of which the first is registered. -/
def firstOfTwo : List Op :=
  [.createDevice "lamp".toList, .createDevice "door".toList, .registerDevice allSucceeds 0]

/-- The theorem for two devices, of which the first is registered. -/
theorem controllers_named_of_run_first_of_two : ControllersNamed (State.after firstOfTwo) := by
  have hkernel : AllSteps exec KernelNumbers firstOfTwo State.empty := by
    refine ⟨?_, ?_, ?_, trivial⟩
    · intro env d index hop; cases hop
    · intro env d index hop; cases hop
    · intro env d index hop hvhci
      cases hop
      cases hvhci
      exact lowestFree_one rfl
  have hcounts : AllSteps exec CountsInStep firstOfTwo State.empty := by
    refine ⟨?_, ?_, ?_, trivial⟩
    · intro env d index hop; cases hop
    · intro env d index hop; cases hop
    · intro env d index _ _ _
      exact lowestFree_one rfl
  exact controllers_named_of_run State.isInitial_empty hkernel hcounts rfl

/-- The calls that create, register and finalise devices. -/
def Op.OnDevices : Op → Prop
  | .createDevice _ | .registerDevice _ _ | .fini (.device _) => True
  | _ => False

/-- A device that is finalised because its request could not be made, and another one after it. -/
def afterFailure : List Op :=
  [.createDevice "lamp".toList, .registerDevice ⟨fun _ _ => true, some 1, ⟨false, true, true⟩⟩ 0,
    .fini (.device 0), .createDevice "door".toList, .registerDevice allSucceeds 1]

/-- The index of a closed controller is given out again, and the counter is past it. -/
theorem not_controllers_named : ¬ ∀ (σ₀ σ : State) (ops : List Op) (replies : List Reply),
    σ₀.IsInitial → (∀ op ∈ ops, op.OnDevices) → AllSteps exec KernelNumbers ops σ₀ →
      execAll ops σ₀ = .ok (replies, σ) → ControllersNamed σ := by
  intro h
  have hops : ∀ op ∈ afterFailure, op.OnDevices := by
    intro op hop
    simp only [afterFailure, List.mem_cons, List.not_mem_nil, or_false] at hop
    rcases hop with rfl | rfl | rfl | rfl | rfl <;> trivial
  have hkernel : AllSteps exec KernelNumbers afterFailure State.empty := by
    refine ⟨?_, ?_, ?_, ?_, ?_, trivial⟩
    · intro env d index hop; cases hop
    · intro env d index hop hvhci
      cases hop
      cases hvhci
      exact lowestFree_one rfl
    · intro env d index hop; cases hop
    · intro env d index hop; cases hop
    · intro env d index hop hvhci
      cases hop
      cases hvhci
      exact lowestFree_one rfl
  have hnamed := h State.empty (State.after afterFailure) afterFailure _ State.isInitial_empty hops
    hkernel rfl
  obtain ⟨handle, index, -, hmem, -, hread⟩ := hnamed 1 _ rfl rfl
  have hopen : (State.after afterFailure).openControllers = [(1, 1)] := by decide
  rw [hopen, List.mem_singleton] at hmem
  cases hmem
  exact absurd hread (by decide)

end BleSim
