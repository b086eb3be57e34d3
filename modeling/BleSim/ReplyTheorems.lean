import BleSim.DeviceList
import BleSim.TypingTheorems

/-!
# Replies to `RegisterApplication`

A registration is over before BlueZ answers its requests. A success sets the flag of the device
the reply belongs to, in whatever order the replies come; an error is only logged, so a device
that has been registered stays in the list although BlueZ has refused its application.
-/

namespace BleSim

open Outcomes WriteOnce Intrusive

/-! ## Histories -/

/-- A step of a run, with what it returned and the states around it. -/
structure Event where
  before : State
  op : Op
  reply : Reply
  after : State

/-- The histories of the process and the states they lead to, the last step first. -/
inductive History : List Event → State → Prop
  | start {σ : State} : σ.IsInitial → History [] σ
  | step {h : List Event} {σ σ' : State} {op : Op} {r : Reply} :
      History h σ → exec op σ = .ok (r, σ') → History (⟨σ, op, r, σ'⟩ :: h) σ'

namespace History

variable {h : List Event} {σ : State}

theorem reachable (hrun : History h σ) : Reachable σ := by
  induction hrun with
  | start hinit => exact ⟨_, [], [], hinit, by simp, rfl⟩
  | step _ hexec ih => exact ih.step _ trivial hexec

/-- Every run has a history. -/
theorem of_run {ops : List Op} : ∀ {h : List Event} {σ₀ : State} {replies : List Reply},
    History h σ₀ → execAll ops σ₀ = .ok (replies, σ) →
      ∃ h', History (h' ++ h) σ ∧ h'.reverse.map Event.op = ops := by
  induction ops with
  | nil =>
    intro h σ₀ replies hrun hexec
    cases hexec
    exact ⟨[], hrun, rfl⟩
  | cons op ops ih =>
    intro h σ₀ replies hrun hexec
    obtain ⟨r, σ₁, rs, hfirst, hrest, rfl⟩ := runAll_cons_eq_ok.mp hexec
    obtain ⟨h', hrun', hops⟩ := ih (hrun.step hfirst) hrest
    refine ⟨h' ++ [⟨σ₀, op, r, σ₁⟩], ?_, ?_⟩
    · rwa [List.append_assoc]
    · simp [hops]

end History

/-- The step in which the answer to a `RegisterApplication` request of the device arrives. -/
def Event.Answers (e : Event) (d : ℕ) (success : Bool) : Prop :=
  e.op = .applicationReply d success ∧ .device d ∈ e.before.bus.pending

/-- The last answer to the device was an error, and no registration has returned true since. -/
def Rejected (d : ℕ) : List Event → Prop
  | [] => False
  | e :: h => e.Answers d false ∨ Succeeded d (e.op, e.reply) = false ∧ Rejected d h

/-! ## What the replies should do -/

/-- A device is no longer in use: it is neither initialised nor found, its adapter cannot be
asked for anything, and its name is free unless another device has taken it. -/
structure Dismissed (σ : State) (d : ℕ) : Prop where
  initialised : ∀ x, σ.devices[d]? = some x → x.initialised = false
  lookup : ∀ deviceName, deviceGetDevice deviceName σ ≠ .ok (some d)
  powered : ∀ x, σ.device d = .ok x → ∀ env powered,
    deviceSetPowered env d powered σ = .ok (false, σ)
  discoverable : ∀ x, σ.device d = .ok x → ∀ env discoverable,
    deviceSetDiscoverable env d discoverable σ = .ok (false, σ)
  name : ∀ e y, σ.device e = .ok y → σ.nameOf e = σ.nameOf d →
    (∀ i x, σ.devices[i]? = some x → x.initialised = true →
      .device i ∉ σ.finalised ∧ σ.nameOf i ≠ σ.nameOf d) →
    ∀ env, ∃ σ', deviceRegister env e σ = .ok (env.succeeds σ.bus.paths e, σ')

/-- The flags of the devices and the list are in step with the replies that have arrived. -/
structure RepliesReconciled (h : List Event) (σ : State) : Prop where
  registered : ∀ (d : ℕ) (x : Device), σ.devices[d]? = some x →
    (x.applicationRegistered = true ↔ ∃ e ∈ h, e.Answers d true)
  others : ∀ e ∈ h, ∀ d success, e.op = .applicationReply d success →
    ∀ d' : ℕ, d' ≠ d → e.after.devices[d']? = e.before.devices[d']?
  rejected : ∀ d, Rejected d h → Dismissed σ d

/-! ## The flag of a device -/

/-- The flag `application_registered` of a device is set. -/
def State.ApplicationRegistered (σ : State) (d : ℕ) : Prop :=
  ∃ x, σ.devices[d]? = some x ∧ x.applicationRegistered = true

theorem State.applicationRegistered_congr {σ σ' : State}
    (hdevices : σ'.devices.map Device.applicationRegistered =
      σ.devices.map Device.applicationRegistered) (d : ℕ) :
    σ'.ApplicationRegistered d ↔ σ.ApplicationRegistered d := by
  have hflag : ∀ τ : State, τ.ApplicationRegistered d ↔
      (τ.devices.map Device.applicationRegistered)[d]? = some true := by
    intro τ
    rw [List.getElem?_map, Option.map_eq_some_iff]
    rfl
  rw [hflag, hflag, hdevices]

/-- A step sets the flag of the device whose request is answered with success. -/
theorem exec_applicationRegistered {op : Op} {σ σ' : State} {r : Reply} (hpointers : PointersInv σ)
    (hexec : exec op σ = .ok (r, σ')) (d : ℕ) : σ'.ApplicationRegistered d ↔
      σ.ApplicationRegistered d ∨ Event.Answers ⟨σ, op, r, σ'⟩ d true := by
  have hnone : ∀ {p : Prop}, ¬ p → (σ'.ApplicationRegistered d ↔ σ.ApplicationRegistered d) →
      (σ'.ApplicationRegistered d ↔ σ.ApplicationRegistered d ∨ p) := by
    intro p hp hsame
    rw [hsame]
    exact (or_iff_left hp).symm
  unfold Event.Answers
  cases exec_deviceStep hexec with
  | created =>
    refine hnone (by simp) ?_
    unfold State.ApplicationRegistered luaiCreateDevice
    simp only [State.getElem?_concat]
    split_ifs with hnew
    · -- the flag of a new device is not set
      rw [hnew, List.getElem?_eq_none (Nat.le_refl _)]
      simp [deviceInit]
    · rfl
  | registered hregister =>
    refine hnone (by simp) ?_
    obtain ⟨x, hx, ⟨e, -, -, rfl⟩ | ⟨-, -, strings, a, -, -, rfl⟩⟩ :=
      deviceRegister_cases hpointers hregister
    · rfl
    · refine State.applicationRegistered_congr ?_ d
      exact State.map_modify_same _ _ _ _ fun _ => rfl
  | @answered e success _ _ hpending hdevice =>
    cases success with
    | false =>
      refine hnone (by simp) ?_
      exact State.applicationRegistered_congr (State.map_modify_same _ _ _ _ fun _ => rfl) d
    | true =>
      obtain ⟨x, hx⟩ := hdevice rfl
      have hget := (State.device_eq_ok.mp hx).2
      unfold State.ApplicationRegistered
      by_cases hed : e = d
      · subst hed
        simp [List.getElem?_modify_eq, hget, hpending]
      · simp [List.getElem?_modify_ne _ _ hed, hed]
  | advertAnswered _ _ =>
    refine hnone (by simp) ?_
    refine State.applicationRegistered_congr ?_ d
    exact State.map_modify_same _ _ _ _ fun _ => rfl
  | finalised hfini =>
    refine hnone (by simp) ?_
    obtain ⟨-, -, oc, rfl⟩ := hpointers.finiObject_spec hfini
    rfl
  | frame _ hquiet hframe =>
    refine hnone (fun hanswers => hquiet d true hanswers.1 hanswers.2) ?_
    exact State.applicationRegistered_congr (hframe.map_eq _ fun _ => rfl) d

/-- A reply changes no other device. -/
theorem exec_applicationReply_others {d : ℕ} {success : Bool} {σ σ' : State} {r : Reply}
    (hexec : exec (.applicationReply d success) σ = .ok (r, σ')) {d' : ℕ} (hne : d' ≠ d) :
    σ'.devices[d']? = σ.devices[d']? := by
  simp only [exec, ite_eq_ok, bind_eq_ok] at hexec
  obtain ⟨-, σ₁, hreply, hrest⟩ | ⟨-, hrest⟩ := hexec
  · cases hrest
    obtain rfl := onRegisterApplicationReply_spec hreply
    exact List.getElem?_modify_ne _ _ (Ne.symm hne)
  · cases hrest
    rfl

/-! ## A device outside the list -/

/-- What is not in the list is not in use. -/
theorem ListInv.dismissed {σ : State} {l : List ℕ} (h : ListInv σ l) (hpointers : PointersInv σ)
    {d : ℕ} (hd : d ∉ l) : Dismissed σ d := by
  have hinit : ∀ x, σ.devices[d]? = some x → x.initialised = false := by
    intro x hx
    by_contra htrue
    exact hd ((h.listed d).mpr ⟨x, hx, by simpa using htrue⟩)
  have hrefuses : ∀ property x, σ.device d = .ok x → ∀ env value,
      deviceSetAdapterProperty property env d value σ = .ok (false, σ) := by
    intro property x hx env value
    unfold deviceSetAdapterProperty
    rw [hx, ok_bind, hinit x (State.device_eq_ok.mp hx).2]
    rfl
  refine ⟨hinit, fun deviceName hfound => hd (h.mem_of_deviceGetDevice hpointers hfound),
    hrefuses _, hrefuses _, fun e y hy hname hothers env => ?_⟩
  have hlisted : ∀ i ∈ l, .device i ∉ σ.finalised ∧ σ.nameOf i ≠ σ.nameOf d := by
    intro i hi
    obtain ⟨x, hx, hinit⟩ := (h.listed i).mp hi
    exact hothers i x hx hinit
  -- the name is free again, so a registration under it gets past the check
  have hnone : deviceGetDevice (σ.strings.read y.deviceName) σ = .ok none := by
    rw [h.deviceGetDevice_eq hpointers fun i hi => (hlisted i hi).1, Except.ok.injEq,
      List.find?_eq_none]
    intro i hi
    rw [← ListInv.nameOf_eq hpointers hy, hname]
    simpa using (hlisted i hi).2
  obtain ⟨strings, a, -, -, hrun⟩ := deviceRegister_eq hpointers hy hnone env
  exact ⟨_, hrun⟩

/-! ## All histories -/

/-- An error that arrives in the step is for a device that is not initialised. -/
def Event.RejectsUninitialised (e : Event) : Prop :=
  ∀ d, e.Answers d false → ∀ x, e.before.devices[d]? = some x → x.initialised = false

namespace History

variable {h : List Event} {σ : State}

theorem applicationRegistered_iff (hrun : History h σ) (d : ℕ) :
    σ.ApplicationRegistered d ↔ ∃ e ∈ h, e.Answers d true := by
  induction hrun with
  | start hinit =>
    obtain ⟨strings, buffers, fails, outOfMemory, rfl⟩ := hinit
    simp [State.ApplicationRegistered, State.initial]
  | step hrun hexec ih =>
    rw [exec_applicationRegistered (.of_reachable hrun.reachable) hexec, ih]
    simp only [List.mem_cons, exists_eq_or_imp]
    exact or_comm

/-- A rejected device is not in the list, if no error reply has come too late. -/
theorem exists_list (hrun : History h σ) (hrejects : ∀ e ∈ h, e.RejectsUninitialised) :
    ∃ l, ListInv σ l ∧ ∀ d, Rejected d h → d ∉ l := by
  induction hrun with
  | start hinit => exact ⟨[], .of_isInitial hinit, fun d _ => List.not_mem_nil⟩
  | @step h σ σ' op r hrun hexec ih =>
    obtain ⟨l, hlist, hout⟩ := ih fun e he => hrejects e (List.mem_cons_of_mem _ he)
    obtain ⟨l', hlist', hcount⟩ := hlist.step (.of_reachable hrun.reachable) hexec
    refine ⟨l', hlist', fun d hd hd' => ?_⟩
    have hsum := hcount d
    rw [if_pos hd'] at hsum
    rcases hd with hanswers | ⟨hfails, hd⟩
    · -- a reply puts nothing into the list, and the device was not in it
      have hfails : Succeeded d (op, r) = false := by
        rw [show op = .applicationReply d false from hanswers.1]
        rfl
      have hnot : d ∉ l := by
        intro hdl
        obtain ⟨x, hx, hinit⟩ := (hlist.listed d).mp hdl
        rw [hrejects _ List.mem_cons_self d hanswers x hx] at hinit
        cases hinit
      rw [hfails, if_neg hnot] at hsum
      cases hsum
    · rw [hfails, if_neg (hout d hd)] at hsum
      cases hsum

end History

/-- In every history in which errors arrive only for devices that are not initialised, flags and
list are in step with the replies. -/
theorem replies_reconciled {h : List Event} {σ : State} (hrun : History h σ)
    (hrejects : ∀ e ∈ h, e.RejectsUninitialised) : RepliesReconciled h σ := by
  obtain ⟨l, hlist, hout⟩ := hrun.exists_list hrejects
  have hpointers := PointersInv.of_reachable hrun.reachable
  refine ⟨fun d x hx => ?_, fun e he d success hop d' hne => ?_,
    fun d hd => hlist.dismissed hpointers (hout d hd)⟩
  · rw [← hrun.applicationRegistered_iff d]
    simp [State.ApplicationRegistered, hx]
  · clear hrejects hout hlist hpointers
    induction hrun with
    | start _ => cases he
    | step _ hexec ih =>
      rcases List.mem_cons.mp he with rfl | he
      · obtain rfl : _ = Op.applicationReply d success := hop
        exact exec_applicationReply_others hexec hne
      · exact ih he

/-- A registration that fails at its last step, and whose first request BlueZ then refuses. -/
def refusedLate : List Op :=
  [.createDevice "lamp".toList, .registerDevice ⟨fun _ _ => true, some 1, ⟨true, false, true⟩⟩ 0,
    .applicationReply 0 false]

/-- The theorem for such a device. -/
theorem replies_reconciled_refused_late : ∃ h, History h (State.after refusedLate) ∧
    h.reverse.map Event.op = refusedLate ∧ RepliesReconciled h (State.after refusedLate) := by
  have hstart : History [] State.empty := .start State.isInitial_empty
  have hcreate := hstart.step (show exec (.createDevice "lamp".toList) State.empty =
    .ok (.created (.device 0), State.after (refusedLate.take 1)) from rfl)
  have hregister := hcreate.step (show exec (.registerDevice
    ⟨fun _ _ => true, some 1, ⟨true, false, true⟩⟩ 0) _ =
      .ok (.bool false, State.after (refusedLate.take 2)) from rfl)
  have hrun := hregister.step (show exec (.applicationReply 0 false) _ =
    .ok (.none, State.after refusedLate) from rfl)
  refine ⟨_, hrun, rfl, replies_reconciled hrun fun e he d hanswers x hx => ?_⟩
  simp only [List.mem_cons, List.not_mem_nil, or_false] at he
  rcases he with rfl | rfl | rfl
  · cases hanswers.1
    cases hx
    rfl
  · cases hanswers.1
  · cases hanswers.1

/-- A registration that succeeds, and whose first request BlueZ then refuses. -/
def refusedApplication : List Op :=
  [.createDevice "lamp".toList, .registerDevice allSucceeds 0, .applicationReply 0 false]

/-- A device whose registration succeeds before BlueZ refuses its application stays
initialised. -/
theorem not_replies_reconciled : ¬ ∀ (h : List Event) (σ : State), History h σ →
    RepliesReconciled h σ := by
  intro h
  have hstart : History [] State.empty := .start State.isInitial_empty
  have hcreate := hstart.step (show exec (.createDevice "lamp".toList) State.empty =
    .ok (.created (.device 0), State.after (refusedApplication.take 1)) from rfl)
  have hregister := hcreate.step (show exec (.registerDevice allSucceeds 0) _ =
    .ok (.bool true, State.after (refusedApplication.take 2)) from rfl)
  have hrun := hregister.step (show exec (.applicationReply 0 false) _ =
    .ok (.none, State.after refusedApplication) from rfl)
  have hdismissed := (h _ _ hrun).rejected 0 (Or.inl ⟨rfl, by decide⟩)
  have hinit := hdismissed.initialised _ rfl
  exact absurd hinit (by decide)

end BleSim
