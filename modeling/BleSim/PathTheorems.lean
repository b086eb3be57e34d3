import BleSim.Placement

/-!
# What is registered under which path

The paths a step hands over to D-Bus are valid, differ from all that are registered, and tell
the position of the object (`paths_of_run`). A device hands its path over once: when its
registration gets that far and no request fails, it succeeds, and from then on the name is taken.
-/

namespace BleSim

open Outcomes WriteOnce Intrusive

/-! ## The paths a step hands over -/

/-- While `op` is executed in `σ`, `dbusutils_register_object` is called for the object with the
path, and `paths` are the registered paths. -/
inductive HandsOver (σ : State) : Op → Obj → List CStr → CStr → Prop
  | child {kind : Kind} {accepts : Accepts} {p c : ℕ} {path : Ptr CStr} {x : Children}
      {node : Node} : Passes σ kind p c path x node →
      HandsOver σ (.add kind accepts p c) (kind.object c) σ.bus.paths (σ.childPath kind path x)
  | device {env : RegisterEnv} {d : ℕ} {x : Device} : σ.device d = .ok x →
      deviceGetDevice (σ.strings.read x.deviceName) σ = .ok none → env.vhciOpen.isSome = true →
      HandsOver σ (.registerDevice env d) (.device d) σ.bus.paths (σ.strings.read x.objectPath)
  | advertisement {env : RegisterEnv} {d : ℕ} {x : Device} : σ.device d = .ok x →
      deviceGetDevice (σ.strings.read x.deviceName) σ = .ok none → env.vhciOpen.isSome = true →
      env.accepts σ.bus.paths (σ.strings.read x.objectPath) = true →
      env.bluez.applicationMessage = true →
      HandsOver σ (.registerDevice env d) (.advertisement d)
        (σ.bus.paths ++ [σ.strings.read x.objectPath])
        (objectPathString (σ.strings.read x.objectPath) advertisementObjectName 0)

/-- The step with other answers of the library to path registrations. -/
def Op.answered (accepts : Accepts) : Op → Op
  | .add kind _ p c => .add kind accepts p c
  | .registerDevice env d => .registerDevice { env with accepts } d
  | op => op

section Answers

variable {σ : State} {f g : Accepts}

theorem dbusutilsRegisterObject_congr {bus : Connection} {path : CStr} {o : Obj}
    (h : f bus.paths path = g bus.paths path) :
    dbusutilsRegisterObject bus path o f = dbusutilsRegisterObject bus path o g := by
  unfold dbusutilsRegisterObject
  rw [h]

theorem addTo_congr {kind : Kind} {p c : ℕ} (h : ∀ path x node, Passes σ kind p c path x node →
    f σ.bus.paths (σ.childPath kind path x) = g σ.bus.paths (σ.childPath kind path x)) :
    addTo kind f p c σ = addTo kind g p c σ := by
  by_cases hp : ∃ path x node, Passes σ kind p c path x node
  · obtain ⟨path, x, node, hpasses⟩ := hp
    rw [addTo_of_passes hpasses, addTo_of_passes hpasses, h path x node hpasses]
  · -- one of the checks fails before the library is asked
    rw [addTo_eq, addTo_eq]
    cases hparent : σ.parent kind p with
    | error e => rfl
    | ok parent =>
    cases hchild : σ.node kind c with
    | error e => rfl
    | ok node =>
    simp only [ok_bind]
    split_ifs with hpath
    · rfl
    · unfold addChild
      split_ifs with howned
      · rfl
      · cases hfound : getChild kind parent.2 (σ.strings.read node.uuid) σ with
        | error e => rfl
        | ok found =>
        cases found with
        | some s => rfl
        | none => exact absurd ⟨parent.1, parent.2, node, hparent, hchild, hpath,
            not_not.mp howned, hfound⟩ hp

theorem registerAdvert_congr {d : ℕ} {x : Device} {env : RegisterEnv} (hx : σ.device d = .ok x)
    (h : f σ.bus.paths (objectPathString (σ.strings.read x.objectPath) advertisementObjectName 0) =
      g σ.bus.paths (objectPathString (σ.strings.read x.objectPath) advertisementObjectName 0)) :
    registerAdvert { env with accepts := f } d σ =
      registerAdvert { env with accepts := g } d σ := by
  unfold registerAdvert
  cases hinit : deviceInitAdvertisement d σ with
  | error e => rfl
  | ok σ₁ =>
    obtain ⟨x', strings, a, i, j, k, hx', rfl, hx₁, -, -, -, -, hlive, -, -, hadvert, -⟩ :=
      deviceInitAdvertisement_spec hinit
    obtain rfl : x = x' := by simpa using hx.symm.trans hx'
    have hread : strings.read a.objectPath =
        objectPathString (σ.strings.read x.objectPath) advertisementObjectName 0 :=
      Heap.PointsTo.read ⟨i, hlive, hadvert⟩
    rw [ok_bind, ok_bind, hx₁, ok_bind, ok_bind]
    simp only [hread]
    rw [dbusutilsRegisterObject_congr h]

/-- Once the controller has been opened, the path of the device is handed over, and if it is taken
and the request has been created, so is the path of the advertisement. -/
theorem registerPaths_congr {d : ℕ} {x : Device} {env : RegisterEnv} (hx : σ.device d = .ok x)
    {adapter : CStr} (hadapter : libraryPath σ.strings x.controller = .ok adapter)
    (hpath : σ.strings.PointsTo x.objectPath (devicePath d))
    (hdevice : f σ.bus.paths (devicePath d) = g σ.bus.paths (devicePath d))
    (hadvert : f σ.bus.paths (devicePath d) = true → env.bluez.applicationMessage = true →
      f (σ.bus.paths ++ [devicePath d])
          (objectPathString (devicePath d) advertisementObjectName 0) =
        g (σ.bus.paths ++ [devicePath d])
          (objectPathString (devicePath d) advertisementObjectName 0)) :
    registerPaths { env with accepts := f } d (devicePath d) σ =
      registerPaths { env with accepts := g } d (devicePath d) σ := by
  unfold registerPaths dbusutilsRegisterObject
  by_cases haccept : g σ.bus.paths (devicePath d) = true
  swap
  · simp only [hdevice, haccept, Bool.false_eq_true, ↓reduceIte, Bool.not_false]
  have hrequest := deviceRegisterWithBluez_eq (σ := { σ with bus := { σ.bus with
    registered := σ.bus.registered ++ [(devicePath d, .device d)] } }) hx hadapter hpath env.bluez
  simp only [hdevice, haccept, ↓reduceIte, Bool.not_true, Bool.false_eq_true, hrequest, ok_bind]
  cases hmessage : env.bluez.applicationMessage with
  | false => rfl
  | true =>
  refine registerAdvert_congr hx ?_
  simp only [hpath.read]
  rw [show Connection.paths _ = σ.bus.paths ++ [devicePath d] by simp [Connection.paths]]
  exact hadvert (hdevice.trans haccept) hmessage

theorem deviceRegister_congr (hpointers : PointersInv σ) {env : RegisterEnv} {d : ℕ}
    (h : ∀ o paths path, HandsOver σ (.registerDevice { env with accepts := f } d) o paths path →
      f paths path = g paths path) :
    deviceRegister { env with accepts := f } d σ =
      deviceRegister { env with accepts := g } d σ := by
  cases hx : σ.device d with
  | error e =>
    unfold deviceRegister
    rw [hx]
    rfl
  | ok x =>
  cases hfound : deviceGetDevice (σ.strings.read x.deviceName) σ with
  | error e =>
    unfold deviceRegister
    rw [hx, ok_bind, ok_bind, hfound]
    rfl
  | ok found =>
  cases found with
  | some e => rw [deviceRegister_of_found hx hfound, deviceRegister_of_found hx hfound]
  | none =>
  rw [deviceRegister_of_none hx hfound, deviceRegister_of_none hx hfound]
  split_ifs with hopen
  swap
  · rfl
  -- the string with the adapter's path leaves the path of the device where it is
  set τ := σ.openController d env.vhciOpen with hτ
  obtain ⟨id, hid⟩ := (hpointers.devices d x (State.device_eq_ok.mp hx).2).objectPath
  have hpoints : τ.strings.PointsTo x.objectPath (devicePath d) :=
    (Heap.Extends.alloc σ.strings (adapterPath σ.controllerCount)).pointsTo
      (hpointers.pointsTo_device hx (show x.field .objectPath = _ from hid))
  have hpath : σ.strings.read x.objectPath = devicePath d := hpointers.read_devicePath hx
  have hdevice := h _ _ _ (.device hx hfound hopen)
  have hadvert := fun haccept hmessage => h _ _ _ (.advertisement hx hfound hopen haccept hmessage)
  simp only [hpath] at hdevice hadvert
  have hx₁ : τ.device d = .ok _ := State.device_modify _ hx rfl rfl
  rw [hpoints.read]
  exact registerPaths_congr hx₁ (libraryPath_openController σ d env.vhciOpen) hpoints hdevice
    hadvert

/-- The answers of the library only matter for the paths that are handed over: the list is
complete. -/
theorem exec_answered_congr (hpointers : PointersInv σ) {op : Op}
    (h : ∀ o paths path, HandsOver σ (op.answered f) o paths path →
      f paths path = g paths path) : exec (op.answered f) σ = exec (op.answered g) σ := by
  cases op with
  | add kind accepts p c =>
    have hadd : addTo kind f p c σ = addTo kind g p c σ :=
      addTo_congr fun path x node hpasses => h _ _ _ (.child hpasses)
    show (addTo kind f p c σ >>= _) = (addTo kind g p c σ >>= _)
    rw [hadd]
  | registerDevice env d =>
    have hregister := deviceRegister_congr hpointers h
    show (deviceRegister { env with accepts := f } d σ >>= _) =
      (deviceRegister { env with accepts := g } d σ >>= _)
    rw [hregister]
  | _ => rfl

end Answers

/-! ## Positions after an addition -/

theorem Placed.attach {σ : State} {children : Kind → ℕ → List ℕ} (h : PlacementInv σ children)
    {kind : Kind} {p c : ℕ} {path : Ptr CStr} {x : Children} {node : Node}
    (hpasses : Passes σ kind p c path x node) {o : Obj} {pos : Position}
    (hplaced : Placed σ o pos) : Placed (σ.attach kind p c node path x) o pos := by
  have hlength := σ.length_devices_attach kind p c node path x
  induction hplaced with
  | device hd => exact .device (hlength ▸ hd)
  | advertisement hd => exact .advertisement (hlength ▸ hd)
  | @child kind' q i e parent _ hchild ih =>
    refine .child ih (((h.attach hpasses).forests kind').childAt_iff.mpr ?_)
    obtain ⟨l₁, l₂, hsplit, hi⟩ := (h.forests kind').childAt_iff.mp hchild
    by_cases hnew : kind' = kind ∧ q = p
    · obtain ⟨rfl, rfl⟩ := hnew
      exact ⟨c :: l₁, l₂, by rw [childrenPush_self, hsplit, List.cons_append], hi⟩
    · exact ⟨l₁, l₂, by rw [childrenPush_of_ne children c hnew, hsplit], hi⟩

/-- The child that has been added is the last one of its parent. -/
theorem Placed.attached {σ : State} {children : Kind → ℕ → List ℕ} (h : PlacementInv σ children)
    {kind : Kind} {p c : ℕ} {path : Ptr CStr} {x : Children} {node : Node}
    (hpasses : Passes σ kind p c path x node) {parent : Position}
    (hparent : Placed σ (kind.parent p) parent) :
    Placed (σ.attach kind p c node path x) (kind.object c)
      (.child kind parent (UInt32.ofNat (children kind p).length)) := by
  refine .child (hparent.attach h hpasses) (((h.attach hpasses).forests kind).childAt_iff.mpr ?_)
  exact ⟨[], children kind p, childrenPush_self children kind p c, rfl⟩

/-! ## The registrations of devices -/

/-- The path of an advertisement is not the path of its device. -/
theorem advertPath_notMem_concat {paths : List CStr} {d : ℕ} (h : advertPath d ∉ paths) :
    advertPath d ∉ paths ++ [devicePath d] := by
  intro hmem
  rcases List.mem_append.mp hmem with hmem | hmem
  · exact h hmem
  · have hsame : (Position.advertisement (UInt32.ofNat d)).path =
        (Position.device (UInt32.ofNat d)).path := List.mem_singleton.mp hmem
    cases Position.path_injective hsame

/-- Where the library refuses registered paths only and the messages to BlueZ can be made, a
registration whose paths are new fails only if the controller cannot be opened. -/
theorem RegisterEnv.succeeds_of_fresh {env : RegisterEnv} {paths : List CStr} {d : ℕ}
    (haccepts : AcceptsFresh env.accepts) (happlication : env.bluez.applicationMessage = true)
    (hadvertisement : env.bluez.advertisementMessage = true) (hdevice : devicePath d ∉ paths)
    (hadvert : advertPath d ∉ paths) :
    env.publishesDevice paths d = env.vhciOpen.isSome ∧
      env.publishesAdvert paths d = env.vhciOpen.isSome ∧
      env.succeeds paths d = env.vhciOpen.isSome := by
  have hne := advertPath_notMem_concat hadvert
  have hpublishes : env.publishesDevice paths d = env.vhciOpen.isSome := by
    rw [RegisterEnv.publishesDevice, haccepts _ _ hdevice, Bool.and_true]
  have hadvertises : env.publishesAdvert paths d = env.vhciOpen.isSome := by
    rw [RegisterEnv.publishesAdvert, RegisterEnv.requestsApplication, hpublishes, happlication,
      haccepts _ _ hne, Bool.and_true, Bool.and_true]
  refine ⟨hpublishes, hadvertises, ?_⟩
  rw [RegisterEnv.succeeds, hadvertises, hadvertisement, Bool.and_true]

/-- A step that is no registration of a device registers children only. -/
theorem Change.mem_registeredObjects {op : Op} {σ σ' : State} (hchange : Change op σ σ')
    (hpointers : PointersInv σ) (hne : ∀ env d, op ≠ .registerDevice env d) {o : Obj}
    (ho : ∀ (kind : Kind) (c : ℕ), o ≠ kind.object c) (hmem : o ∈ σ'.registeredObjects) :
    o ∈ σ.registeredObjects := by
  have hsame : σ'.bus.registered = σ.bus.registered → o ∈ σ.registeredObjects := by
    intro hregistered
    unfold State.registeredObjects at hmem ⊢
    rwa [hregistered] at hmem
  cases hchange with
  | createDevice => exact hmem
  | createService => exact hmem
  | createCharacteristic => exact hmem
  | createDescriptor => exact hmem
  | refused _ _ => exact hsame (by simp [State.refuse])
  | @added kind accepts p c _ path x node _ _ =>
    rw [State.registeredObjects_attach] at hmem
    rcases List.mem_append.mp hmem with hmem | hmem
    · exact hmem
    · exact absurd (List.mem_singleton.mp hmem) (ho kind c)
  | controller _ => exact absurd rfl (hne _ _)
  | registered _ _ => exact absurd rfl (hne _ _)
  | requested => exact absurd rfl (hne _ _)
  | advertised _ => exact absurd rfl (hne _ _)
  | listed _ _ => exact absurd rfl (hne _ _)
  | asked => exact hmem
  | valued _ hframe => exact hsame hframe.registered
  | answered hreply =>
    obtain rfl := onRegisterApplicationReply_spec hreply
    exact hmem
  | advertAnswered hreply =>
    obtain ⟨x, -, rfl⟩ := onRegisterAdvertReply_spec hreply
    exact hmem
  | reused => exact hmem
  | finalised hfini =>
    obtain ⟨-, -, oc, rfl⟩ := hpointers.finiObject_spec hfini
    exact hmem

theorem mem_registeredObjects_of_exec {op : Op} {σ σ' : State} {r : Reply}
    (hpointers : PointersInv σ) (hexec : exec op σ = .ok (r, σ'))
    (hne : ∀ env d, op ≠ .registerDevice env d) {o : Obj}
    (ho : ∀ (kind : Kind) (c : ℕ), o ≠ kind.object c) (hmem : o ∈ σ'.registeredObjects) :
    o ∈ σ.registeredObjects := by
  have hchange : ∀ τ τ' : State, Change op τ τ' →
      PointersInv τ ∧ (o ∈ τ.registeredObjects → o ∈ σ.registeredObjects) →
      PointersInv τ' ∧ (o ∈ τ'.registeredObjects → o ∈ σ.registeredObjects) := by
    intro τ τ' hchange ⟨hpointers, hold⟩
    exact ⟨hpointers.change hchange, fun hmem =>
      hold (hchange.mem_registeredObjects hpointers hne ho hmem)⟩
  exact ((exec_changes hexec).invariant hchange ⟨hpointers, id⟩).2 hmem

/-- The path of the device or of its advertisement is registered. -/
def State.Published (σ : State) (d : ℕ) : Prop :=
  .device d ∈ σ.registeredObjects ∨ .advertisement d ∈ σ.registeredObjects

/-- A step that is no registration of a device publishes no device. -/
theorem State.Published.of_exec {op : Op} {σ σ' : State} {r : Reply} (hpointers : PointersInv σ)
    (hexec : exec op σ = .ok (r, σ')) (hne : ∀ env d, op ≠ .registerDevice env d) {d : ℕ}
    (h : σ'.Published d) : σ.Published d := by
  have hold := fun o => mem_registeredObjects_of_exec (o := o) hpointers hexec hne
  rcases h with h | h
  · exact Or.inl (hold _ (fun kind c => by cases kind <;> simp [Kind.object]) h)
  · exact Or.inr (hold _ (fun kind c => by cases kind <;> simp [Kind.object]) h)

/-! ## The invariant of a run -/

/-- In the step the library refuses a path only when it is registered already. -/
def Op.FreshAccepted : Op → Prop
  | .add _ accepts _ _ => AcceptsFresh accepts
  | .registerDevice env _ => AcceptsFresh env.accepts
  | _ => True

/-- In the step the messages to BlueZ can be created. -/
def Op.MessagesCreated : Op → Prop
  | .registerDevice env _ =>
    env.bluez.applicationMessage = true ∧ env.bluez.advertisementMessage = true
  | _ => True

theorem Op.FreshAccepted.add {op : Op} (h : op.FreshAccepted) {kind : Kind} {accepts : Accepts}
    {p c : ℕ} (hop : op = .add kind accepts p c) : AcceptsFresh accepts := by
  rw [hop] at h
  exact h

/-- Besides the placement of the children: the devices whose paths are registered are those in the
list of devices. -/
structure PathsInv (σ : State) (children : Kind → ℕ → List ℕ) (l : List ℕ) : Prop where
  placement : PlacementInv σ children
  list : ListInv σ l
  published : ∀ d, .device d ∈ σ.registeredObjects ∨ .advertisement d ∈ σ.registeredObjects → d ∈ l

namespace PathsInv

variable {σ σ' : State} {children : Kind → ℕ → List ℕ} {l : List ℕ}

theorem of_isInitial (h : σ.IsInitial) : PathsInv σ (fun _ _ => []) [] := by
  refine ⟨.of_isInitial h, .of_isInitial h, ?_⟩
  obtain ⟨strings, buffers, fails, outOfMemory, rfl⟩ := h
  simp [State.registeredObjects, State.initial]

/-- The two paths of a device that is not in the list are new. -/
theorem device_fresh (h : PathsInv σ children l) (hfit : CountersFit σ) {d : ℕ}
    (hlt : d < σ.devices.length) (hd : d ∉ l) :
    devicePath d ∉ σ.bus.paths ∧ advertPath d ∉ σ.bus.paths := by
  constructor
  · intro hmem
    obtain ⟨o, hentry, hplaced⟩ := h.placement.registered_of_path
      (show (Position.device (UInt32.ofNat d)).path ∈ σ.bus.paths from hmem)
    obtain rfl := (Placed.device hlt).unique hfit h.placement.forests hplaced
    exact hd (h.published d (Or.inl (mem_registeredObjects.mpr ⟨_, hentry⟩)))
  · intro hmem
    obtain ⟨o, hentry, hplaced⟩ := h.placement.registered_of_path
      (show (Position.advertisement (UInt32.ofNat d)).path ∈ σ.bus.paths from hmem)
    obtain rfl := (Placed.advertisement hlt).unique hfit h.placement.forests hplaced
    exact hd (h.published d (Or.inr (mem_registeredObjects.mpr ⟨_, hentry⟩)))

/-- A device whose name is free gets as far as its controller lets it. -/
theorem register_free (h : PathsInv σ children l) (hfit : CountersFit σ) {env : RegisterEnv} {d : ℕ}
    (hfresh : (Op.registerDevice env d).FreshAccepted)
    (hmessages : (Op.registerDevice env d).MessagesCreated) {x : Device} (hx : σ.device d = .ok x)
    (hnone : deviceGetDevice (σ.strings.read x.deviceName) σ = .ok none) :
    devicePath d ∉ σ.bus.paths ∧ advertPath d ∉ σ.bus.paths ∧
      env.publishesDevice σ.bus.paths d = env.vhciOpen.isSome ∧
      env.publishesAdvert σ.bus.paths d = env.vhciOpen.isSome ∧
      env.succeeds σ.bus.paths d = env.vhciOpen.isSome := by
  have hlt := (List.getElem?_eq_some_iff.mp (State.device_eq_ok.mp hx).2).1
  have hd := (h.list.notMem_of_deviceGetDevice h.placement.pointers hx hnone).1
  obtain ⟨hdevice, hadvert⟩ := h.device_fresh hfit hlt hd
  exact ⟨hdevice, hadvert,
    RegisterEnv.succeeds_of_fresh hfresh hmessages.1 hmessages.2 hdevice hadvert⟩

/-- A registration publishes its own device only, and succeeds if it does. -/
theorem register_published (h : PathsInv σ children l) (hfit : CountersFit σ) {env : RegisterEnv}
    {d : ℕ} (hfresh : (Op.registerDevice env d).FreshAccepted)
    (hmessages : (Op.registerDevice env d).MessagesCreated) {b : Bool}
    (hrun : deviceRegister env d σ = .ok (b, σ')) {e : ℕ} (he : σ'.Published e) :
    σ.Published e ∨ (e = d ∧ b = true) := by
  obtain ⟨x, hx, ⟨-, -, -, rfl⟩ | ⟨hnone, rfl, strings, a, -, -, rfl⟩⟩ :=
    deviceRegister_cases h.placement.pointers hrun
  · exact Or.inl he
  obtain ⟨-, -, hpublishes, hadvertises, hsucceeds⟩ :=
    h.register_free hfit hfresh hmessages hx hnone
  rw [hsucceeds]
  unfold State.Published State.registeredObjects State.afterRegister at *
  cases hopen : env.vhciOpen.isSome with
  | false =>
    -- without a controller nothing is registered
    left
    simpa [hpublishes, hadvertises, hopen] using he
  | true =>
    by_cases hne : e = d
    · exact Or.inr ⟨hne, rfl⟩
    · left
      simpa [hpublishes, hadvertises, hopen, hne] using he

theorem step (h : PathsInv σ children l) (hfit : CountersFit σ) {op : Op} {r : Reply}
    (hfresh : op.FreshAccepted) (hmessages : op.MessagesCreated)
    (hexec : exec op σ = .ok (r, σ')) : ∃ children' l', PathsInv σ' children' l' := by
  obtain ⟨children', hplacement⟩ := h.placement.step hfit (fun _ _ _ _ => hfresh.add) hexec
  obtain ⟨l', hlist, hcount⟩ := h.list.step h.placement.pointers hexec
  -- the list of devices only grows, by the registrations that succeed
  have hlisted : ∀ e, e ∈ l ∨ Succeeded e (op, r) = true → e ∈ l' := by
    intro e he
    have hone := hcount e
    by_contra he'
    rw [if_neg he'] at hone
    rcases he with he | he
    · rw [if_pos he] at hone
      omega
    · rw [he] at hone
      simp at hone
  refine ⟨children', l', hplacement, hlist, fun e he => hlisted e ?_⟩
  by_cases hregister : ∃ env d, op = .registerDevice env d
  · obtain ⟨env, d, rfl⟩ := hregister
    obtain ⟨⟨b, σ₁⟩, hrun, hr⟩ := bind_eq_ok.mp hexec
    cases hr
    rcases h.register_published hfit hfresh hmessages hrun he with he | ⟨rfl, rfl⟩
    · exact Or.inl (h.published e he)
    · exact Or.inr (decide_eq_true rfl)
  · have hne : ∀ env d, op ≠ .registerDevice env d := fun env d heq => hregister ⟨env, d, heq⟩
    exact Or.inl (h.published e (State.Published.of_exec h.placement.pointers hexec hne he))

end PathsInv

/-! ## Every path is valid, new and tells the position -/

/-- A path that is handed over for an object is valid and new, and the step registers it for the
object, at the position the path tells. -/
structure PathHanded (op : Op) (σ : State) (o : Obj) (paths : List CStr) (path : CStr) : Prop where
  valid : ValidObjectPath path
  fresh : path ∉ paths
  registered : ∃ r σ', exec op σ = .ok (r, σ') ∧ (path, o) ∈ σ'.bus.registered ∧
    ∃ pos, Placed σ' o pos ∧ path = pos.path

/-- Every path the step hands over is such a path. -/
def HandsPaths (op : Op) (σ : State) : Prop :=
  ∀ o paths path, HandsOver σ op o paths path → PathHanded op σ o paths path

/-- The step hands over nothing else: answers of the library that agree on these paths make no
difference to it. -/
def HandsNoOther (op : Op) (σ : State) : Prop :=
  ∀ f g : Accepts, (∀ o paths path, HandsOver σ (op.answered f) o paths path →
    f paths path = g paths path) → exec (op.answered f) σ = exec (op.answered g) σ

theorem PathsInv.handsPaths {σ : State} {children : Kind → ℕ → List ℕ} {l : List ℕ}
    (h : PathsInv σ children l) (hfit : CountersFit σ) {op : Op} (hfresh : op.FreshAccepted)
    (hmessages : op.MessagesCreated) : HandsPaths op σ := by
  intro o paths path hhands
  -- a registration that gets past the controller registers both paths
  have hregister : ∀ (env : RegisterEnv) (d : ℕ) (x : Device),
      (Op.registerDevice env d).FreshAccepted → (Op.registerDevice env d).MessagesCreated →
      σ.device d = .ok x →
      deviceGetDevice (σ.strings.read x.deviceName) σ = .ok none → env.vhciOpen.isSome = true →
      ∃ r σ', exec (.registerDevice env d) σ = .ok (r, σ') ∧ d < σ'.devices.length ∧
        (devicePath d, .device d) ∈ σ'.bus.registered ∧
        (advertPath d, .advertisement d) ∈ σ'.bus.registered := by
    intro env d x hfresh hmessages hx hnone hopen
    obtain ⟨-, -, hpublishes, hadvertises, -⟩ := h.register_free hfit hfresh hmessages hx hnone
    obtain ⟨strings, a, -, -, hrun⟩ := deviceRegister_eq h.placement.pointers hx hnone env
    refine ⟨_, _, bind_eq_ok.mpr ⟨_, hrun, rfl⟩, ?_, ?_, ?_⟩
    · simpa [State.afterRegister] using
        (List.getElem?_eq_some_iff.mp (State.device_eq_ok.mp hx).2).1
    · simp [State.afterRegister, hpublishes, hopen]
    · simp [State.afterRegister, hadvertises, hopen]
  cases hhands with
  | @child kind accepts p c path x node hpasses =>
    -- the child becomes the last one of its parent, and its path is the one of that position
    obtain ⟨parent, hparent, hpath⟩ := h.placement.childPath_eq hpasses
    refine ⟨?_, h.placement.childPath_fresh hfit hpasses, ?_⟩
    · rw [hpath]
      exact Position.validObjectPath _
    · refine ⟨_, _, bind_eq_ok.mpr ⟨_, h.placement.addTo_eq hfit hpasses hfresh, rfl⟩, ?_, _,
        .attached h.placement hpasses hparent, hpath⟩
      simp [State.attach]
  | @device env d x hx hnone hopen =>
    rw [h.placement.pointers.read_devicePath hx]
    obtain ⟨r, σ', hexec, hlt, hdevice, -⟩ := hregister env d x hfresh hmessages hx hnone hopen
    have hfree := (h.register_free hfit hfresh hmessages hx hnone).1
    exact ⟨(Position.device (UInt32.ofNat d)).validObjectPath, hfree, r, σ', hexec, hdevice, _,
      .device hlt, rfl⟩
  | @advertisement env d x hx hnone hopen _ _ =>
    rw [h.placement.pointers.read_devicePath hx]
    obtain ⟨r, σ', hexec, hlt, -, hadvert⟩ := hregister env d x hfresh hmessages hx hnone hopen
    have hfree := (h.register_free hfit hfresh hmessages hx hnone).2.1
    exact ⟨(Position.advertisement (UInt32.ofNat d)).validObjectPath,
      advertPath_notMem_concat hfree, r, σ', hexec, hadvert, _, .advertisement hlt, rfl⟩

/-- In every run in which the library refuses registered paths only, the messages to BlueZ can be
created and no counter wraps around, every path a step hands over is valid and new, is registered
for its object, and tells the position of the object: no two positions have the same path. No step
hands over any other path. -/
theorem paths_of_run {σ₀ : State} (hinit : σ₀.IsInitial) {ops : List Op}
    (hops : ∀ op ∈ ops, op.FreshAccepted ∧ op.MessagesCreated)
    (hfit : AllSteps exec (fun _ σ => CountersFit σ) ops σ₀) :
    AllSteps exec (fun op σ => HandsPaths op σ ∧ HandsNoOther op σ) ops σ₀ ∧
      Function.Injective Position.path := by
  refine ⟨?_, Position.path_injective⟩
  have hstep : ∀ (op : Op) (σ : State), (op.FreshAccepted ∧ op.MessagesCreated) ∧ CountersFit σ →
      (∃ children l, PathsInv σ children l) → (HandsPaths op σ ∧ HandsNoOther op σ) ∧
        ∀ r σ', exec op σ = .ok (r, σ') → ∃ children l, PathsInv σ' children l := by
    intro op σ ⟨⟨hfresh, hmessages⟩, hfit⟩ ⟨children, l, hinv⟩
    have hpaths : HandsPaths op σ := hinv.handsPaths hfit hfresh hmessages
    have hother : HandsNoOther op σ :=
      fun f g hagree => exec_answered_congr hinv.placement.pointers hagree
    exact ⟨⟨hpaths, hother⟩, fun r σ' hexec => hinv.step hfit hfresh hmessages hexec⟩
  exact AllSteps.of_invariant hstep ((allSteps_of_forall hops σ₀).and hfit)
    ⟨_, _, .of_isInitial hinit⟩

/-- A library that refuses registered paths. -/
def refusesRegistered : Accepts := fun paths path => !paths.contains path

theorem acceptsFresh_refusesRegistered : AcceptsFresh refusesRegistered := by
  intro paths path hpath
  unfold refusesRegistered
  simpa using hpath

/-- One object of each kind, from the leaf to the device, and a registration that fails first. -/
def oneOfEach : List Op :=
  [.createDevice "lamp".toList, .createService "180F".toList, .createCharacteristic "2A19".toList,
    .createDescriptor "2901".toList, .add .service refusesRegistered 0 0,
    .add .characteristic refusesRegistered 0 0,
    .registerDevice ⟨refusesRegistered, none, ⟨true, true, true⟩⟩ 0,
    .add .descriptor refusesRegistered 0 0,
    .registerDevice ⟨refusesRegistered, some 1, ⟨true, true, true⟩⟩ 0]

theorem freshAccepted_oneOfEach : ∀ op ∈ oneOfEach, op.FreshAccepted ∧ op.MessagesCreated := by
  intro op hop
  simp only [oneOfEach, List.mem_cons, List.not_mem_nil, or_false] at hop
  rcases hop with rfl | rfl | rfl | rfl | rfl | rfl | rfl | rfl | rfl <;>
    first
      | exact ⟨trivial, trivial⟩
      | exact ⟨acceptsFresh_refusesRegistered, trivial⟩
      | exact ⟨acceptsFresh_refusesRegistered, rfl, rfl⟩

theorem shortTables_oneOfEach : AllSteps exec (fun _ σ => σ.ShortTables) oneOfEach State.empty :=
  ⟨by decide, by decide, by decide, by decide, by decide, by decide, by decide, by decide,
    by decide, trivial⟩

/-- The theorem for one object of each kind. -/
theorem paths_of_run_one_of_each :
    AllSteps exec (fun op σ => HandsPaths op σ ∧ HandsNoOther op σ) oneOfEach State.empty ∧
      Function.Injective Position.path :=
  paths_of_run State.isInitial_empty freshAccepted_oneOfEach
    (CountersFit.allSteps State.isInitial_empty shortTables_oneOfEach)

example : (State.after oneOfEach).bus.paths = ["/dev0/serv0".toList, "/dev0/serv0/char0".toList,
    "/dev0/serv0/char0/desc0".toList, "/dev0".toList, "/dev0/advrt0".toList] := by decide

end BleSim
