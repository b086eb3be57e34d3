import BleSim.DeviceSteps

/-!
# The list of devices

The list from `device_list_head` holds the devices whose registration has succeeded, each once
and no two of one name (`ListInv`). A lookup is a search of that list, and only a registration
that returns true puts a device into it.
-/

namespace BleSim

open Outcomes WriteOnce Intrusive

/-! ## The list -/

/-- The next device of the list. -/
def State.nextDevice (σ : State) (d : ℕ) : Option ℕ := (σ.devices[d]?).bind Device.next

/-- The name of a device. -/
def State.nameOf (σ : State) (d : ℕ) : Option CStr :=
  (σ.devices[d]?).bind fun x => x.deviceName.contents?

/-- `l` is the list of devices. -/
structure ListInv (σ : State) (l : List ℕ) : Prop where
  chain : Chain σ.nextDevice σ.deviceListHead l
  names : (l.map σ.nameOf).Nodup
  listed : ∀ d, d ∈ l ↔ ∃ x, σ.devices[d]? = some x ∧ x.initialised = true
  unlisted : ∀ (d : ℕ) (x : Device), σ.devices[d]? = some x → d ∉ l → x.next = none
  registered : ∀ d ∈ l, .device d ∈ σ.registeredObjects ∧ .advertisement d ∈ σ.registeredObjects

/-- The fields of a device that the list rests on. -/
def Device.link (x : Device) : Ptr CStr × Bool × Option ℕ := (x.deviceName, x.initialised, x.next)

namespace ListInv

variable {σ σ' : State} {l : List ℕ}

theorem of_isInitial (h : σ.IsInitial) : ListInv σ [] := by
  obtain ⟨strings, buffers, fails, outOfMemory, rfl⟩ := h
  exact ⟨.nil, List.nodup_nil, by simp [State.initial], by simp [State.initial], by simp⟩

theorem congr (h : ListInv σ l)
    (hdevices : σ'.devices.map Device.link = σ.devices.map Device.link)
    (hhead : σ'.deviceListHead = σ.deviceListHead)
    (hregistered : ∀ o ∈ σ.registeredObjects, o ∈ σ'.registeredObjects) : ListInv σ' l := by
  have hget : ∀ d : ℕ, (σ'.devices[d]?).map Device.link = (σ.devices[d]?).map Device.link := by
    intro d
    rw [← List.getElem?_map, ← List.getElem?_map, hdevices]
  have hback : ∀ (d : ℕ) (x' : Device), σ'.devices[d]? = some x' →
      ∃ x, σ.devices[d]? = some x ∧ x'.link = x.link := by
    intro d x' hx'
    have hlink := hget d
    rw [hx', Option.map_some, eq_comm, Option.map_eq_some_iff] at hlink
    obtain ⟨x, hx, heq⟩ := hlink
    exact ⟨x, hx, heq.symm⟩
  have hforth : ∀ (d : ℕ) (x : Device), σ.devices[d]? = some x →
      ∃ x', σ'.devices[d]? = some x' ∧ x'.link = x.link := by
    intro d x hx
    have hlink := hget d
    rw [hx, Option.map_some, Option.map_eq_some_iff] at hlink
    exact hlink
  have hbind : ∀ {α : Type} (f : Ptr CStr × Bool × Option ℕ → Option α) (d : ℕ),
      ((σ'.devices[d]?).bind fun x => f x.link) = (σ.devices[d]?).bind fun x => f x.link := by
    intro α f d
    have hbind := congrArg (fun o => o.bind f) (hget d)
    simpa only [Option.bind_map, Function.comp_def] using hbind
  have hnext : σ'.nextDevice = σ.nextDevice := funext fun d => hbind (fun k => k.2.2) d
  have hname : σ'.nameOf = σ.nameOf := funext fun d => hbind (fun k => k.1.contents?) d
  refine ⟨?_, ?_, fun d => ?_, fun d x' hx' hd => ?_, fun d hd => ?_⟩
  · rw [hnext, hhead]
    exact h.chain
  · rw [hname]
    exact h.names
  · rw [h.listed]
    constructor
    · intro ⟨x, hx, hinit⟩
      obtain ⟨x', hx', hlink⟩ := hforth d x hx
      exact ⟨x', hx', (congrArg (fun k => k.2.1) hlink).trans hinit⟩
    · intro ⟨x', hx', hinit⟩
      obtain ⟨x, hx, hlink⟩ := hback d x' hx'
      exact ⟨x, hx, (congrArg (fun k => k.2.1) hlink).symm.trans hinit⟩
  · obtain ⟨x, hx, hlink⟩ := hback d x' hx'
    exact (congrArg (fun k => k.2.2) hlink).trans (h.unlisted d x hx hd)
  · exact ⟨hregistered _ (h.registered d hd).1, hregistered _ (h.registered d hd).2⟩

/-- A new device is not in the list. -/
theorem createDevice (h : ListInv σ l) (deviceName : CStr) :
    ListInv (luaiCreateDevice deviceName σ).2 l := by
  set x₀ := (deviceInit σ.strings σ.deviceCount deviceName .lua).1 with hx₀
  have hlt : ∀ d ∈ l, d < σ.devices.length := by
    intro d hd
    obtain ⟨x, hx, -⟩ := (h.listed d).mp hd
    exact (List.getElem?_eq_some_iff.mp hx).1
  have hold : ∀ d < σ.devices.length, (luaiCreateDevice deviceName σ).2.devices[d]? =
      σ.devices[d]? := by
    intro d hd
    rw [getElem?_createDevice, if_neg (Nat.ne_of_lt hd)]
  have hnew : ∀ (d : ℕ) (x : Device), (luaiCreateDevice deviceName σ).2.devices[d]? = some x →
      σ.devices[d]? = some x ∨ x = x₀ := by
    intro d x hx
    rw [getElem?_createDevice] at hx
    split_ifs at hx
    · exact Or.inr (Option.some.inj hx).symm
    · exact Or.inl hx
  refine ⟨?_, ?_, fun d => ?_, fun d x hx hd => ?_, h.registered⟩
  · refine h.chain.congr fun d hd => ?_
    unfold State.nextDevice
    rw [hold d (hlt d hd)]
  · rw [List.map_congr_left (g := σ.nameOf) fun d hd => ?_]
    · exact h.names
    · unfold State.nameOf
      rw [hold d (hlt d hd)]
  · constructor
    · intro hd
      obtain ⟨x, hx, hinit⟩ := (h.listed d).mp hd
      exact ⟨x, (hold d (hlt d hd)).trans hx, hinit⟩
    · intro ⟨x, hx, hinit⟩
      rcases hnew d x hx with hx | rfl
      · exact (h.listed d).mpr ⟨x, hx, hinit⟩
      · -- a new device is not initialised
        cases hinit
  · rcases hnew d x hx with hx | rfl
    · exact h.unlisted d x hx hd
    · rfl

/-- The name of a device that is still there. -/
theorem nameOf_eq (hpointers : PointersInv σ) {d : ℕ} {x : Device} (hx : σ.device d = .ok x) :
    σ.nameOf d = some (σ.strings.read x.deviceName) := by
  have hget := (State.device_eq_ok.mp hx).2
  obtain ⟨id, name, hname⟩ := (hpointers.devices d x hget).deviceName
  have hread : σ.strings.read x.deviceName = name :=
    hpointers.read_device hx (show x.field .deviceName = _ from hname)
  rw [hread]
  simp [State.nameOf, hget, hname, Ptr.contents?]

/-- One turn of a lookup at a device that is still there. -/
theorem lookup_body (hpointers : PointersInv σ) {d : ℕ} {x : Device} (hx : σ.device d = .ok x)
    (deviceName : CStr) :
    (do
      let x ← σ.device d
      if deviceName = σ.strings.read x.deviceName then .ok (none, some d) else .ok (x.next, none) :
        Outcome (Option ℕ × Option ℕ)) =
      if σ.nameOf d = some deviceName then .ok (none, some d) else .ok (σ.nextDevice d, none) := by
  have hnext : σ.nextDevice d = x.next := by
    simp [State.nextDevice, (State.device_eq_ok.mp hx).2]
  rw [hx, ok_bind, nameOf_eq hpointers hx, hnext]
  simp only [Option.some.injEq, eq_comm]

/-- Every turn of a lookup, whatever has been finalised. -/
theorem lookup_turn (hpointers : PointersInv σ) {deviceName : CStr} {d : ℕ}
    {r : Option ℕ × Option ℕ} (hr : (do
      let x ← σ.device d
      if deviceName = σ.strings.read x.deviceName then .ok (none, some d) else .ok (x.next, none) :
        Outcome (Option ℕ × Option ℕ)) = .ok r) :
    r = if σ.nameOf d = some deviceName then (none, some d) else (σ.nextDevice d, none) := by
  obtain ⟨x, hx, -⟩ := bind_eq_ok.mp hr
  rw [lookup_body hpointers hx] at hr
  split_ifs at hr ⊢ with hname
  · cases hr; rfl
  · cases hr; rfl

/-- A lookup in a list without finalised devices is a search for the name. -/
theorem deviceGetDevice_eq (h : ListInv σ l) (hpointers : PointersInv σ)
    (halive : ∀ d ∈ l, .device d ∉ σ.finalised) (deviceName : CStr) :
    deviceGetDevice deviceName σ = .ok (l.find? fun d => σ.nameOf d = some deviceName) := by
  have hlt : ∀ d ∈ l, d < σ.devices.length := by
    intro d hd
    obtain ⟨x, hx, -⟩ := (h.listed d).mp hd
    exact (List.getElem?_eq_some_iff.mp hx).1
  refine loop_eq_find h.chain (fun d hd => ?_) (h.chain.length_le hlt)
  obtain ⟨x, hx, -⟩ := (h.listed d).mp hd
  have hdevice : σ.device d = .ok x := State.device_eq_ok.mpr ⟨halive d hd, hx⟩
  rw [lookup_body hpointers hdevice]
  by_cases hname : σ.nameOf d = some deviceName
  · simp [hname]
  · simp [hname]

/-- A lookup finds devices of the list only. -/
theorem mem_of_deviceGetDevice (h : ListInv σ l) (hpointers : PointersInv σ) {deviceName : CStr}
    {d : ℕ} (hfound : deviceGetDevice deviceName σ = .ok (some d)) : d ∈ l := by
  refine mem_of_loop_eq_some h.chain (fun e he r hr => ?_) hfound
  rw [lookup_turn hpointers hr]
  split_ifs
  · exact Or.inr rfl
  · exact Or.inl rfl

/-- A name that is not found is the name of no device of the list. -/
theorem notMem_of_deviceGetDevice (h : ListInv σ l) (hpointers : PointersInv σ) {d : ℕ} {x : Device}
    (hx : σ.device d = .ok x)
    (hnone : deviceGetDevice (σ.strings.read x.deviceName) σ = .ok none) :
    d ∉ l ∧ σ.nameOf d ∉ l.map σ.nameOf := by
  -- the loop has passed every device in the list, comparing its name
  have hpass := passes_of_loop_eq_none h.chain (fun e he r hr => ?_) hnone
  · have hother : ∀ e ∈ l, σ.nameOf e ≠ some (σ.strings.read x.deviceName) := by
      intro e he hname
      have hturn := lookup_turn hpointers (hpass e he)
      rw [if_pos hname] at hturn
      exact absurd (congrArg Prod.snd hturn) (by simp)
    rw [nameOf_eq hpointers hx]
    refine ⟨fun hd => hother d hd (nameOf_eq hpointers hx), fun hd => ?_⟩
    obtain ⟨e, he, heq⟩ := List.mem_map.mp hd
    exact hother e he heq
  · rw [lookup_turn hpointers hr]
    split_ifs
    · exact Or.inr ⟨e, rfl⟩
    · exact Or.inl rfl

/-- A registration that succeeds puts the device in front of the list. -/
theorem register (h : ListInv σ l) {d : ℕ} {x : Device} (hx : σ.devices[d]? = some x) (hd : d ∉ l)
    (hname : σ.nameOf d ∉ l.map σ.nameOf) {env : RegisterEnv}
    (hsucceeds : env.succeeds σ.bus.paths d = true) (strings : Heap CStr) (a : Advertisement)
    (sent : List Message) : ListInv (σ.afterRegister env d strings a sent) (d :: l) := by
  set τ := σ.afterRegister env d strings a sent with hτ
  have hget := State.getElem?_afterRegister hx env strings a sent
  rw [← hτ] at hget
  have hnext : τ.nextDevice = Function.update σ.nextDevice d σ.deviceListHead := by
    funext e
    unfold State.nextDevice
    rw [hget e]
    by_cases hde : d = e
    · subst hde
      simp [Device.afterRegister, hsucceeds, h.unlisted d x hx hd]
    · simp [hde, Ne.symm hde]
  have hnameOf : τ.nameOf = σ.nameOf := by
    funext e
    unfold State.nameOf
    rw [hget e]
    by_cases hde : d = e
    · subst hde
      simp [hx, Device.afterRegister]
    · simp [hde]
  have hhead : τ.deviceListHead = some d := by simp [hτ, State.afterRegister, hsucceeds]
  have hold : ∀ o ∈ σ.registeredObjects, o ∈ τ.registeredObjects := by
    intro o ho
    exact mem_registered_append ho _
  -- the device is linked in front of the list
  refine ⟨?_, ?_, fun e => ?_, fun e y hy he => ?_, fun e he => ?_⟩
  · rw [hnext, hhead]
    exact h.chain.push hd
  · rw [hnameOf, List.map_cons, List.nodup_cons]
    exact ⟨hname, h.names⟩
  · rw [hget e, List.mem_cons]
    by_cases hde : d = e
    · subst hde
      simp [Device.afterRegister, hsucceeds]
    · rw [if_neg hde, h.listed e]
      simp [Ne.symm hde]
  · rw [hget e] at hy
    obtain ⟨hed, hel⟩ := not_or.mp (fun hor => he (List.mem_cons.mpr hor))
    rw [if_neg (Ne.symm hed)] at hy
    exact h.unlisted e y hy hel
  · rcases List.mem_cons.mp he with rfl | he
    · obtain ⟨-, hdevice, -, hadvert⟩ := RegisterEnv.of_succeeds hsucceeds
      simp [hτ, State.afterRegister, State.registeredObjects, hdevice, hadvert]
    · exact ⟨hold _ (h.registered e he).1, hold _ (h.registered e he).2⟩

/-- A registration that fails leaves the list alone. -/
theorem register_fails (h : ListInv σ l) {d : ℕ} {env : RegisterEnv}
    (hfails : env.succeeds σ.bus.paths d = false) (strings : Heap CStr) (a : Advertisement)
    (sent : List Message) : ListInv (σ.afterRegister env d strings a sent) l := by
  refine h.congr ?_ ?_ fun o ho => ?_
  · refine State.map_modify_same _ _ _ _ fun x => ?_
    simp [Device.link, Device.afterRegister, hfails]
  · simp [State.afterRegister, hfails]
  · exact mem_registered_append ho _

end ListInv

/-! ## A step -/

/-- A registration of the device that has returned true. -/
def Succeeded (d : ℕ) : Op × Reply → Bool
  | (.registerDevice _ e, .bool true) => e = d
  | _ => false

namespace ListInv

variable {σ σ' : State} {l : List ℕ}

/-- A step that is no registration leaves the list alone. -/
theorem of_frame (h : ListInv σ l)
    (hdevices : σ'.devices.map Device.link = σ.devices.map Device.link)
    (hhead : σ'.deviceListHead = σ.deviceListHead)
    (hregistered : ∃ entries, σ'.bus.registered = σ.bus.registered ++ entries) : ListInv σ' l := by
  refine h.congr hdevices hhead fun o ho => ?_
  obtain ⟨entries, hentries⟩ := hregistered
  unfold State.registeredObjects
  rw [hentries]
  exact mem_registered_append ho entries

/-- A registration changes nothing, or puts a device in front of the list that was not in it, or
fails and leaves the list alone. -/
theorem deviceRegister (h : ListInv σ l) (hpointers : PointersInv σ) {env : RegisterEnv} {d : ℕ}
    {b : Bool} (hregister : deviceRegister env d σ = .ok (b, σ')) :
    (b = true → d ∉ l) ∧ ListInv σ' (if b then d :: l else l) := by
  obtain ⟨x, hx, ⟨e, -, rfl, rfl⟩ | ⟨hnone, rfl, strings, a, -, -, rfl⟩⟩ :=
    deviceRegister_cases hpointers hregister
  · exact ⟨fun hb => absurd hb (by decide), h⟩
  · obtain ⟨hd, hname⟩ := h.notMem_of_deviceGetDevice hpointers hx hnone
    refine ⟨fun _ => hd, ?_⟩
    cases hsucceeds : env.succeeds σ.bus.paths d with
    | true => exact h.register (State.device_eq_ok.mp hx).2 hd hname hsucceeds strings a _
    | false => exact h.register_fails hsucceeds strings a _

/-- A step puts the device in front whose registration it is, if that returns true. -/
theorem step (h : ListInv σ l) (hpointers : PointersInv σ) {op : Op} {r : Reply}
    (hexec : exec op σ = .ok (r, σ')) :
    ∃ l', ListInv σ' l' ∧
      ∀ d, (if d ∈ l' then 1 else 0) = (if d ∈ l then 1 else 0) + (Succeeded d (op, r)).toNat := by
  have hsame : ∀ d : ℕ, Succeeded d (op, r) = false →
      (if d ∈ l then 1 else 0) = (if d ∈ l then 1 else 0) + (Succeeded d (op, r)).toNat := by
    intro d hd
    rw [hd]
    rfl
  cases exec_deviceStep hexec with
  | created => exact ⟨l, h.createDevice _, fun d => hsame d rfl⟩
  | @registered env d b _ _ hregister =>
    obtain ⟨hd, hinv⟩ := h.deviceRegister hpointers hregister
    refine ⟨_, hinv, fun e => ?_⟩
    cases b with
    | false => rfl
    | true =>
      by_cases hde : d = e
      · subst hde
        simp [Succeeded, hd rfl]
      · simp [Succeeded, hde, Ne.symm hde]
  | answered _ _ =>
    refine ⟨l, h.of_frame ?_ rfl ⟨[], (List.append_nil _).symm⟩, fun d => hsame d rfl⟩
    exact State.map_modify_same _ _ _ _ fun _ => rfl
  | advertAnswered _ _ =>
    refine ⟨l, h.of_frame ?_ rfl ⟨[], (List.append_nil _).symm⟩, fun d => hsame d rfl⟩
    exact State.map_modify_same _ _ _ _ fun _ => rfl
  | finalised hfini =>
    obtain ⟨-, -, oc, rfl⟩ := hpointers.finiObject_spec hfini
    exact ⟨l, h.of_frame rfl rfl ⟨[], (List.append_nil _).symm⟩, fun d => hsame d rfl⟩
  | frame hne _ hframe =>
    refine ⟨l, h.of_frame (hframe.map_eq _ fun _ => rfl) hframe.deviceListHead hframe.registered,
      fun d => hsame d ?_⟩
    unfold Succeeded
    split
    · rename_i env e heq
      cases heq
      exact absurd rfl (hne env e)
    · rfl

end ListInv

/-- In every reachable state there is such a list. -/
theorem ListInv.of_reachable {σ : State} (h : Reachable σ) : ∃ l, ListInv σ l := by
  have hboth : PointersInv σ ∧ ∃ l, ListInv σ l := by
    refine @ReachableBy.induction _ (fun σ => PointersInv σ ∧ ∃ l, ListInv σ l) ?_ ?_ σ h
    · intro σ hinit
      exact ⟨.of_isInitial hinit, [], .of_isInitial hinit⟩
    · intro op σ r σ' _ hinv hexec
      obtain ⟨hpointers, l, hlist⟩ := hinv
      obtain ⟨l', hlist', -⟩ := hlist.step hpointers hexec
      refine ⟨?_, l', hlist'⟩
      exact (exec_changes hexec).invariant (fun _ _ hchange h => h.change hchange) hpointers
  exact hboth.2

end BleSim
