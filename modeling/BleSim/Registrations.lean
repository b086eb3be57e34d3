import BleSim.ValueTheorems

/-!
# What is registered with D-Bus

The table of registered paths and the objects keep in step: every entry is the path of an
attached child, of a device or of its advertisement (`RegistrationInv`), and every object some
stored pointer leads to has an entry (`PointedInv`). No entry is ever removed.
-/

namespace BleSim

open Outcomes WriteOnce

/-! ## The invariants -/

/-- The object path of the advertisement of the `d`-th device. -/
def advertPath (d : ℕ) : CStr := objectPathString (devicePath d) advertisementObjectName 0

/-- The entries are those of attached children, under their paths, and some of devices and of
advertisements that have been set up. -/
structure RegistrationInv (σ : State) : Prop where
  nodes : ∀ (kind : Kind) (c : ℕ) (path : CStr), (path, kind.object c) ∈ σ.bus.registered →
    ∃ n id, (σ.nodes kind)[c]? = some n ∧ n.parentPath ≠ .null ∧ n.objectPath = .block id path
  attached : ∀ (kind : Kind) (c : ℕ) (n : Node), (σ.nodes kind)[c]? = some n →
    n.parentPath ≠ .null →
    ∃ id path, n.objectPath = .block id path ∧ (path, kind.object c) ∈ σ.bus.registered
  devices : ∀ (d : ℕ) (path : CStr), (path, .device d) ∈ σ.bus.registered →
    path = devicePath d ∧ d < σ.devices.length
  adverts : ∀ (d : ℕ) (path : CStr), (path, .advertisement d) ∈ σ.bus.registered →
    path = advertPath d ∧
      ∃ x, σ.devices[d]? = some x ∧ x.advertisement.objectPath ≠ .indeterminate

/-- Every pointer to an object that is stored in the process leads to a registered object. -/
structure PointedInv (σ : State) : Prop where
  head : ∀ d, σ.deviceListHead = some d → .device d ∈ σ.registeredObjects
  next : ∀ x ∈ σ.devices, ∀ d, x.next = some d → .device d ∈ σ.registeredObjects
  heads : ∀ kind, ∀ x ∈ σ.lists kind, ∀ c, x.head = some c → kind.object c ∈ σ.registeredObjects
  links : ∀ kind, ∀ n ∈ σ.nodes kind, ∀ c, n.next = some c → kind.object c ∈ σ.registeredObjects
  pending : ∀ o ∈ σ.bus.pending, o ∈ σ.registeredObjects

theorem mem_registeredObjects {σ : State} {o : Obj} :
    o ∈ σ.registeredObjects ↔ ∃ path, (path, o) ∈ σ.bus.registered := by
  simp [State.registeredObjects]

theorem State.exists_of_mem_modify {α : Type} {l : List α} {i : ℕ} {f : α → α} {b : α}
    (h : b ∈ l.modify i f) : ∃ a ∈ l, b = a ∨ b = f a := by
  obtain ⟨j, hj⟩ := List.mem_iff_getElem?.mp h
  by_cases hij : i = j
  · rw [hij, List.getElem?_modify_eq] at hj
    obtain ⟨a, ha, rfl⟩ := Option.map_eq_some_iff.mp hj
    exact ⟨a, List.mem_of_getElem? ha, Or.inr rfl⟩
  · rw [List.getElem?_modify_ne _ _ hij] at hj
    exact ⟨b, List.mem_of_getElem? hj, Or.inl rfl⟩

theorem State.exists_getElem?_modify {α : Type} {l : List α} {i j : ℕ} {f : α → α} {a : α}
    (h : l[j]? = some a) : ∃ b, (l.modify i f)[j]? = some b ∧ (b = a ∨ b = f a) := by
  by_cases hij : i = j
  · exact ⟨f a, by rw [hij, List.getElem?_modify_eq, h]; rfl, Or.inr rfl⟩
  · exact ⟨a, by rw [List.getElem?_modify_ne _ _ hij, h], Or.inl rfl⟩

/-! ## Entries and paths -/

namespace RegistrationInv

variable {σ σ' : State}

theorem of_isInitial (h : σ.IsInitial) : RegistrationInv σ := by
  obtain ⟨strings, buffers, fails, outOfMemory, rfl⟩ := h
  refine ⟨by simp [State.initial], fun kind c n hn => ?_, by simp [State.initial],
    by simp [State.initial]⟩
  cases kind <;> simp [State.initial, State.nodes] at hn

/-- The registered paths of the children only depend on their nodes. -/
theorem of_nodes (h : RegistrationInv σ) (hnodes : ∀ kind, σ'.nodes kind = σ.nodes kind)
    (hregistered : σ'.bus.registered = σ.bus.registered)
    (hlength : σ.devices.length ≤ σ'.devices.length)
    (hadverts : ∀ (d : ℕ) (x : Device), σ.devices[d]? = some x →
      x.advertisement.objectPath ≠ .indeterminate →
      ∃ x', σ'.devices[d]? = some x' ∧ x'.advertisement.objectPath ≠ .indeterminate) :
    RegistrationInv σ' where
  nodes kind c path hmem := by
    rw [hnodes kind]
    exact h.nodes kind c path (hregistered ▸ hmem)
  attached kind c n hn hattached := by
    rw [hregistered]
    exact h.attached kind c n (hnodes kind ▸ hn) hattached
  devices d path hmem := by
    obtain ⟨hpath, hlt⟩ := h.devices d path (hregistered ▸ hmem)
    exact ⟨hpath, Nat.lt_of_lt_of_le hlt hlength⟩
  adverts d path hmem := by
    obtain ⟨hpath, x, hx, hset⟩ := h.adverts d path (hregistered ▸ hmem)
    exact ⟨hpath, hadverts d x hx hset⟩

/-- A change of a device that leaves its advertisement alone, or sets it up. -/
theorem modify (h : RegistrationInv σ) (hnodes : ∀ kind, σ'.nodes kind = σ.nodes kind)
    (hregistered : σ'.bus.registered = σ.bus.registered) {d : ℕ} {g : Device → Device}
    (hdevices : σ'.devices = σ.devices.modify d g)
    (hg : ∀ x, x.advertisement.objectPath ≠ .indeterminate →
      (g x).advertisement.objectPath ≠ .indeterminate) : RegistrationInv σ' := by
  refine h.of_nodes hnodes hregistered (by simp [hdevices]) fun e x hx hset => ?_
  obtain ⟨x', hx', rfl | rfl⟩ := State.exists_getElem?_modify (i := d) (f := g) hx
  · exact ⟨x', hdevices ▸ hx', hset⟩
  · exact ⟨g x, hdevices ▸ hx', hg x hset⟩

theorem createChild (h : RegistrationInv σ) {kind : Kind} {uuid : CStr}
    (hcreates : CreatesChild σ σ' kind uuid) : RegistrationInv σ' := by
  have hget : ∀ (k : Kind) (c : ℕ) (n : Node), (σ.nodes k)[c]? = some n →
      (σ'.nodes k)[c]? = some n := by
    intro k c n hn
    rw [hcreates.nodes k]
    split_ifs with hk
    · subst hk
      exact State.getElem?_append_of_some hn _
    · exact hn
  refine ⟨fun k c path hmem => ?_, fun k c n hn hattached => ?_, ?_, ?_⟩
  · rw [hcreates.bus] at hmem
    obtain ⟨n, id, hn, hrest⟩ := h.nodes k c path hmem
    exact ⟨n, id, hget k c n hn, hrest⟩
  · rw [hcreates.bus]
    refine h.attached k c n ?_ hattached
    rw [hcreates.nodes k] at hn
    split_ifs at hn with hk
    · subst hk
      rw [State.getElem?_concat] at hn
      split_ifs at hn
      · -- the new child is not attached
        cases hn
        exact absurd rfl hattached
      · exact hn
    · exact hn
  · rw [hcreates.bus, hcreates.devices]
    exact h.devices
  · rw [hcreates.bus, hcreates.devices]
    exact h.adverts

/-- A refused child had no entry, and gets none. -/
theorem refuse (h : RegistrationInv σ) {kind : Kind} {p c : ℕ} {path : Ptr CStr}
    {children : Children} {node : Node} (hpasses : Passes σ kind p c path children node)
    (newPath : CStr) : RegistrationInv (σ.refuse kind c node newPath) := by
  have hn := (State.node_eq_ok.mp hpasses.child).2
  have hbus : (σ.refuse kind c node newPath).bus = σ.bus := by simp [State.refuse]
  have hdevices : (σ.refuse kind c node newPath).devices = σ.devices := by simp [State.refuse]
  -- the refused child has no parent, before and after
  have hget : ∀ (k : Kind) (e : ℕ) (m : Node), m.parentPath ≠ .null →
      (((σ.refuse kind c node newPath).nodes k)[e]? = some m ↔ (σ.nodes k)[e]? = some m) := by
    intro k e m hm
    rw [State.nodes_refuse]
    split_ifs with hk
    · subst hk
      by_cases hce : c = e
      · subst hce
        rw [List.getElem?_modify_eq, hn]
        constructor
        · intro heq
          cases heq
          exact absurd hpasses.unowned hm
        · intro heq
          cases heq
          exact absurd hpasses.unowned hm
      · rw [List.getElem?_modify_ne _ _ hce]
    · rfl
  refine ⟨fun k e path hmem => ?_, fun k e m hm hattached => ?_, ?_, ?_⟩
  · rw [hbus] at hmem
    obtain ⟨m, id, hm, hattached, hpath⟩ := h.nodes k e path hmem
    exact ⟨m, id, (hget k e m hattached).mpr hm, hattached, hpath⟩
  · rw [hbus]
    exact h.attached k e m ((hget k e m hattached).mp hm) hattached
  · rw [hbus, hdevices]
    exact h.devices
  · rw [hbus, hdevices]
    exact h.adverts

/-- An added child gets an entry under its path. -/
theorem attach (h : RegistrationInv σ) {kind : Kind} {p c : ℕ} {path : Ptr CStr}
    {children : Children} {node : Node} (hpasses : Passes σ kind p c path children node) :
    RegistrationInv (σ.attach kind p c node path children) := by
  have hn := (State.node_eq_ok.mp hpasses.child).2
  have hregistered := σ.registered_attach kind p c node path children
  have hlength := σ.length_devices_attach kind p c node path children
  have hget := hpasses.getElem?_nodes
  have hnewPath : (σ.attachedNode kind node path children).objectPath
      = .block σ.strings.size (σ.childPath kind path children) := rfl
  refine ⟨fun k e path' hmem => ?_, fun k e m hm hattached => ?_, fun d path' hmem => ?_,
    fun d path' hmem => ?_⟩
  · rw [hget]
    rw [hregistered] at hmem
    rcases List.mem_append.mp hmem with hmem | hmem
    · obtain ⟨m, id, hm, hattached, hpath⟩ := h.nodes k e path' hmem
      -- the added child was in no list, so it had no entry
      have hne : ¬ (k = kind ∧ e = c) := by
        rintro ⟨rfl, rfl⟩
        rw [hn] at hm
        cases hm
        exact hattached hpasses.unowned
      rw [if_neg hne]
      exact ⟨m, id, hm, hattached, hpath⟩
    · obtain ⟨rfl, hobject⟩ := Prod.mk.inj (List.mem_singleton.mp hmem)
      rw [if_pos (Kind.object_injective hobject)]
      exact ⟨_, _, rfl, by simp [State.attachedNode], hnewPath⟩
  · rw [hregistered]
    rw [hget] at hm
    split_ifs at hm with hke
    · cases hm
      obtain ⟨rfl, rfl⟩ := hke
      exact ⟨_, _, hnewPath, List.mem_append_right _ List.mem_cons_self⟩
    · obtain ⟨id, path', hpath, hmem⟩ := h.attached k e m hm hattached
      exact ⟨id, path', hpath, List.mem_append_left _ hmem⟩
  · rw [hlength]
    rw [hregistered] at hmem
    rcases List.mem_append.mp hmem with hmem | hmem
    · exact h.devices d path' hmem
    · have hobject := (Prod.mk.inj (List.mem_singleton.mp hmem)).2
      cases kind <;> cases hobject
  · rw [hregistered] at hmem
    rcases List.mem_append.mp hmem with hmem | hmem
    · obtain ⟨hpath, x, hx, hset⟩ := h.adverts d path' hmem
      refine ⟨hpath, ?_⟩
      cases kind with
      | service =>
        obtain ⟨x', hx', hsame⟩ := State.exists_getElem?_modify (i := p)
          (f := fun x => { x with services := ⟨some c, children.count + 1⟩ }) hx
        refine ⟨x', hx', ?_⟩
        rcases hsame with rfl | rfl
        · exact hset
        · exact hset
      | characteristic => exact ⟨x, hx, hset⟩
      | descriptor => exact ⟨x, hx, hset⟩
    · have hobject := (Prod.mk.inj (List.mem_singleton.mp hmem)).2
      cases kind <;> cases hobject

/-- A registration of a device adds one of its two entries. -/
theorem publish (h : RegistrationInv σ) (hpointers : PointersInv σ) {d : ℕ} {o : Obj} {path : CStr}
    (hpublishes : Publishes σ d o path) :
    RegistrationInv
      { σ with bus := { σ.bus with registered := σ.bus.registered ++ [(path, o)] } } := by
  have hold : ∀ {path' : CStr} {o' : Obj}, (path', o') ∈ σ.bus.registered ++ [(path, o)] →
      (path', o') ∈ σ.bus.registered ∨ path' = path ∧ o' = o := by
    intro path' o' hmem
    rcases List.mem_append.mp hmem with hmem | hmem
    · exact Or.inl hmem
    · exact Or.inr (Prod.mk.inj (List.mem_singleton.mp hmem))
  -- the new entry is none of a child
  have hkind : ∀ (kind : Kind) (c : ℕ), kind.object c ≠ o := by
    intro kind c
    cases hpublishes <;> cases kind <;> simp [Kind.object]
  refine ⟨fun kind c path' hmem => ?_, fun kind c n hn hattached => ?_, fun e path' hmem => ?_,
    fun e path' hmem => ?_⟩
  · rcases hold hmem with hmem | ⟨-, heq⟩
    · exact h.nodes kind c path' hmem
    · exact absurd heq (hkind kind c)
  · obtain ⟨id, path', hpath, hmem⟩ := h.attached kind c n hn hattached
    exact ⟨id, path', hpath, List.mem_append_left _ hmem⟩
  · rcases hold hmem with hmem | ⟨rfl, heq⟩
    · exact h.devices e path' hmem
    · cases hpublishes with
      | device hx =>
        cases heq
        exact ⟨hpointers.read_devicePath hx,
          (List.getElem?_eq_some_iff.mp (State.device_eq_ok.mp hx).2).1⟩
      | advertisement hx hpath => cases heq
  · rcases hold hmem with hmem | ⟨rfl, heq⟩
    · exact h.adverts e path' hmem
    · cases hpublishes with
      | device hx => cases heq
      | @advertisement x id path hx hpath =>
        cases heq
        obtain ⟨hfin, hget⟩ := State.device_eq_ok.mp hx
        refine ⟨?_, x, hget, by rw [hpath]; simp⟩
        rcases (hpointers.devices d x hget).advertisement with hunset | hnamed
        · rw [hunset.objectPath] at hpath
          cases hpath
        · obtain ⟨i, hi⟩ := hnamed.objectPath
          exact hpointers.read_device hx (show x.field .advertPath = _ from hi)

theorem change {op : Op} (hchange : Change op σ σ') (hpointers : PointersInv σ)
    (h : RegistrationInv σ) : RegistrationInv σ' := by
  have hkeep : ∀ (d : ℕ) (x : Device), σ.devices[d]? = some x →
      x.advertisement.objectPath ≠ .indeterminate →
      ∃ x', σ.devices[d]? = some x' ∧ x'.advertisement.objectPath ≠ .indeterminate :=
    fun d x hx hset => ⟨x, hx, hset⟩
  cases hchange with
  | createDevice =>
    refine h.of_nodes (State.nodes_congr rfl rfl rfl) rfl (by simp [luaiCreateDevice])
      fun d x hx hset => ⟨x, ?_, hset⟩
    exact State.getElem?_append_of_some hx _
  | createService => exact h.createChild (luaiCreateService_creates _ σ)
  | createCharacteristic => exact h.createChild (luaiCreateCharacteristic_creates _ σ)
  | createDescriptor => exact h.createChild (luaiCreateDescriptor_creates _ σ)
  | refused hpasses _ => exact h.refuse hpasses _
  | added hpasses _ => exact h.attach hpasses
  | controller hinit =>
    obtain ⟨x, vc, oc, co, cc, -, rfl, -⟩ := deviceInitController_spec hinit
    exact h.modify (State.nodes_congr rfl rfl rfl) rfl rfl fun _ hset => hset
  | registered hpublishes _ => exact h.publish hpointers hpublishes
  | requested => exact h.of_nodes (State.nodes_congr rfl rfl rfl) rfl (Nat.le_refl _) hkeep
  | asked => exact h.of_nodes (State.nodes_congr rfl rfl rfl) rfl (Nat.le_refl _) hkeep
  | advertised hinit =>
    obtain ⟨x, strings, a, i, j, k, -, rfl, -, -, -, -, -, -, -, -, hpath, -⟩ :=
      deviceInitAdvertisement_spec hinit
    exact h.modify (State.nodes_congr rfl rfl rfl) rfl rfl fun _ _ => by simp [hpath]
  | listed _ _ =>
    rw [State.listDevice_eq]
    exact h.modify (State.nodes_congr rfl rfl rfl) rfl rfl fun _ hset => hset
  | valued _ hframe =>
    have hnodes := hframe.nodes
    obtain ⟨b, cs, sent, rfl⟩ := hframe.rest
    exact h.of_nodes hnodes rfl (Nat.le_refl _) hkeep
  | answered hreply =>
    obtain rfl := onRegisterApplicationReply_spec hreply
    exact h.modify (State.nodes_congr rfl rfl rfl) rfl rfl fun _ hset => hset
  | advertAnswered hreply =>
    obtain ⟨x, -, rfl⟩ := onRegisterAdvertReply_spec hreply
    exact h.modify (State.nodes_congr rfl rfl rfl) rfl rfl fun _ hset => hset
  | reused => exact h.of_nodes (State.nodes_congr rfl rfl rfl) rfl (Nat.le_refl _) hkeep
  | finalised hfini =>
    obtain ⟨-, -, oc, rfl⟩ := hpointers.finiObject_spec hfini
    exact h.of_nodes (State.nodes_congr rfl rfl rfl) rfl (Nat.le_refl _) hkeep

theorem of_reachable (h : Reachable σ) : RegistrationInv σ := by
  have hboth : PointersInv σ ∧ RegistrationInv σ :=
    h.changeInduction (fun σ => PointersInv σ ∧ RegistrationInv σ)
      (fun _ hinit => ⟨.of_isInitial hinit, of_isInitial hinit⟩)
      fun _ _ _ _ hchange hinv => ⟨hinv.1.change hchange, hinv.2.change hchange hinv.1⟩
  exact hboth.2

end RegistrationInv

/-! ## Pointers to objects -/

namespace PointedInv

variable {σ σ' : State}

theorem of_isInitial (h : σ.IsInitial) : PointedInv σ := by
  obtain ⟨strings, buffers, fails, outOfMemory, rfl⟩ := h
  refine ⟨by simp [State.initial], by simp [State.initial], fun kind x hx => ?_,
    fun kind n hn => ?_, by simp [State.initial]⟩
  · cases kind <;> simp [State.initial, State.lists] at hx
  · cases kind <;> simp [State.initial, State.nodes] at hn

/-- Every pointer is an old one or one to an object that is registered now. -/
theorem of_pointers (h : PointedInv σ)
    (hregistered : ∀ o ∈ σ.registeredObjects, o ∈ σ'.registeredObjects)
    (hhead : ∀ d, σ'.deviceListHead = some d →
      σ.deviceListHead = some d ∨ .device d ∈ σ'.registeredObjects)
    (hnext : ∀ x' ∈ σ'.devices, ∀ d, x'.next = some d →
      (∃ x ∈ σ.devices, x.next = some d) ∨ .device d ∈ σ'.registeredObjects)
    (hheads : ∀ kind, ∀ x' ∈ σ'.lists kind, ∀ c, x'.head = some c →
      (∃ x ∈ σ.lists kind, x.head = some c) ∨ kind.object c ∈ σ'.registeredObjects)
    (hlinks : ∀ kind, ∀ n' ∈ σ'.nodes kind, ∀ c, n'.next = some c →
      (∃ n ∈ σ.nodes kind, n.next = some c) ∨ kind.object c ∈ σ'.registeredObjects)
    (hpending : ∀ o ∈ σ'.bus.pending, o ∈ σ.bus.pending ∨ o ∈ σ'.registeredObjects) :
    PointedInv σ' where
  head d hd := (hhead d hd).elim (fun hd => hregistered _ (h.head d hd)) id
  next x' hx' d hd := by
    rcases hnext x' hx' d hd with ⟨x, hx, hd⟩ | hd
    · exact hregistered _ (h.next x hx d hd)
    · exact hd
  heads kind x' hx' c hc := by
    rcases hheads kind x' hx' c hc with ⟨x, hx, hc⟩ | hc
    · exact hregistered _ (h.heads kind x hx c hc)
    · exact hc
  links kind n' hn' c hc := by
    rcases hlinks kind n' hn' c hc with ⟨n, hn, hc⟩ | hc
    · exact hregistered _ (h.links kind n hn c hc)
    · exact hc
  pending o ho := (hpending o ho).elim (fun ho => hregistered _ (h.pending o ho)) id

/-- A change that at most modifies one device and forgets requests. -/
theorem same (h : PointedInv σ) (hregistered : σ'.bus.registered = σ.bus.registered)
    (hhead : σ'.deviceListHead = σ.deviceListHead) (hframe : TreeFrame σ σ') (d : ℕ)
    (g : Device → Device)
    (hdevices : σ'.devices = σ.devices ∨ σ'.devices = σ.devices.modify d g)
    (hg : ∀ x, (g x).next = x.next) (hpending : ∀ o ∈ σ'.bus.pending, o ∈ σ.bus.pending) :
    PointedInv σ' := by
  refine h.of_pointers (fun o ho => ?_) (fun e he => Or.inl (hhead ▸ he))
    (fun x' hx' e he => Or.inl ?_)
    (fun kind x' hx' c hc => Or.inl ⟨x', hframe.lists kind ▸ hx', hc⟩)
    (fun kind n' hn' c hc => Or.inl ⟨n', hframe.nodes kind ▸ hn', hc⟩)
    fun o ho => Or.inl (hpending o ho)
  · unfold State.registeredObjects at ho ⊢
    rwa [hregistered]
  · rcases hdevices with hdevices | hdevices
    · exact ⟨x', hdevices ▸ hx', he⟩
    · obtain ⟨x, hx, rfl | rfl⟩ := State.exists_of_mem_modify (hdevices ▸ hx')
      · exact ⟨x', hx, he⟩
      · exact ⟨x, hx, (hg x).symm.trans he⟩

theorem createChild (h : PointedInv σ) {kind : Kind} {uuid : CStr}
    (hcreates : CreatesChild σ σ' kind uuid) : PointedInv σ' := by
  refine h.of_pointers (fun o ho => ?_) (fun d hd => Or.inl (hcreates.deviceListHead ▸ hd))
    (fun x' hx' d hd => Or.inl ⟨x', hcreates.devices ▸ hx', hd⟩)
    (fun k x' hx' c hc => Or.inl ?_) (fun k n' hn' c hc => Or.inl ?_)
    fun o ho => Or.inl (hcreates.bus ▸ ho)
  · unfold State.registeredObjects at ho ⊢
    rwa [hcreates.bus]
  · obtain ⟨ls, hlists, hls⟩ := hcreates.lists k
    rw [hlists] at hx'
    rcases List.mem_append.mp hx' with hx' | hx'
    · exact ⟨x', hx', hc⟩
    · rw [hls x' hx'] at hc
      cases hc
  · rw [hcreates.nodes k] at hn'
    split_ifs at hn' with hk
    · subst hk
      rcases List.mem_append.mp hn' with hn' | hn'
      · exact ⟨n', hn', hc⟩
      · rw [List.mem_singleton.mp hn'] at hc
        cases hc
    · exact ⟨n', hn', hc⟩

/-- A refused child keeps its link. -/
theorem refuse (h : PointedInv σ) {kind : Kind} {p c : ℕ} {path : Ptr CStr} {children : Children}
    {node : Node} (hpasses : Passes σ kind p c path children node) (newPath : CStr) :
    PointedInv (σ.refuse kind c node newPath) := by
  have hn := (State.node_eq_ok.mp hpasses.child).2
  refine h.of_pointers (fun o ho => ?_) (fun d hd => Or.inl ?_) (fun x' hx' d hd => Or.inl ?_)
    (fun k x' hx' e he => Or.inl ?_) (fun k n' hn' e he => Or.inl ?_) fun o ho => Or.inl ?_
  · simpa [State.registeredObjects, State.refuse] using ho
  · simpa [State.refuse] using hd
  · exact ⟨x', by simpa [State.refuse] using hx', hd⟩
  · exact ⟨x', by rwa [State.lists_refuse] at hx', he⟩
  · rw [State.nodes_refuse] at hn'
    split_ifs at hn' with hk
    · subst hk
      rcases State.mem_of_mem_modify hn' with rfl | hn'
      · exact ⟨node, List.mem_of_getElem? hn, he⟩
      · exact ⟨n', hn', he⟩
    · exact ⟨n', hn', he⟩
  · simpa [State.refuse] using ho

/-- An added child is registered, and links to the child that was first before. -/
theorem attach (h : PointedInv σ) {kind : Kind} {p c : ℕ} {path : Ptr CStr} {children : Children}
    {node : Node} (hpasses : Passes σ kind p c path children node) :
    PointedInv (σ.attach kind p c node path children) := by
  have hx := (State.parent_eq_ok.mp hpasses.parent).2.2
  have hregistered := σ.registeredObjects_attach kind p c node path children
  refine h.of_pointers (fun o ho => ?_) (fun d hd => Or.inl ?_) (fun x' hx' d hd => Or.inl ?_)
    (fun k x' hx' e he => ?_) (fun k n' hn' e he => ?_) fun o ho => Or.inl ?_
  · rw [hregistered]
    exact List.mem_append_left _ ho
  · simpa [State.attach] using hd
  · unfold State.attach at hx'
    cases kind with
    | service =>
      obtain ⟨x, hx, rfl | rfl⟩ := State.exists_of_mem_modify hx'
      · exact ⟨x', hx, hd⟩
      · exact ⟨x, hx, hd⟩
    | characteristic => exact ⟨x', hx', hd⟩
    | descriptor => exact ⟨x', hx', hd⟩
  · rw [State.lists_attach] at hx'
    split_ifs at hx' with hk
    · subst hk
      rcases State.mem_of_mem_modify hx' with rfl | hx'
      · cases he
        right
        rw [hregistered]
        exact List.mem_append_right _ List.mem_cons_self
      · exact Or.inl ⟨x', hx', he⟩
    · exact Or.inl ⟨x', hx', he⟩
  · rw [State.nodes_attach] at hn'
    split_ifs at hn' with hk
    · subst hk
      rcases State.mem_of_mem_modify hn' with rfl | hn'
      · right
        rw [hregistered]
        exact List.mem_append_left _ (h.heads k children (List.mem_of_getElem? hx) e he)
      · exact Or.inl ⟨n', hn', he⟩
    · exact Or.inl ⟨n', hn', he⟩
  · simpa [State.attach] using ho

/-- A registered device becomes the first in the list of devices. -/
theorem listDevice (h : PointedInv σ) {d : ℕ} (hd : .device d ∈ σ.registeredObjects) :
    PointedInv (σ.listDevice d) := by
  have hframe : TreeFrame σ (σ.listDevice d) := by
    rw [State.listDevice_eq]
    exact .of_devices rfl rfl rfl (Or.inr ⟨d, _, rfl, fun _ => rfl⟩)
  rw [State.listDevice_eq] at hframe ⊢
  refine h.of_pointers (fun o ho => ho) (fun e he => Or.inr ?_) (fun x' hx' e he => ?_)
    (fun kind x' hx' c hc => Or.inl ⟨x', hframe.lists kind ▸ hx', hc⟩)
    (fun kind n' hn' c hc => Or.inl ⟨n', hframe.nodes kind ▸ hn', hc⟩) fun o ho => Or.inl ho
  · cases he
    exact hd
  · -- the new link is the old head of the list
    obtain ⟨x, hx, rfl | rfl⟩ := State.exists_of_mem_modify hx'
    · exact Or.inl ⟨x', hx, he⟩
    · cases hhead : σ.deviceListHead with
      | none =>
        rw [hhead] at he
        exact Or.inl ⟨x, hx, he⟩
      | some e' =>
        rw [hhead] at he
        cases he
        exact Or.inr (h.head e hhead)

/-- A new device has no links, and no services. -/
theorem createDevice (h : PointedInv σ) (deviceName : CStr) :
    PointedInv (luaiCreateDevice deviceName σ).2 := by
  refine h.of_pointers (fun o ho => ho) (fun d hd => Or.inl hd) (fun x' hx' d hd => Or.inl ?_)
    (fun kind x' hx' c hc => Or.inl ?_)
    (fun kind n' hn' c hc => Or.inl ⟨n', State.nodes_congr rfl rfl rfl kind ▸ hn', hc⟩)
    fun o ho => Or.inl ho
  · rcases List.mem_append.mp hx' with hx' | hx'
    · exact ⟨x', hx', hd⟩
    · rw [List.mem_singleton.mp hx'] at hd
      cases hd
  · cases kind with
    | service =>
      obtain ⟨x, hx, rfl⟩ := List.mem_map.mp hx'
      rcases List.mem_append.mp hx with hx | hx
      · exact ⟨_, List.mem_map_of_mem hx, hc⟩
      · rw [List.mem_singleton.mp hx] at hc
        cases hc
    | characteristic => exact ⟨x', hx', hc⟩
    | descriptor => exact ⟨x', hx', hc⟩

/-- A change of the connection keeps what is pointed to registered, also by new requests. -/
theorem of_bus (h : PointedInv σ) {bus : Connection}
    (hregistered : ∀ o ∈ σ.registeredObjects, o ∈ ({ σ with bus } : State).registeredObjects)
    (hpending : ∀ o ∈ bus.pending,
      o ∈ σ.bus.pending ∨ o ∈ ({ σ with bus } : State).registeredObjects) :
    PointedInv { σ with bus } :=
  h.of_pointers hregistered (fun _ hd => Or.inl hd) (fun x' hx' _ hd => Or.inl ⟨x', hx', hd⟩)
    (fun kind x' hx' _ hc => Or.inl ⟨x', State.lists_congr rfl rfl rfl kind ▸ hx', hc⟩)
    (fun kind n' hn' _ hc => Or.inl ⟨n', State.nodes_congr rfl rfl rfl kind ▸ hn', hc⟩) hpending

theorem change {op : Op} (hchange : Change op σ σ') (hpointers : PointersInv σ)
    (h : PointedInv σ) : PointedInv σ' := by
  have hrefl : ∀ o ∈ σ.bus.pending, o ∈ σ.bus.pending := fun _ ho => ho
  cases hchange with
  | createDevice => exact h.createDevice _
  | createService => exact h.createChild (luaiCreateService_creates _ σ)
  | createCharacteristic => exact h.createChild (luaiCreateCharacteristic_creates _ σ)
  | createDescriptor => exact h.createChild (luaiCreateDescriptor_creates _ σ)
  | refused hpasses _ => exact h.refuse hpasses _
  | added hpasses _ => exact h.attach hpasses
  | controller hinit =>
    obtain ⟨x, vc, oc, co, cc, -, rfl, -⟩ := deviceInitController_spec hinit
    exact h.same rfl rfl (.of_devices rfl rfl rfl (Or.inr ⟨_, _, rfl, fun _ => rfl⟩)) _ _
      (Or.inr rfl) (fun _ => rfl) hrefl
  | registered _ _ =>
    exact h.of_bus (fun o ho => mem_registered_append ho _) fun o ho => Or.inl ho
  | requested ho =>
    refine h.of_bus (fun o ho => ho) fun o' ho' => ?_
    simp only [dbusConnectionSendWithReply] at ho'
    split_ifs at ho'
    · rcases List.mem_append.mp ho' with ho' | ho'
      · exact Or.inl ho'
      · rw [List.mem_singleton.mp ho']
        exact Or.inr ho
    · exact Or.inl ho'
  | asked => exact h.of_bus (fun o ho => ho) fun o ho => Or.inl ho
  | advertised hinit =>
    obtain ⟨x, strings, a, i, j, k, -, rfl, -⟩ := deviceInitAdvertisement_spec hinit
    exact h.same rfl rfl (.of_devices rfl rfl rfl (Or.inr ⟨_, _, rfl, fun _ => rfl⟩)) _ _
      (Or.inr rfl) (fun _ => rfl) hrefl
  | listed hd _ => exact h.listDevice hd
  | valued _ hframe =>
    have htree : TreeFrame σ _ := ⟨hframe.nodes, hframe.lists⟩
    obtain ⟨b, cs, sent, rfl⟩ := hframe.rest
    exact h.same rfl rfl htree 0 id (Or.inl rfl) (fun _ => rfl) hrefl
  | answered hreply =>
    obtain rfl := onRegisterApplicationReply_spec hreply
    exact h.same rfl rfl (.of_devices rfl rfl rfl (Or.inr ⟨_, _, rfl, fun _ => rfl⟩)) _ _
      (Or.inr rfl) (fun _ => rfl) fun _ => List.mem_of_mem_erase
  | advertAnswered hreply =>
    obtain ⟨x, -, rfl⟩ := onRegisterAdvertReply_spec hreply
    exact h.same rfl rfl (.of_devices rfl rfl rfl (Or.inr ⟨_, _, rfl, fun _ => rfl⟩)) _ _
      (Or.inr rfl) (fun _ => rfl) fun _ => List.mem_of_mem_erase
  | reused =>
    exact h.same rfl rfl (.of_devices rfl rfl rfl (Or.inl rfl)) 0 id
      (Or.inl rfl) (fun _ => rfl) hrefl
  | finalised hfini =>
    obtain ⟨-, -, oc, rfl⟩ := hpointers.finiObject_spec hfini
    exact h.same rfl rfl (.of_devices rfl rfl rfl (Or.inl rfl)) 0 id
      (Or.inl rfl) (fun _ => rfl) hrefl

end PointedInv

end BleSim
