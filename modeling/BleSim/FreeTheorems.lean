import BleSim.ForestTheorems
import BleSim.LifetimeTheorems

/-!
# Freeing at shutdown

When the Lua state is closed, every object is finalised once, in any order. This frees nothing
but live blocks exactly when every device has got as far as setting up its advertisement, and
no child without a parent has kept the path that was refused.
-/

namespace BleSim

open Outcomes WriteOnce

/-! ## Before the shutdown -/

/-- As long as nothing is finalised, only live blocks are freed, and the path of a child
without a parent is freed as soon as it is refused. -/
structure FreeInv (σ : State) : Prop where
  frees : σ.strings.invalidFrees = []
  dead : ∀ (kind : Kind) (c : ℕ) (n : Node) (id : ℕ) (a : CStr), (σ.nodes kind)[c]? = some n →
    n.parentPath = .null → n.objectPath = .block id a → id ∉ σ.strings.live

namespace FreeInv

variable {σ σ' : State}

theorem of_isInitial (h : σ.IsInitial) : FreeInv σ := by
  obtain ⟨strings, buffers, fails, outOfMemory, rfl⟩ := h
  refine ⟨rfl, fun kind c n id a hn => ?_⟩
  cases kind <;> simp [State.initial, State.nodes] at hn

/-- A change that allocates, and that gives no child without a parent a path. -/
theorem of_extends (h : FreeInv σ) (hpointers : PointersInv σ)
    (hstrings : σ.strings.Extends σ'.strings)
    (hnodes : ∀ (kind : Kind) (c : ℕ) (n : Node), (σ'.nodes kind)[c]? = some n →
      n.parentPath = .null → n.objectPath ≠ .null → (σ.nodes kind)[c]? = some n) : FreeInv σ' where
  frees := hstrings.invalidFrees.trans h.frees
  dead kind c n id a hn hnull hpath hlive := by
    have hn := hnodes kind c n hn hnull (by rw [hpath]; simp)
    refine h.dead kind c n id a hn hnull hpath (hstrings.fresh id hlive ?_)
    have hslot := (State.slot_node hn .objectPath).trans hpath
    exact hpointers.owns.bounded (.node kind c .objectPath) id a hslot

/-- A change that does not touch the children. -/
theorem of_nodes (h : FreeInv σ) (hpointers : PointersInv σ)
    (hstrings : σ.strings.Extends σ'.strings) (hnodes : ∀ kind, σ'.nodes kind = σ.nodes kind) :
    FreeInv σ' :=
  h.of_extends hpointers hstrings fun kind _ _ hn _ _ => hnodes kind ▸ hn

theorem createChild (h : FreeInv σ) (hpointers : PointersInv σ) {kind : Kind} {uuid : CStr}
    (hcreates : CreatesChild σ σ' kind uuid) : FreeInv σ' := by
  refine h.of_extends hpointers (hcreates.strings ▸ .alloc _ _) fun k c n hn _ hpath => ?_
  rw [hcreates.nodes k] at hn
  split_ifs at hn with hk
  · subst hk
    rw [List.getElem?_append] at hn
    split_ifs at hn with hlt
    · exact hn
    · rw [List.mem_singleton.mp (List.mem_of_getElem? hn)] at hpath
      exact absurd rfl hpath
  · exact hn

/-- The path that was refused is allocated and freed. -/
theorem refuse (h : FreeInv σ) (hpointers : PointersInv σ) {kind : Kind} {p c : ℕ} {path : Ptr CStr}
    {children : Children} {node : Node} (hpasses : Passes σ kind p c path children node)
    (newPath : CStr) : FreeInv (σ.refuse kind c node newPath) := by
  have hn := (State.node_eq_ok.mp hpasses.child).2
  have hstrings : (σ.refuse kind c node newPath).strings =
      (σ.strings.alloc newPath).2.free (σ.strings.alloc newPath).1 := by
    simp [State.refuse]
  have hext : σ.strings.Extends (σ.refuse kind c node newPath).strings := by
    rw [hstrings]
    exact (Heap.Extends.alloc _ _).free_new (Finset.mem_insert_self _ _) (Nat.le_refl _) newPath
  -- the block of the refused path has been released
  have hgone : σ.strings.size ∉ (σ.refuse kind c node newPath).strings.live := by
    rw [hstrings, Heap.alloc_fst, (Heap.free_block (Finset.mem_insert_self _ _) _).1]
    exact Finset.notMem_erase _ _
  refine ⟨hext.invalidFrees.trans h.frees, fun k e m id a hm hnull hpath hlive => ?_⟩
  rw [State.nodes_refuse] at hm
  have hold : ∀ {m : Node}, (σ.nodes k)[e]? = some m → m.parentPath = .null →
      m.objectPath = .block id a → False := fun hm hnull hpath => by
    have hlt := hpointers.owns.bounded (.node k e .objectPath) id a
      ((State.slot_node hm _).trans hpath)
    exact h.dead k e _ id a hm hnull hpath (hext.fresh id hlive hlt)
  split_ifs at hm with hk
  · subst hk
    by_cases hce : c = e
    · subst hce
      rw [List.getElem?_modify_eq, hn] at hm
      cases hm
      cases hpath
      exact hgone hlive
    · rw [List.getElem?_modify_ne _ _ hce] at hm
      exact hold hm hnull hpath
  · exact hold hm hnull hpath

/-- An added child has a parent from now on. -/
theorem attach (h : FreeInv σ) (hpointers : PointersInv σ) {kind : Kind} {p c : ℕ} {path : Ptr CStr}
    {children : Children} {node : Node} (hpasses : Passes σ kind p c path children node) :
    FreeInv (σ.attach kind p c node path children) := by
  have hn := (State.node_eq_ok.mp hpasses.child).2
  have hext : σ.strings.Extends (σ.attach kind p c node path children).strings := by
    simp only [State.attach, State.setChildren_strings, State.setNode_strings]
    exact (Heap.Extends.alloc _ _).trans (.alloc _ _)
  refine h.of_extends hpointers hext fun k e m hm hnull _ => ?_
  rw [State.nodes_attach] at hm
  split_ifs at hm with hk
  · subst hk
    by_cases hce : c = e
    · subst hce
      rw [List.getElem?_modify_eq, hn] at hm
      cases hm
      simp [State.attachedNode] at hnull
    · rwa [List.getElem?_modify_ne _ _ hce] at hm
  · exact hm

theorem change {op : Op} (hop : op.NoFini) (hchange : Change op σ σ') (hpointers : PointersInv σ)
    (h : FreeInv σ) : FreeInv σ' := by
  cases hchange with
  | @createDevice deviceName =>
    exact h.of_nodes hpointers ((Heap.Extends.alloc σ.strings deviceName).trans
      (.alloc _ (objectPathString emptyString deviceObjectName σ.deviceCount)))
      (State.nodes_congr rfl rfl rfl)
  | createService => exact h.createChild hpointers (luaiCreateService_creates _ σ)
  | createCharacteristic => exact h.createChild hpointers (luaiCreateCharacteristic_creates _ σ)
  | createDescriptor => exact h.createChild hpointers (luaiCreateDescriptor_creates _ σ)
  | refused hpasses _ => exact h.refuse hpointers hpasses _
  | added hpasses _ => exact h.attach hpointers hpasses
  | controller hinit =>
    obtain ⟨x, vc, oc, co, cc, -, rfl, -⟩ := deviceInitController_spec hinit
    exact h.of_nodes hpointers (.alloc _ (adapterPath σ.controllerCount))
      (State.nodes_congr rfl rfl rfl)
  | registered _ _ => exact h.of_nodes hpointers (.refl _) (State.nodes_congr rfl rfl rfl)
  | requested => exact h.of_nodes hpointers (.refl _) (State.nodes_congr rfl rfl rfl)
  | asked => exact h.of_nodes hpointers (.refl _) (State.nodes_congr rfl rfl rfl)
  | advertised hinit =>
    obtain ⟨x, strings, a, i, j, k, -, rfl, -, hext, -⟩ := deviceInitAdvertisement_spec hinit
    exact h.of_nodes hpointers hext (State.nodes_congr rfl rfl rfl)
  | listed _ _ =>
    rw [State.listDevice_eq]
    exact h.of_nodes hpointers (.refl _) (State.nodes_congr rfl rfl rfl)
  | valued _ hframe =>
    exact h.of_nodes hpointers (hframe.strings ▸ .refl _) hframe.nodes
  | answered hreply =>
    obtain rfl := onRegisterApplicationReply_spec hreply
    exact h.of_nodes hpointers (.refl _) (State.nodes_congr rfl rfl rfl)
  | advertAnswered hreply =>
    obtain ⟨x, -, rfl⟩ := onRegisterAdvertReply_spec hreply
    exact h.of_nodes hpointers (.refl _) (State.nodes_congr rfl rfl rfl)
  | reused =>
    refine ⟨h.frees, fun kind c n id a hn => ?_⟩
    rw [State.nodes_congr rfl rfl rfl kind] at hn
    exact h.dead kind c n id a hn
  | finalised _ => exact absurd hop id

theorem of_reachableBy (h : ReachableBy Op.NoFini σ) : FreeInv σ := by
  have hboth : PointersInv σ ∧ FreeInv σ :=
    h.changeInduction (fun σ => PointersInv σ ∧ FreeInv σ)
      (fun _ hinit => ⟨.of_isInitial hinit, of_isInitial hinit⟩)
      fun _ _ _ hop hchange hinv => ⟨hinv.1.change hchange, hinv.2.change hop hchange hinv.1⟩
  exact hboth.2

end FreeInv

/-! ## The shutdown -/

/-- The objects the script has created. -/
def State.Created (σ : State) : Obj → Prop
  | .device d => d < σ.devices.length
  | .service s => s < σ.services.length
  | .characteristic c => c < σ.characteristics.length
  | .descriptor k => k < σ.descriptors.length
  | .advertisement _ => False

/-- An object that is still there can be finalised. -/
theorem finiObject_ok {σ : State} (hpointers : PointersInv σ) {o : Obj} (hcreated : σ.Created o)
    (hfin : o ∉ σ.finalised) : ∃ σ', finiObject o σ = .ok σ' := by
  cases o with
  | device d =>
    have hget : σ.devices[d]? = some _ := List.getElem?_eq_getElem hcreated
    have hx : σ.device d = .ok _ := State.device_eq_ok.mpr ⟨hfin, hget⟩
    rw [finiObject, deviceFini_eq hx, (hpointers.devices d _ hget).origin]
    exact ⟨_, rfl⟩
  | service s =>
    have hget : σ.services[s]? = some _ := List.getElem?_eq_getElem hcreated
    have hx : σ.service s = .ok _ := State.service_eq_ok.mpr ⟨hfin, hget⟩
    have hn := List.mem_map_of_mem (f := Service.node) (List.mem_of_getElem? hget)
    rw [finiObject, serviceFini_eq hx, (hpointers.nodes .service _ hn).origin]
    exact ⟨_, rfl⟩
  | characteristic c =>
    have hget : σ.characteristics[c]? = some _ := List.getElem?_eq_getElem hcreated
    have hx : σ.characteristic c = .ok _ := State.characteristic_eq_ok.mpr ⟨hfin, hget⟩
    have hn := List.mem_map_of_mem (f := Characteristic.node) (List.mem_of_getElem? hget)
    rw [finiObject, characteristicFini_eq hx, (hpointers.nodes .characteristic _ hn).origin]
    exact ⟨_, rfl⟩
  | descriptor k =>
    have hx : σ.descriptor k = .ok _ :=
      State.descriptor_eq_ok.mpr ⟨hfin, List.getElem?_eq_getElem hcreated⟩
    rw [finiObject, descriptorFini_eq hx]
    exact ⟨_, rfl⟩
  | advertisement d => cases hcreated

/-- Finalising some objects one after the other frees the fields of all of them. -/
theorem exists_shutdown {objs : List Obj} : ∀ {σ : State}, PointersInv σ → objs.Nodup →
    (∀ o ∈ objs, σ.Created o ∧ o ∉ σ.finalised) →
    ∃ replies σ', execAll (objs.map Op.fini) σ = .ok (replies, σ') ∧
      σ'.strings = σ.strings.freeAll σ.slot (objs.flatMap Obj.slots) ∧
      σ'.buffers = σ.buffers.freeAll σ.valueSlot objs := by
  induction objs with
  | nil => exact fun _ _ _ => ⟨[], _, rfl, rfl, rfl⟩
  | cons o objs ih =>
    intro σ hpointers hnodup hobjs
    obtain ⟨hnotMem, hnodup⟩ := List.nodup_cons.mp hnodup
    obtain ⟨hcreated, hfin⟩ := hobjs o List.mem_cons_self
    obtain ⟨σ₁, hfini⟩ := finiObject_ok hpointers hcreated hfin
    have hpointers₁ := hpointers.finalised hfini
    have hslot := hpointers.finiObject_slot hfini
    have hvalueSlot : σ₁.valueSlot = σ.valueSlot := by
      obtain ⟨-, -, oc, rfl⟩ := hpointers.finiObject_spec hfini
      exact ValuesInv.valueSlot_congr rfl rfl
    obtain ⟨-, -, oc, rfl⟩ := hpointers.finiObject_spec hfini
    obtain ⟨replies, σ', hrun, hstrings, hbuffers⟩ := ih hpointers₁ hnodup fun o' ho' => by
      obtain ⟨hcreated', hfin'⟩ := hobjs o' (List.mem_cons_of_mem o ho')
      refine ⟨by cases o' <;> exact hcreated', fun hmem => ?_⟩
      rcases List.mem_cons.mp hmem with rfl | hmem
      · exact hnotMem ho'
      · exact hfin' hmem
    refine ⟨.none :: replies, σ', ?_, ?_, ?_⟩
    · exact runAll_cons_eq_ok.mpr ⟨.none, _, replies, bind_eq_ok.mpr ⟨_, hfini, rfl⟩, hrun, rfl⟩
    · rw [hstrings, hslot, List.flatMap_cons, Heap.freeAll, Heap.freeAll, Heap.freeAll,
        List.foldl_append]
    · rw [hbuffers, hvalueSlot]
      rfl

/-- Different objects have different fields. -/
theorem nodup_flatMap_slots {objs : List Obj} (h : objs.Nodup) :
    (objs.flatMap Obj.slots).Nodup := by
  refine List.nodup_flatMap.mpr ⟨fun o _ => Obj.nodup_slots o, h.imp ?_⟩
  intro o o' hne s hs hs'
  exact hne ((Obj.owner_of_mem_slots hs).symm.trans (Obj.owner_of_mem_slots hs'))

/-! ### Which blocks the fields hold -/

section Slots

variable {σ : State} {objs : List Obj} (hobjs : ∀ o, o ∈ objs ↔ σ.Created o)
include hobjs

theorem device_mem_slots {d : ℕ} (hd : d < σ.devices.length) (f : DeviceField) :
    .device d f ∈ objs.flatMap Obj.slots := by
  refine List.mem_flatMap.mpr ⟨.device d, (hobjs _).mpr hd, ?_⟩
  cases f <;> simp [Obj.slots]

theorem node_mem_slots {kind : Kind} {c : ℕ} (hc : c < (σ.nodes kind).length) (f : NodeField) :
    .node kind c f ∈ objs.flatMap Obj.slots := by
  refine List.mem_flatMap.mpr ⟨kind.object c, (hobjs _).mpr ?_, ?_⟩
  · cases kind <;> simpa [State.nodes, State.Created, Kind.object] using hc
  · cases kind <;> cases f <;> simp [Obj.slots, Kind.object]

/-- If all fields can be freed, the advertisements have been set up. -/
theorem advertisement_of_freeable
    (hfreeable : ∀ s ∈ objs.flatMap Obj.slots, σ.strings.Freeable (σ.slot s)) {x : Device}
    (hx : x ∈ σ.devices) : x.advertisement.objectPath ≠ .indeterminate := by
  intro hunset
  obtain ⟨d, hd⟩ := List.mem_iff_getElem?.mp hx
  have hlt := (List.getElem?_eq_some_iff.mp hd).1
  have hslot := hfreeable _ (device_mem_slots hobjs hlt .advertPath)
  rw [State.slot_device hd, show x.field .advertPath = _ from hunset] at hslot
  simp [Heap.Freeable, Heap.PointsTo] at hslot

/-- If all fields can be freed, the path of a refused child has not been freed before. -/
theorem objectPath_of_freeable (hpointers : PointersInv σ) (hfree : FreeInv σ)
    (hfreeable : ∀ s ∈ objs.flatMap Obj.slots, σ.strings.Freeable (σ.slot s)) {kind : Kind}
    {n : Node} (hn : n ∈ σ.nodes kind) (hnull : n.parentPath = .null) : n.objectPath = .null := by
  by_contra hpath
  obtain ⟨id, path, hblock⟩ := (hpointers.nodes kind n hn).objectPath hpath
  obtain ⟨c, hc⟩ := List.mem_iff_getElem?.mp hn
  have hlt := (List.getElem?_eq_some_iff.mp hc).1
  have hslot := hfreeable _ (node_mem_slots hobjs hlt .objectPath)
  rw [State.slot_node hc, show n.field .objectPath = _ from hblock] at hslot
  rcases hslot with hnull' | ⟨a, i, hlive, heq⟩
  · cases hnull'
  · cases heq
    exact hfree.dead kind c n id path hc hnull hblock hlive

end Slots

/-- Where nothing is finalised and no child has been refused, every field that holds a block owns
it. -/
theorem owns_of_unpublished {σ : State} (hpointers : PointersInv σ)
    (halive : ∀ o : Obj, o ∉ σ.finalised)
    (hunpublished : ∀ kind, ∀ n ∈ σ.nodes kind, n.parentPath = .null → n.objectPath = .null) :
    Owns σ.strings σ.slot fun _ => False := by
  refine ⟨hpointers.owns.bounded, hpointers.owns.distinct, fun s id a _ hs => ?_⟩
  refine hpointers.owns.live s id a (fun hfreed => ?_) hs
  rcases hfreed with hfin | ⟨kind, c, rfl, hnull⟩
  · exact halive _ hfin
  · cases hn : (σ.nodes kind)[c]? with
    | none => simp [State.slot, hn] at hs
    | some n =>
      rw [State.slot_node hn] at hs hnull
      have hpath := hunpublished kind n (List.mem_of_getElem? hn) hnull
      rw [show n.field .objectPath = _ from hpath] at hs
      cases hs

/-- Closing the Lua state after a run without finalisations, which finalises every created object
once, in any order, frees only live blocks exactly when the advertisement of every device has been
set up and every child without a parent has no path. -/
theorem shutdown_frees_iff {σ : State} (hreach : ReachableBy Op.NoFini σ) {objs : List Obj}
    (hnodup : objs.Nodup) (hobjs : ∀ o, o ∈ objs ↔ σ.Created o) :
    (∃ replies σ', execAll (objs.map Op.fini) σ = .ok (replies, σ') ∧
      σ'.strings.invalidFrees = [] ∧ σ'.buffers.invalidFrees = []) ↔
    (∀ x ∈ σ.devices, x.advertisement.objectPath ≠ .indeterminate) ∧
      ∀ kind, ∀ n ∈ σ.nodes kind, n.parentPath = .null → n.objectPath = .null := by
  have hpointers := PointersInv.of_reachable hreach.reachable
  have hvalues := ValuesInv.of_reachable hreach.reachable
  have hfree := FreeInv.of_reachableBy hreach
  have halive := notMem_finalised hreach
  obtain ⟨replies, σ', hrun, hstrings, hbuffers⟩ := exists_shutdown hpointers hnodup
    fun o ho => ⟨(hobjs o).mp ho, halive o⟩
  -- the values are owned, whatever the strings are
  have hbuffersValid : σ'.buffers.invalidFrees = [] := by
    rw [hbuffers, hvalues.owns.invalidFrees_freeAll hnodup (fun o _ => halive o)
      (fun o _ => hvalues.assigned o), hvalues.frees]
  constructor
  · intro ⟨replies', σ'', hrun', hvalid, _⟩
    obtain rfl : σ' = σ'' := by
      have hsame := hrun.symm.trans hrun'
      simp only [Except.ok.injEq, Prod.mk.injEq] at hsame
      exact hsame.2
    rw [hstrings, ← hfree.frees] at hvalid
    -- every slot that is released holds null or a live block
    have hfreeable := Heap.freeable_of_invalidFrees_freeAll hvalid
    constructor
    · intro x hx
      exact advertisement_of_freeable hobjs hfreeable hx
    · intro kind n hn hnull
      exact objectPath_of_freeable hobjs hpointers hfree hfreeable hn hnull
  · intro ⟨hset, hunpublished⟩
    refine ⟨replies, σ', hrun, ?_, hbuffersValid⟩
    have howns := owns_of_unpublished hpointers halive hunpublished
    rw [hstrings, howns.invalidFrees_freeAll (nodup_flatMap_slots hnodup) (fun _ _ => id)
      (fun s _ hs => ?_), hfree.frees]
    obtain ⟨d, f, x, -, -, hx, hunset⟩ := hpointers.assigned hs
    exact hset x (List.mem_of_getElem? hx) hunset.objectPath

/-- A device that gets through every step of its registration, with a service, a characteristic and
a descriptor. -/
def registeredTree : List Op :=
  [.createDevice "lamp".toList, .createService "180F".toList, .createCharacteristic "2A19".toList,
    .createDescriptor "2901".toList,
    .registerDevice ⟨fun _ _ => true, some 1, ⟨true, true, true⟩⟩ 0,
    .add .service (fun _ _ => true) 0 0, .add .characteristic (fun _ _ => true) 0 0,
    .add .descriptor (fun _ _ => true) 0 0]

/-- The theorem where the tree is finalised from its leaf to its root. -/
theorem shutdown_frees_iff_registered : ∃ replies σ',
    execAll [.fini (.descriptor 0), .fini (.characteristic 0), .fini (.service 0),
        .fini (.device 0)] (State.after registeredTree) = .ok (replies, σ') ∧
    σ'.strings.invalidFrees = [] ∧ σ'.buffers.invalidFrees = [] := by
  have hreach : ReachableBy Op.NoFini (State.after registeredTree) :=
    State.reachable_after (by decide +kernel) (by simp [registeredTree, Op.NoFini])
  have hnodup : [Obj.descriptor 0, .characteristic 0, .service 0, .device 0].Nodup := by decide
  refine (shutdown_frees_iff hreach hnodup fun o => ?_).mpr
    ⟨by decide +kernel, fun kind => by cases kind <;> decide +kernel⟩
  have hdevices : (State.after registeredTree).devices.length = 1 := by decide +kernel
  have hservices : (State.after registeredTree).services.length = 1 := by decide +kernel
  have hcharacteristics : (State.after registeredTree).characteristics.length = 1 := by
    decide +kernel
  have hdescriptors : (State.after registeredTree).descriptors.length = 1 := by decide +kernel
  cases o <;> simp [State.Created, hdevices, hservices, hcharacteristics, hdescriptors]

/-- A device that was never registered passes an advertisement path that was never assigned to
`free`. -/
theorem not_shutdown_frees_unregistered : ¬ ∀ (σ : State) (objs : List Obj),
    ReachableBy Op.NoFini σ → objs.Nodup → (∀ o, o ∈ objs ↔ σ.Created o) →
      ∃ replies σ', execAll (objs.map Op.fini) σ = .ok (replies, σ') ∧
        σ'.strings.invalidFrees = [] ∧ σ'.buffers.invalidFrees = [] := by
  intro h
  obtain ⟨replies, σ', hrun, hvalid, -⟩ := h (State.after [.createDevice "lamp".toList])
    [.device 0] (State.reachable_after (by decide) fun op hop => by
      rw [List.mem_singleton.mp hop]
      trivial) (by decide) fun o => by
        cases o <;> simp [State.Created, State.after, execAll, runAll, exec, luaiCreateDevice,
          State.empty, State.initial]
  have hlength : (execAll [.fini (.device 0)] (State.after [.createDevice "lamp".toList])).map
      (fun result => result.2.strings.invalidFrees.isEmpty) = .ok false := by
    decide
  rw [show [Obj.device 0].map Op.fini = [.fini (.device 0)] from rfl] at hrun
  rw [hrun] at hlength
  simp [Except.map, hvalid] at hlength

end BleSim
