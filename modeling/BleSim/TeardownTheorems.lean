import BleSim.EntryTheorems
import BleSim.FreeTheorems
import Mathlib.Data.List.Flatten

/-!
# Freeing a tree made in C

`device_free` walks the lists of a device made in C and frees what hangs in them. Whether the
children of an object are freed depends on the origin of the object, not on theirs, so a child
that belongs to Lua is freed with the tree.
-/

namespace BleSim

open Outcomes WriteOnce Intrusive

/-! ## How far the teardown has got -/

/-- The entry of an object is the same in both states. -/
def SameEntry (σ σ' : State) : Obj → Prop
  | .device d => σ'.devices[d]? = σ.devices[d]?
  | .service s => σ'.services[s]? = σ.services[s]?
  | .characteristic c => σ'.characteristics[c]? = σ.characteristics[c]?
  | .descriptor k => σ'.descriptors[k]? = σ.descriptors[k]?
  | .advertisement _ => True

namespace SameEntry

variable {σ σ' σ'' : State} {o : Obj}

theorem trans (h₁ : SameEntry σ σ' o) (h₂ : SameEntry σ' σ'' o) : SameEntry σ σ'' o := by
  cases o with
  | advertisement d => trivial
  | device d => exact Eq.trans h₂ h₁
  | service s => exact Eq.trans h₂ h₁
  | characteristic c => exact Eq.trans h₂ h₁
  | descriptor k => exact Eq.trans h₂ h₁

theorem node {kind : Kind} {c : ℕ} (h : SameEntry σ σ' (kind.object c)) :
    (σ'.nodes kind)[c]? = (σ.nodes kind)[c]? := by
  cases kind <;> simp only [State.nodes, List.getElem?_map] <;> exact congrArg (Option.map _) h

theorem slot (h : SameEntry σ σ' o) : ∀ s ∈ o.slots, σ'.slot s = σ.slot s := by
  intro s hs
  have howner := Obj.owner_of_mem_slots hs
  cases s with
  | device d f =>
    obtain rfl : o = .device d := howner.symm
    exact congrArg (fun x => Option.elim x Ptr.null fun x : Device => x.field f) h
  | node kind c f =>
    obtain rfl : o = kind.object c := howner.symm
    rw [State.slot, State.slot, node h]

theorem valueSlot (h : SameEntry σ σ' o) : σ'.valueSlot o = σ.valueSlot o := by
  cases o with
  | characteristic c => exact congrArg (fun x => Option.elim x Ptr.null Characteristic.value) h
  | descriptor k => exact congrArg (fun x => Option.elim x Ptr.null Descriptor.value) h
  | device d => rfl
  | service s => rfl
  | advertisement d => rfl

end SameEntry

/-- Moving the head of a list changes the parent only. -/
theorem State.setHead_sameEntry (σ : State) (kind : Kind) (p : ℕ) (head : Option ℕ) {o : Obj}
    (ho : o ≠ kind.parent p) : SameEntry σ (σ.setHead kind p head) o := by
  cases kind <;> cases o <;> first
    | trivial
    | exact List.getElem?_modify_ne _ _ fun heq => ho (by rw [heq]; rfl)

theorem State.nodes_setHead (σ : State) (kind kind' : Kind) (p : ℕ) (head : Option ℕ) :
    (σ.setHead kind p head).nodes kind' = σ.nodes kind' := by
  cases kind <;> cases kind' <;> first
    | rfl
    | exact State.map_modify_same _ _ _ _ fun _ => rfl

/-- `σ` is what `σ₀` has become when the objects `objs` have been finalised, in this order, and
the structs of `structs` have been freed. -/
structure Torn (σ₀ σ : State) (objs structs : List Obj) : Prop where
  strings : σ.strings = σ₀.strings.freeAll σ₀.slot (objs.flatMap Obj.slots)
  buffers : σ.buffers = σ₀.buffers.freeAll σ₀.valueSlot objs
  finalised : ∀ o, o ∈ σ.finalised ↔ o ∈ objs ∨ o ∈ σ₀.finalised
  structs : σ.freedStructs.Perm (structs ++ σ₀.freedStructs)
  same : ∀ o, o ∉ objs → SameEntry σ₀ σ o
  length : ∀ kind, (σ.nodes kind).length = (σ₀.nodes kind).length

namespace Torn

variable {σ₀ σ σ' : State} {objs structs : List Obj} {o : Obj}

theorem start (σ : State) : Torn σ σ [] [] := by
  refine ⟨rfl, rfl, by simp, .refl _, fun o _ => ?_, fun _ => rfl⟩
  cases o <;> trivial

/-- What has not been finalised yet can be accessed. -/
theorem notMem_finalised (h : Torn σ₀ σ objs structs) (ho : o ∉ objs) (hfin : o ∉ σ₀.finalised) :
    o ∉ σ.finalised := by
  rw [h.finalised o, not_or]
  exact ⟨ho, hfin⟩

/-- A change of entries that have been passed. -/
theorem entries (h : Torn σ₀ σ objs structs) (hstrings : σ'.strings = σ.strings)
    (hbuffers : σ'.buffers = σ.buffers) (hfin : σ'.finalised = σ.finalised)
    (hstructs : σ'.freedStructs = σ.freedStructs) (hsame : ∀ o, o ∉ objs → SameEntry σ σ' o)
    (hlength : ∀ kind, (σ'.nodes kind).length = (σ.nodes kind).length) :
    Torn σ₀ σ' objs structs where
  strings := hstrings.trans h.strings
  buffers := hbuffers.trans h.buffers
  finalised o := by rw [hfin]; exact h.finalised o
  structs := by rw [hstructs]; exact h.structs
  same o ho := (h.same o ho).trans (hsame o ho)
  length kind := (hlength kind).trans (h.length kind)

/-- One more object is finalised. -/
theorem release (h : Torn σ₀ σ objs structs) (ho : o ∉ objs) :
    Torn σ₀ (σ.release o) (objs ++ [o]) structs where
  strings := by
    have hslots := Heap.freeAll_congr σ.strings (h.same o ho).slot
    rw [List.flatMap_append, Heap.freeAll_append, ← h.strings, List.flatMap_singleton]
    exact hslots
  buffers := by
    rw [Heap.freeAll_append, ← h.buffers]
    exact congrArg σ.buffers.free (h.same o ho).valueSlot
  finalised o' := by
    show o' ∈ o :: σ.finalised ↔ _
    rw [List.mem_cons, h.finalised o', List.mem_append, List.mem_singleton]
    tauto
  structs := h.structs
  same o' ho' := by
    have hold := h.same o' fun hmem => ho' (List.mem_append_left _ hmem)
    cases o' <;> exact hold
  length kind := by
    have hold := h.length kind
    cases kind <;> exact hold

/-- The struct of an object is freed after those of the objects below it. -/
theorem freeStruct {below : List Obj} (h : Torn σ₀ σ objs (structs ++ below)) (o : Obj) :
    Torn σ₀ { σ with freedStructs := o :: σ.freedStructs } objs (structs ++ o :: below) where
  strings := h.strings
  buffers := h.buffers
  finalised := h.finalised
  structs := by
    refine (h.structs.cons o).trans ?_
    rw [List.append_assoc, List.append_assoc]
    exact List.perm_middle.symm
  same o' ho' := by
    have hold := h.same o' ho'
    cases o' <;> exact hold
  length kind := by
    have hold := h.length kind
    cases kind <;> exact hold

/-- Moving the head of a list that has been passed. -/
theorem setHead (h : Torn σ₀ σ objs structs) {kind : Kind} {p : ℕ} (hp : kind.parent p ∈ objs)
    (head : Option ℕ) : Torn σ₀ (σ.setHead kind p head) objs structs := by
  refine h.entries ?_ ?_ ?_ ?_ (fun o ho => ?_) fun kind' => ?_
  · cases kind <;> rfl
  · cases kind <;> rfl
  · cases kind <;> rfl
  · cases kind <;> rfl
  · exact σ.setHead_sameEntry kind p head fun heq => ho (heq ▸ hp)
  · rw [State.nodes_setHead]

/-! ### The loop over the children -/

/-- What freeing one child comes to, `below` being the child and what is freed with it. -/
def Frees (σ₀ : State) (free : State → Outcome State) (below : List Obj) : Prop :=
  ∀ σ objs structs, Torn σ₀ σ objs structs → (objs ++ below).Nodup →
    ∃ σ', free σ = .ok σ' ∧ Torn σ₀ σ' (objs ++ below) (structs ++ below)

/-- If freeing a child does what it should, the loop frees all children. -/
theorem freeChildren (h : Torn σ₀ σ objs structs) {kind : Kind} {p : ℕ} {children : ℕ → List ℕ}
    (hforest : ForestInv σ₀ kind children) (hp : kind.parent p ∈ objs)
    (halive : ∀ c ∈ children p, kind.object c ∉ σ₀.finalised)
    {free : ℕ → State → Outcome State} {below : ℕ → List Obj}
    (hmem : ∀ c ∈ children p, kind.object c ∈ below c)
    (hnodup : (objs ++ (children p).flatMap below).Nodup)
    (hfrees : ∀ c ∈ children p, Frees σ₀ (free c) (below c)) :
    ∃ σ', BleSim.freeChildren kind p free ((σ₀.forest kind).first p) σ = .ok σ' ∧
      Torn σ₀ σ' (objs ++ (children p).flatMap below)
        (structs ++ (children p).flatMap below) := by
  have hfuel : (children p).length ≤ (σ.nodes kind).length := by
    rw [h.length kind]
    exact hforest.length_le p
  refine loop_invariant (P := fun passed σ =>
    Torn σ₀ σ (objs ++ passed.flatMap below) (structs ++ passed.flatMap below))
    (hforest.wellFormed.chain p) (fun before c after σ hsplit hT => ?_) hfuel (by simpa using h)
  have hc : c ∈ children p := by rw [hsplit]; simp
  have hprefix : (objs ++ before.flatMap below ++ below c).Nodup := by
    rw [hsplit, List.flatMap_append, List.flatMap_cons, ← List.append_assoc,
      ← List.append_assoc] at hnodup
    exact hnodup.of_append_left
  -- the link is read while the child is still there
  obtain ⟨n, hn, -⟩ := hforest.mem_nodes hc
  have hnew : kind.object c ∉ objs ++ before.flatMap below := fun hold =>
    List.disjoint_of_nodup_append hprefix hold (hmem c hc)
  have hnode : σ.node kind c = .ok n := by
    rw [State.node_eq_ok, (hT.same _ hnew).node]
    exact ⟨hT.notMem_finalised hnew (halive c hc), hn⟩
  have hnext : (σ₀.forest kind).next c = n.next := by simp [State.forest, State.next, hn]
  obtain ⟨σ', hfree, hT'⟩ := hfrees c hc σ _ _ hT hprefix
  have hpassed : kind.parent p ∈ objs ++ before.flatMap below ++ below c :=
    List.mem_append_left _ (List.mem_append_left _ hp)
  refine ⟨σ'.setHead kind p n.next, ?_, ?_⟩
  · simp only [hnode, ok_bind, hfree, hnext]
  · have hmoved := hT'.setHead hpassed n.next
    simpa only [List.flatMap_append, List.flatMap_singleton, List.append_assoc] using hmoved

end Torn

/-! ## Which objects the teardown reaches -/

/-- The `origin` field of an object. -/
def State.origin (σ : State) : Obj → Option Origin
  | .device d => (σ.devices[d]?).map Device.origin
  | .service s => (σ.services[s]?).map fun x => x.node.origin
  | .characteristic c => (σ.characteristics[c]?).map fun x => x.node.origin
  | .descriptor k => (σ.descriptors[k]?).map fun x => x.node.origin
  | .advertisement _ => none

/-- The children the `fini` function of a parent frees: those of an object made in C. -/
def State.ownChildren (σ : State) (children : Kind → ℕ → List ℕ) (kind : Kind) (p : ℕ) : List ℕ :=
  if σ.origin (kind.parent p) = some .c then children kind p else []

theorem State.ownChildren_sublist (σ : State) (children : Kind → ℕ → List ℕ) (kind : Kind)
    (p : ℕ) : (σ.ownChildren children kind p).Sublist (children kind p) := by
  unfold State.ownChildren
  split
  · exact .refl _
  · exact List.nil_sublist _

section Sublist

variable {children children' : Kind → ℕ → List ℕ}
  (h : ∀ kind p, (children' kind p).Sublist (children kind p))
include h

theorem descriptorObjects_sublist (c : ℕ) :
    (descriptorObjects children' c).Sublist (descriptorObjects children c) :=
  (h .descriptor c).map _

theorem characteristicObjects_sublist (s : ℕ) :
    (characteristicObjects children' s).Sublist (characteristicObjects children s) := by
  refine ((h .characteristic s).flatMap _).trans (List.Sublist.flatMap_right _ fun c _ => ?_)
  exact (descriptorObjects_sublist h c).cons_cons _

theorem managedObjects_sublist (d : ℕ) :
    (managedObjects children' d).Sublist (managedObjects children d) := by
  refine ((h .service d).flatMap _).trans (List.Sublist.flatMap_right _ fun s _ => ?_)
  exact (characteristicObjects_sublist h s).cons_cons _

end Sublist

theorem State.ownChildren_of_c {σ : State} {children : Kind → ℕ → List ℕ} {kind : Kind} {p : ℕ}
    (h : σ.origin (kind.parent p) = some .c) :
    σ.ownChildren children kind p = children kind p := if_pos h

theorem State.ownChildren_of_ne {σ : State} {children : Kind → ℕ → List ℕ} {kind : Kind} {p : ℕ}
    (h : σ.origin (kind.parent p) ≠ some .c) : σ.ownChildren children kind p = [] := if_neg h

theorem descriptorObjects_eq_flatMap (children : Kind → ℕ → List ℕ) (c : ℕ) :
    descriptorObjects children c = (children .descriptor c).flatMap fun k => [.descriptor k] := by
  rw [descriptorObjects, List.map_eq_flatMap]

section Levels

variable {σ₀ : State} {children : Kind → ℕ → List ℕ} (hforests : Forests σ₀ children)

/-- `descriptor_free`. -/
theorem descriptorFree_frees {k : ℕ} {x : Descriptor} (hx : σ₀.descriptors[k]? = some x)
    (halive : Obj.descriptor k ∉ σ₀.finalised) :
    Torn.Frees σ₀ (descriptorFree k) [.descriptor k] := by
  intro σ objs structs h hnodup
  have hnew : Obj.descriptor k ∉ objs := fun hold =>
    List.disjoint_of_nodup_append hnodup hold (List.mem_singleton_self _)
  have hget : σ.descriptor k = .ok x :=
    State.descriptor_eq_ok.mpr ⟨h.notMem_finalised hnew halive, Eq.trans (h.same _ hnew) hx⟩
  refine ⟨_, by rw [descriptorFree, descriptorFini_eq hget, ok_bind], ?_⟩
  have hreleased := h.release hnew
  rw [← List.append_nil structs] at hreleased
  exact hreleased.freeStruct (.descriptor k)

include hforests

/-- `characteristic_free`, by the origin of the characteristic. -/
theorem characteristicFree_frees {c : ℕ} {x : Characteristic}
    (hx : σ₀.characteristics[c]? = some x)
    (halive : ∀ o ∈ Obj.characteristic c :: descriptorObjects children c, o ∉ σ₀.finalised) :
    Torn.Frees σ₀ (characteristicFree c)
      (.characteristic c :: descriptorObjects (σ₀.ownChildren children) c) := by
  intro σ objs structs h hnodup
  have hnew : Obj.characteristic c ∉ objs := fun hold =>
    List.disjoint_of_nodup_append hnodup hold List.mem_cons_self
  have hget : σ.characteristic c = .ok x := State.characteristic_eq_ok.mpr
    ⟨h.notMem_finalised hnew (halive _ List.mem_cons_self), Eq.trans (h.same _ hnew) hx⟩
  have hreleased := h.release hnew
  rw [List.append_cons] at hnodup ⊢
  -- the descriptors come next, if the characteristic was made in C
  obtain ⟨σ₁, hfini, h₁⟩ : ∃ σ₁, characteristicFini c σ = .ok σ₁ ∧
      Torn σ₀ σ₁ (objs ++ [.characteristic c] ++ descriptorObjects (σ₀.ownChildren children) c)
        (structs ++ descriptorObjects (σ₀.ownChildren children) c) := by
    rw [characteristicFini_eq hget]
    rw [descriptorObjects_eq_flatMap] at hnodup ⊢
    by_cases horigin : x.node.origin = .c
    · have hown : σ₀.origin (Kind.descriptor.parent c) = some .c := by
        simp [State.origin, Kind.parent, hx, horigin]
      have hfirst : x.descriptors.head = (σ₀.forest .descriptor).first c := by
        simp [State.forest, State.lists, hx]
      rw [State.ownChildren_of_c hown] at hnodup ⊢
      rw [if_pos horigin, hfirst]
      refine hreleased.freeChildren (hforests .descriptor) (by simp [Kind.parent])
        (fun k hk => halive _ ?_) (fun k _ => List.mem_singleton_self _) hnodup fun k hk => ?_
      · exact List.mem_cons_of_mem _ (List.mem_map_of_mem hk)
      · obtain ⟨n, hn, -⟩ := (hforests .descriptor).mem_nodes hk
        obtain ⟨y, hy, -⟩ : ∃ y, σ₀.descriptors[k]? = some y ∧ y.node = n := by
          simpa [State.nodes] using hn
        exact descriptorFree_frees hy
          (halive _ (List.mem_cons_of_mem _ (List.mem_map_of_mem hk)))
    · have hown : σ₀.origin (Kind.descriptor.parent c) ≠ some .c := by
        simpa [State.origin, Kind.parent, hx] using horigin
      rw [State.ownChildren_of_ne hown, if_neg horigin]
      exact ⟨_, rfl, by simpa using hreleased⟩
  refine ⟨_, by rw [characteristicFree, hfini, ok_bind], h₁.freeStruct (.characteristic c)⟩

/-- `service_free`, by the origins of the service and its characteristics. -/
theorem serviceFree_frees {s : ℕ} {x : Service} (hx : σ₀.services[s]? = some x)
    (halive : ∀ o ∈ Obj.service s :: characteristicObjects children s, o ∉ σ₀.finalised) :
    Torn.Frees σ₀ (serviceFree s)
      (.service s :: characteristicObjects (σ₀.ownChildren children) s) := by
  intro σ objs structs h hnodup
  have hnew : Obj.service s ∉ objs := fun hold =>
    List.disjoint_of_nodup_append hnodup hold List.mem_cons_self
  have hget : σ.service s = .ok x := State.service_eq_ok.mpr
    ⟨h.notMem_finalised hnew (halive _ List.mem_cons_self), Eq.trans (h.same _ hnew) hx⟩
  have hreleased := h.release hnew
  rw [List.append_cons] at hnodup ⊢
  obtain ⟨σ₁, hfini, h₁⟩ : ∃ σ₁, serviceFini s σ = .ok σ₁ ∧
      Torn σ₀ σ₁ (objs ++ [.service s] ++ characteristicObjects (σ₀.ownChildren children) s)
        (structs ++ characteristicObjects (σ₀.ownChildren children) s) := by
    rw [serviceFini_eq hget]
    rw [characteristicObjects] at hnodup ⊢
    by_cases horigin : x.node.origin = .c
    · have hown : σ₀.origin (Kind.characteristic.parent s) = some .c := by
        simp [State.origin, Kind.parent, hx, horigin]
      have hfirst : x.characteristics.head = (σ₀.forest .characteristic).first s := by
        simp [State.forest, State.lists, hx]
      rw [State.ownChildren_of_c hown] at hnodup ⊢
      rw [if_pos horigin, hfirst]
      have hbelow : ∀ c ∈ children .characteristic s,
          ∀ o ∈ Obj.characteristic c :: descriptorObjects children c, o ∉ σ₀.finalised :=
        fun c hc o ho => halive o
          (List.mem_cons_of_mem _ (List.mem_flatMap.mpr ⟨c, hc, ho⟩))
      obtain ⟨σ₂, hloop, h₂⟩ := hreleased.freeChildren (hforests .characteristic)
        (by simp [Kind.parent]) (fun c hc => hbelow c hc _ List.mem_cons_self)
        (fun c _ => List.mem_cons_self) hnodup fun c hc => (by
          obtain ⟨n, hn, -⟩ := (hforests .characteristic).mem_nodes hc
          obtain ⟨y, hy, -⟩ : ∃ y, σ₀.characteristics[c]? = some y ∧ y.node = n := by
            simpa [State.nodes] using hn
          exact characteristicFree_frees hforests hy (hbelow c hc))
      rw [hloop, ok_bind]
      -- the service's own link is cleared at the end
      refine ⟨_, rfl, h₂.entries rfl rfl rfl rfl (fun o ho => ?_) fun kind => ?_⟩
      · cases o with
        | service t =>
          refine List.getElem?_modify_ne _ _ fun heq => ho ?_
          rw [heq]
          simp
        | device d => rfl
        | characteristic c => rfl
        | descriptor k => rfl
        | advertisement d => trivial
      · cases kind <;> simp [State.nodes]
    · have hown : σ₀.origin (Kind.characteristic.parent s) ≠ some .c := by
        simpa [State.origin, Kind.parent, hx] using horigin
      rw [State.ownChildren_of_ne hown, if_neg horigin]
      exact ⟨_, rfl, by simpa using hreleased⟩
  refine ⟨_, by rw [serviceFree, hfini, ok_bind], h₁.freeStruct (.service s)⟩

/-- `device_free` on a device made in C, by the origins of everything below. -/
theorem deviceFree_torn {d : ℕ} {x : Device} (hx : σ₀.device d = .ok x) (horigin : x.origin = .c)
    (halive : ∀ o ∈ managedObjects children d, o ∉ σ₀.finalised) :
    ∃ σ, deviceFree d σ₀ = .ok σ ∧
      Torn σ₀ σ (.device d :: managedObjects (σ₀.ownChildren children) d)
        (.device d :: managedObjects (σ₀.ownChildren children) d) := by
  obtain ⟨hfin, hget⟩ := State.device_eq_ok.mp hx
  have hreleased : Torn σ₀ { σ₀.release (.device d) with
      openControllers := vhciClose σ₀.openControllers x.virtualController } [.device d] [] := by
    refine ((Torn.start σ₀).release (o := .device d) (by simp)).entries rfl rfl rfl rfl
      (fun o _ => ?_) fun kind => ?_
    · cases o <;> trivial
    · cases kind <;> rfl
  have hown : σ₀.origin (Kind.service.parent d) = some .c := by
    simp [State.origin, Kind.parent, hget, horigin]
  have hfirst : x.services.head = (σ₀.forest .service).first d := by
    simp [State.forest, State.lists, hget]
  have hbelow : ∀ s ∈ children .service d,
      ∀ o ∈ Obj.service s :: characteristicObjects children s, o ∉ σ₀.finalised :=
    fun s hs o ho => halive o (List.mem_flatMap.mpr ⟨s, hs, ho⟩)
  have hnodup : ([Obj.device d] ++ managedObjects (σ₀.ownChildren children) d).Nodup := by
    have hsublist := managedObjects_sublist (σ₀.ownChildren_sublist children) d
    refine List.nodup_cons.mpr ⟨?_, (hforests.nodup_managedObjects d).sublist hsublist⟩
    simp [managedObjects, characteristicObjects, descriptorObjects]
  rw [managedObjects, State.ownChildren_of_c hown] at hnodup ⊢
  obtain ⟨σ₁, hloop, h₁⟩ := hreleased.freeChildren (hforests .service) (by simp [Kind.parent])
    (fun s hs => hbelow s hs _ List.mem_cons_self) (fun s _ => List.mem_cons_self) hnodup
    fun s hs => (by
      obtain ⟨n, hn, -⟩ := (hforests .service).mem_nodes hs
      obtain ⟨y, hy, -⟩ : ∃ y, σ₀.services[s]? = some y ∧ y.node = n := by
        simpa [State.nodes] using hn
      exact serviceFree_frees hforests hy (hbelow s hs))
  refine ⟨_, ?_, h₁.freeStruct (.device d)⟩
  simp only [deviceFree, deviceFini_eq hx, if_pos horigin, hfirst, hloop, ok_bind]

end Levels

/-! ## The tree of a device -/

/-- A device and the objects below it. -/
abbrev treeObjects (children : Kind → ℕ → List ℕ) (d : ℕ) : List Obj :=
  .device d :: managedObjects children d

/-- A device made in C with its tree: the device and everything in its lists are still there, and
their fields own what they hold. Only a device can have fields that were never assigned. -/
structure RootedInC (σ : State) (d : ℕ) (x : Device) (children : Kind → ℕ → List ℕ) : Prop where
  device : σ.device d = .ok x
  origin : x.origin = .c
  forests : Forests σ children
  alive : ∀ o ∈ managedObjects children d, o ∉ σ.finalised
  strings : Owns σ.strings σ.slot fun s => s.owner ∉ treeObjects children d
  buffers : Owns σ.buffers σ.valueSlot (· ∉ treeObjects children d)
  assigned : ∀ kind c f, kind.object c ∈ managedObjects children d →
    σ.slot (.node kind c f) ≠ .indeterminate
  valueAssigned : ∀ o ∈ managedObjects children d, σ.valueSlot o ≠ .indeterminate

/-- The structs, the strings and the values of the given objects have been freed, each once, and
nothing else. -/
structure ReleasesObjects (σ σ' : State) (objs : List Obj) : Prop where
  structs : ∀ o, σ'.freedStructs.count o = σ.freedStructs.count o + if o ∈ objs then 1 else 0
  strings : σ.strings.Releases σ'.strings ((objs.flatMap Obj.slots).map σ.slot)
  buffers : σ.buffers.Releases σ'.buffers (objs.map σ.valueSlot)

/-- What `device_free` should do to the tree of a device. If everything in it was made in C, the
call returns, without a look at an object that is gone, and frees what there is in the tree once
and nothing else; and it never frees the struct of an object that belongs to Lua. -/
def TearsDown (σ : State) (d : ℕ) (children : Kind → ℕ → List ℕ) : Prop :=
  ((∀ o ∈ managedObjects children d, σ.origin o = some .c) →
    ∃ σ', deviceFree d σ = .ok σ' ∧ ReleasesObjects σ σ' (treeObjects children d)) ∧
  ∀ σ', deviceFree d σ = .ok σ' → ∀ o ∈ managedObjects children d, σ.origin o = some .lua →
    σ'.freedStructs.count o = σ.freedStructs.count o

/-- An object below a device is in the list of a parent. -/
theorem exists_parent_of_mem {children : Kind → ℕ → List ℕ} {d : ℕ} {o : Obj}
    (ho : o ∈ managedObjects children d) :
    ∃ kind p c, o = kind.object c ∧ c ∈ children kind p := by
  simp only [managedObjects, characteristicObjects, descriptorObjects, List.mem_flatMap,
    List.mem_cons, List.mem_map] at ho
  obtain ⟨s, hs, rfl | ⟨c, hc, rfl | ⟨k, hk, rfl⟩⟩⟩ := ho
  · exact ⟨.service, d, s, rfl, hs⟩
  · exact ⟨.characteristic, s, c, rfl, hc⟩
  · exact ⟨.descriptor, c, k, rfl, hk⟩

theorem device_notMem_managedObjects (children : Kind → ℕ → List ℕ) (d e : ℕ) :
    Obj.device e ∉ managedObjects children d := by
  intro hmem
  obtain ⟨kind, p, c, heq, -⟩ := exists_parent_of_mem hmem
  cases kind <;> cases heq

theorem State.origin_object {σ : State} {kind : Kind} {c : ℕ} {n : Node}
    (hn : (σ.nodes kind)[c]? = some n) : σ.origin (kind.object c) = some n.origin := by
  cases kind <;> simp only [State.nodes, List.getElem?_map, Option.map_eq_some_iff] at hn <;>
    obtain ⟨x, hx, rfl⟩ := hn <;> simp [State.origin, Kind.object, hx]

/-- If everything the teardown reaches was made in C, it reaches everything. -/
theorem managedObjects_ownChildren {σ : State} {children : Kind → ℕ → List ℕ} {d : ℕ}
    (hd : σ.origin (.device d) = some .c)
    (hreached : ∀ o ∈ managedObjects (σ.ownChildren children) d, σ.origin o = some .c) :
    managedObjects (σ.ownChildren children) d = managedObjects children d := by
  have hservice : σ.ownChildren children .service d = children .service d :=
    State.ownChildren_of_c hd
  unfold managedObjects at hreached ⊢
  rw [hservice] at hreached ⊢
  refine List.flatMap_congr fun s hs => ?_
  have hs' : ∀ o ∈ Obj.service s :: characteristicObjects (σ.ownChildren children) s,
      σ.origin o = some .c := fun o ho => hreached o (List.mem_flatMap.mpr ⟨s, hs, ho⟩)
  have hcharacteristic : σ.ownChildren children .characteristic s = children .characteristic s :=
    State.ownChildren_of_c (hs' _ List.mem_cons_self)
  unfold characteristicObjects at hs' ⊢
  rw [hcharacteristic] at hs' ⊢
  congr 1
  refine List.flatMap_congr fun c hc => ?_
  have hdescriptor : σ.ownChildren children .descriptor c = children .descriptor c :=
    State.ownChildren_of_c (hs' _ (List.mem_cons_of_mem _
      (List.mem_flatMap.mpr ⟨c, hc, List.mem_cons_self⟩)))
  rw [descriptorObjects, descriptorObjects, hdescriptor]

namespace RootedInC

variable {σ : State} {d : ℕ} {x : Device} {children : Kind → ℕ → List ℕ}

theorem origin_device (h : RootedInC σ d x children) : σ.origin (.device d) = some .c := by
  simp [State.origin, (State.device_eq_ok.mp h.device).2, h.origin]

theorem nodup (h : RootedInC σ d x children) :
    (treeObjects children d).Nodup :=
  List.nodup_cons.mpr ⟨device_notMem_managedObjects children d d, h.forests.nodup_managedObjects d⟩

/-- What is below the device is Lua's if it was not made in C. -/
theorem origin_eq_lua (h : RootedInC σ d x children) {o : Obj} (ho : o ∈ managedObjects children d)
    (hne : σ.origin o ≠ some .c) : σ.origin o = some .lua := by
  obtain ⟨kind, p, c, rfl, hc⟩ := exists_parent_of_mem ho
  obtain ⟨n, hn, -⟩ := (h.forests kind).mem_nodes hc
  rw [State.origin_object hn] at hne ⊢
  cases horigin : n.origin with
  | c => exact absurd (congrArg some horigin) hne
  | lua => rfl

/-- Freeing the whole tree releases what it holds, if all fields of the device were assigned. -/
theorem releasesObjects (h : RootedInC σ d x children) {σ' : State}
    (htorn : Torn σ σ' (treeObjects children d) (treeObjects children d))
    (hfields : ∀ f, x.field f ≠ .indeterminate) :
    ReleasesObjects σ σ' (treeObjects children d) where
  structs o := by
    rw [htorn.structs.count_eq, List.count_append, h.nodup.count, Nat.add_comm]
  strings := by
    have howner : ∀ s ∈ (treeObjects children d).flatMap Obj.slots,
        s.owner ∈ treeObjects children d := by
      intro s hs
      obtain ⟨o, ho, hs⟩ := List.mem_flatMap.mp hs
      rwa [Obj.owner_of_mem_slots hs]
    rw [htorn.strings]
    refine h.strings.releases_freeAll (nodup_flatMap_slots h.nodup)
      (fun s hs hnot => hnot (howner s hs)) fun s hs => ?_
    have hmem := howner s hs
    cases s with
    | node kind c f =>
      refine h.assigned kind c f ((List.mem_cons.mp hmem).resolve_left fun heq => ?_)
      cases kind <;> cases heq
    | device e f =>
      rcases List.mem_cons.mp hmem with hdevice | hmem
      · cases hdevice
        rw [State.slot_device (State.device_eq_ok.mp h.device).2]
        exact hfields f
      · exact absurd hmem (device_notMem_managedObjects children d e)
  buffers := by
    rw [htorn.buffers]
    refine h.buffers.releases_freeAll h.nodup (fun o ho hnot => hnot ho) fun o ho => ?_
    rcases List.mem_cons.mp ho with rfl | ho
    · exact fun hnone => by cases hnone
    · exact h.valueAssigned o ho

/-- If something in the tree belongs to Lua, a struct of Lua's is freed. -/
theorem exists_freed_lua (h : RootedInC σ d x children)
    (hlua : ∃ o ∈ managedObjects children d, σ.origin o ≠ some .c) :
    ∃ σ', deviceFree d σ = .ok σ' ∧ ∃ o ∈ managedObjects children d, σ.origin o = some .lua ∧
      σ'.freedStructs.count o = σ.freedStructs.count o + 1 := by
  obtain ⟨σ', hfree, htorn⟩ := deviceFree_torn h.forests h.device h.origin h.alive
  refine ⟨σ', hfree, ?_⟩
  have hsublist := managedObjects_sublist (σ.ownChildren_sublist children) d
  by_cases hreached : ∀ o ∈ managedObjects (σ.ownChildren children) d, σ.origin o = some .c
  -- the teardown would reach everything, and so find only objects made in C
  · obtain ⟨o, ho, hne⟩ := hlua
    rw [← managedObjects_ownChildren h.origin_device hreached] at ho
    exact absurd (hreached o ho) hne
  · push Not at hreached
    obtain ⟨o, ho, hne⟩ := hreached
    have hmem : o ∈ Obj.device d :: managedObjects (σ.ownChildren children) d :=
      List.mem_cons_of_mem _ ho
    have hnodup : (Obj.device d :: managedObjects (σ.ownChildren children) d).Nodup :=
      h.nodup.sublist (hsublist.cons_cons _)
    refine ⟨o, hsublist.subset ho, h.origin_eq_lua (hsublist.subset ho) hne, ?_⟩
    rw [htorn.structs.count_eq, List.count_append, hnodup.count, if_pos hmem, Nat.add_comm]

end RootedInC

/-! ## Trees of any shape -/

namespace State

variable (σ : State) (origin : Obj → Origin)

/-- The state in which the `origin` fields say something else. -/
def withOrigins : State :=
  { σ with
    devices := σ.devices.mapIdx fun d x => { x with origin := origin (.device d) }
    services := σ.services.mapIdx fun s x => { x with node.origin := origin (.service s) }
    characteristics := σ.characteristics.mapIdx fun c x =>
      { x with node.origin := origin (.characteristic c) }
    descriptors := σ.descriptors.mapIdx fun k x =>
      { x with node.origin := origin (.descriptor k) } }

theorem nodes_withOrigins (kind : Kind) (c : ℕ) : ((σ.withOrigins origin).nodes kind)[c]? =
    ((σ.nodes kind)[c]?).map fun n => { n with origin := origin (kind.object c) } := by
  cases kind <;> simp [nodes, withOrigins, Function.comp_def, Kind.object]

theorem lists_withOrigins (kind : Kind) : (σ.withOrigins origin).lists kind = σ.lists kind := by
  cases kind <;> apply List.ext_getElem? <;> intro p <;>
    simp [lists, withOrigins, Function.comp_def]

theorem slot_withOrigins : (σ.withOrigins origin).slot = σ.slot := by
  funext s
  cases s with
  | device d f =>
    simp only [slot, withOrigins, List.getElem?_mapIdx]
    cases σ.devices[d]? with
    | none => rfl
    | some x => cases f <;> rfl
  | node kind c f =>
    rw [slot, slot, nodes_withOrigins]
    cases (σ.nodes kind)[c]? with
    | none => rfl
    | some n => cases f <;> rfl

theorem valueSlot_withOrigins : (σ.withOrigins origin).valueSlot = σ.valueSlot := by
  funext o
  cases o with
  | characteristic c =>
    simp only [valueSlot, withOrigins, List.getElem?_mapIdx]
    cases σ.characteristics[c]? <;> rfl
  | descriptor k =>
    simp only [valueSlot, withOrigins, List.getElem?_mapIdx]
    cases σ.descriptors[k]? <;> rfl
  | device d => rfl
  | service s => rfl
  | advertisement d => rfl

end State

/-- Whatever a script builds is such a tree once its device is taken to be made in C, whatever the
origins of the other objects are. -/
theorem RootedInC.withOrigins {σ : State} (h : ReachableBy Op.NoFini σ)
    {children : Kind → ℕ → List ℕ} (hforests : Forests σ children) {d : ℕ} {x : Device}
    (hx : σ.devices[d]? = some x) (origin : Obj → Origin) (hd : origin (.device d) = .c) :
    RootedInC (σ.withOrigins origin) d { x with origin := .c } children where
  device := by
    refine State.device_eq_ok.mpr ⟨notMem_finalised h _, ?_⟩
    simp [State.withOrigins, hx, hd]
  origin := rfl
  forests kind := by
    refine (hforests kind).extend (fun p => Or.inl (by rw [State.lists_withOrigins])) fun c => ?_
    rw [State.nodes_withOrigins]
    cases hn : (σ.nodes kind)[c]? with
    | none => exact Or.inr ⟨rfl, fun m hm => by cases hm⟩
    | some n => exact Or.inl ⟨_, n, rfl, rfl, rfl, rfl, rfl⟩
  alive o _ := notMem_finalised h o
  strings := by
    have howns := (PointersInv.of_reachable h.reachable).owns
    rw [State.slot_withOrigins]
    refine howns.mono fun s hfreed => ?_
    -- only the path of a child without a parent has been freed so far
    rcases hfreed with hfin | ⟨kind, c, rfl, hnull⟩
    · exact absurd hfin (notMem_finalised h _)
    · intro hmem
      rcases List.mem_cons.mp hmem with hdevice | hmem
      · cases kind <;> cases hdevice
      · obtain ⟨kind', p, c', heq, hc⟩ := exists_parent_of_mem hmem
        obtain ⟨rfl, rfl⟩ := Kind.object_injective heq
        obtain ⟨n, hn, hattached⟩ := (hforests kind).mem_nodes hc
        rw [State.slot_node hn] at hnull
        exact hattached hnull
  buffers := by
    rw [State.valueSlot_withOrigins]
    exact (ValuesInv.of_reachable h.reachable).owns.mono fun o hfin =>
      absurd hfin (notMem_finalised h o)
  assigned kind c f _ hnode := by
    rw [State.slot_withOrigins] at hnode
    obtain ⟨e, g, y, hs, -⟩ := (PointersInv.of_reachable h.reachable).assigned hnode
    cases hs
  valueAssigned o _ := by
    rw [State.valueSlot_withOrigins]
    exact (ValuesInv.of_reachable h.reachable).assigned o

theorem reachable_oneOfEach : ReachableBy Op.NoFini (State.after oneOfEach) := by
  refine State.reachable_after (by decide) fun op hop => ?_
  simp only [oneOfEach, List.mem_cons, List.not_mem_nil, or_false] at hop
  rcases hop with rfl | rfl | rfl | rfl | rfl | rfl | rfl | rfl | rfl <;> trivial

/-- The tree that this script builds. -/
theorem managedObjects_oneOfEach {children : Kind → ℕ → List ℕ}
    (h : Forests (State.after oneOfEach) children) :
    managedObjects children 0 = [.service 0, .characteristic 0, .descriptor 0] := by
  have hsingle : ∀ kind, ((State.after oneOfEach).forest kind).first 0 = some 0 →
      ((State.after oneOfEach).forest kind).next 0 = none → children kind 0 = [0] := by
    intro kind hfirst hnext
    have hchain := (h kind).wellFormed.chain 0
    rw [hfirst] at hchain
    exact hchain.unique (.cons (hnext ▸ .nil))
  have hservice := hsingle .service (by decide) (by decide)
  have hcharacteristic := hsingle .characteristic (by decide) (by decide)
  have hdescriptor := hsingle .descriptor (by decide) (by decide)
  simp [managedObjects, characteristicObjects, descriptorObjects, hservice, hcharacteristic,
    hdescriptor]

/-! ## When a teardown does what it should -/

/-- A teardown does what it should exactly when everything in the tree was made in C and all
fields of the device have been assigned. -/
theorem tearsDown_iff {σ : State} {d : ℕ} {x : Device} {children : Kind → ℕ → List ℕ}
    (h : RootedInC σ d x children) : TearsDown σ d children ↔
      (∀ o ∈ managedObjects children d, σ.origin o = some .c) ∧
        ∀ f, x.field f ≠ .indeterminate := by
  constructor
  · rintro ⟨hc, hlua⟩
    have hall : ∀ o ∈ managedObjects children d, σ.origin o = some .c := by
      by_contra hnot
      push Not at hnot
      obtain ⟨σ', hfree, o, ho, horigin, hcount⟩ := h.exists_freed_lua hnot
      have hsame := hlua σ' hfree o ho horigin
      omega
    obtain ⟨σ', hfree, hreleases⟩ := hc hall
    refine ⟨hall, fun f hf => ?_⟩
    have hslot : σ.slot (.device d f) = .indeterminate := by
      rw [State.slot_device (State.device_eq_ok.mp h.device).2]
      exact hf
    have hmem : .device d f ∈ (treeObjects children d).flatMap Obj.slots :=
      List.mem_flatMap.mpr ⟨.device d, List.mem_cons_self, by cases f <;> simp [Obj.slots]⟩
    have hfreeable := hreleases.strings.freeable _ (List.mem_map_of_mem hmem)
    rw [hslot] at hfreeable
    simp [Heap.Freeable, Heap.PointsTo] at hfreeable
  · rintro ⟨hall, hfields⟩
    constructor
    · intro _
      obtain ⟨σ', hfree, htorn⟩ := deviceFree_torn h.forests h.device h.origin h.alive
      have hreached : managedObjects (σ.ownChildren children) d = managedObjects children d :=
        managedObjects_ownChildren h.origin_device fun o ho =>
          hall o ((managedObjects_sublist (σ.ownChildren_sublist children) d).subset ho)
      rw [hreached] at htorn
      exact ⟨σ', hfree, h.releasesObjects htorn hfields⟩
    · intro σ' _ o ho hlua
      rw [hall o ho] at hlua
      cases hlua

/-- The theorem for one object of each kind, all made in C. -/
theorem tearsDown_iff_one_of_each : ∃ children,
    managedObjects children 0 = [.service 0, .characteristic 0, .descriptor 0] ∧
      TearsDown ((State.after oneOfEach).withOrigins fun _ => .c) 0 children := by
  obtain ⟨children, hforests⟩ := Forests.of_reachable reachable_oneOfEach.reachable
  have hd : (State.after oneOfEach).devices[0]? = some _ := rfl
  have hrooted := RootedInC.withOrigins reachable_oneOfEach hforests hd (fun _ => .c) rfl
  have hobjects := managedObjects_oneOfEach hforests
  refine ⟨children, hobjects, (tearsDown_iff hrooted).mpr ⟨?_, fun f => by cases f <;> decide⟩⟩
  rw [hobjects]
  decide

/-- A service that belongs to Lua is freed with the device made in C that has it in its list. -/
theorem not_tearsDown_lua_service : ¬ ∀ (σ : State) (d : ℕ) (x : Device)
    (children : Kind → ℕ → List ℕ), RootedInC σ d x children → TearsDown σ d children := by
  intro h
  obtain ⟨children, hforests⟩ := Forests.of_reachable reachable_oneOfEach.reachable
  have hd : (State.after oneOfEach).devices[0]? = some _ := rfl
  have hrooted := RootedInC.withOrigins reachable_oneOfEach hforests hd
    (fun o => if o = .service 0 then .lua else .c) rfl
  have hobjects := managedObjects_oneOfEach hforests
  obtain ⟨σ', hfree, o, ho, hlua, hcount⟩ := hrooted.exists_freed_lua
    ⟨.service 0, by rw [hobjects]; decide, by decide⟩
  have hsame := (h _ 0 _ children hrooted).2 σ' hfree o ho hlua
  omega

end BleSim
