import BleSim.Tree
import BleSim.ConversionTheorems
import BleSim.Lib.Ownership

/-!
# Values of characteristics

The `value` fields of all objects own their buffers, and a size is the length of its buffer
(`ValuesInv`). The functions that work on values preserve this and change nothing else about the
objects but values and notifying flags (`ValueFrame`).
-/

namespace BleSim

open Outcomes WriteOnce

/-! ## The invariant -/

/-- The field with the value of a characteristic or a descriptor. -/
def State.valueSlot (σ : State) : Obj → Ptr Bytes
  | .characteristic c => (σ.characteristics[c]?).elim .null Characteristic.value
  | .descriptor k => (σ.descriptors[k]?).elim .null Descriptor.value
  | _ => .null

/-- The value of a characteristic, as its fields give it. -/
def Characteristic.content (x : Characteristic) : Ptr Bytes × UInt32 := (x.value, x.valueSize)

/-- The value of a descriptor, as its fields give it. -/
def Descriptor.content (x : Descriptor) : Ptr Bytes × UInt32 := (x.value, x.valueSize)

/-- Either there is no buffer, or the size is the length of the buffer. -/
def Sized (content : Ptr Bytes × UInt32) : Prop :=
  content = (.null, 0) ∨
    ∃ id bytes, content.1 = .block id bytes ∧ content.2.toNat = bytes.length

/-- What holds of the values in every reachable state. -/
structure ValuesInv (σ : State) : Prop where
  owns : Owns σ.buffers σ.valueSlot (· ∈ σ.finalised)
  frees : σ.buffers.invalidFrees = []
  characteristics : ∀ x ∈ σ.characteristics, Sized x.content
  descriptors : ∀ x ∈ σ.descriptors, x.content = (.null, 0)

/-- A `uint32_t` size is at most the length it was narrowed from. -/
theorem toNat_ofNat_le {n m : ℕ} (h : n ≤ m) : (UInt32.ofNat n).toNat ≤ m := by
  rw [UInt32.toNat_ofNat']
  exact Nat.le_trans (Nat.mod_le _ _) h

/-- The value of a characteristic that is still there: `value_size` is its length, and the buffer
at `value` holds its bytes. -/
def Holds (σ : State) (c : ℕ) (bytes : Bytes) : Prop :=
  ∃ x, σ.characteristic c = .ok x ∧ x.valueSize.toNat = bytes.length ∧
    (x.value = .null ∧ bytes = [] ∨ σ.buffers.PointsTo x.value bytes)

theorem Holds.unique {σ : State} {c : ℕ} {bytes bytes' : Bytes} (h : Holds σ c bytes)
    (h' : Holds σ c bytes') : bytes = bytes' := by
  obtain ⟨x, hx, -, hvalue⟩ := h
  obtain ⟨x', hx', -, hvalue'⟩ := h'
  obtain rfl : x = x' := by simpa using hx.symm.trans hx'
  rcases hvalue with ⟨hnull, rfl⟩ | hpoints <;> rcases hvalue' with ⟨hnull', rfl⟩ | hpoints'
  · rfl
  · exact absurd hnull hpoints'.ne_null
  · exact absurd hnull' hpoints.ne_null
  · exact hpoints.unique hpoints'

theorem State.valueSlot_characteristic {σ : State} {c : ℕ} {x : Characteristic}
    (hx : σ.characteristics[c]? = some x) : σ.valueSlot (.characteristic c) = x.value := by
  simp [State.valueSlot, hx]

namespace ValuesInv

variable {σ σ' : State}

/-- A characteristic that is still there has a value. -/
theorem holds (h : ValuesInv σ) {c : ℕ} {x : Characteristic} (hx : σ.characteristic c = .ok x) :
    ∃ bytes, Holds σ c bytes := by
  obtain ⟨hfin, hget⟩ := State.characteristic_eq_ok.mp hx
  rcases h.characteristics x (List.mem_of_getElem? hget) with hnull | ⟨id, bytes, hvalue, hsize⟩
  · rw [Characteristic.content, Prod.mk.injEq] at hnull
    exact ⟨[], x, hx, by rw [hnull.2]; rfl, Or.inl ⟨hnull.1, rfl⟩⟩
  · refine ⟨bytes, x, hx, hsize, Or.inr ⟨id, ?_, hvalue⟩⟩
    exact h.owns.live (.characteristic c) id bytes hfin
      ((State.valueSlot_characteristic hget).trans hvalue)

/-- Every value field has been assigned. -/
theorem assigned (h : ValuesInv σ) (o : Obj) : σ.valueSlot o ≠ .indeterminate := by
  cases o with
  | characteristic c =>
    cases hx : σ.characteristics[c]? with
    | none => simp [State.valueSlot, hx]
    | some x =>
      rw [State.valueSlot_characteristic hx]
      rcases h.characteristics x (List.mem_of_getElem? hx) with hnull | ⟨id, bytes, hblock, -⟩
      · rw [show x.value = _ from congrArg Prod.fst hnull]
        simp
      · rw [show x.value = _ from hblock]
        simp
  | descriptor k =>
    cases hx : σ.descriptors[k]? with
    | none => simp [State.valueSlot, hx]
    | some x =>
      have hnull := h.descriptors x (List.mem_of_getElem? hx)
      simp [State.valueSlot, hx, show x.value = _ from congrArg Prod.fst hnull]
  | _ => simp [State.valueSlot]

/-- The value of an object that is still there may be freed. -/
theorem freeable (h : ValuesInv σ) {o : Obj} (ho : o ∉ σ.finalised) :
    σ.buffers.Freeable (σ.valueSlot o) := h.owns.freeable ho (h.assigned o)

/-- What a reader finds behind `value`, up to `value_size`. -/
theorem read_take {c : ℕ} {x : Characteristic} (hx : σ.characteristic c = .ok x) {bytes : Bytes}
    (hholds : Holds σ c bytes) :
    x.valueSize.toNat = bytes.length ∧
      (σ.buffers.read x.value).take x.valueSize.toNat = bytes := by
  obtain ⟨x', hx', hsize, hvalue⟩ := hholds
  obtain rfl : x = x' := by simpa using hx.symm.trans hx'
  refine ⟨hsize, ?_⟩
  rcases hvalue with ⟨-, rfl⟩ | hpoints
  · rw [hsize]
    rfl
  · rw [hpoints.read, hsize, List.take_length]

theorem valueSlot_congr
    (hcharacteristics : σ'.characteristics.map Characteristic.content =
      σ.characteristics.map Characteristic.content)
    (hdescriptors : σ'.descriptors.map Descriptor.content =
      σ.descriptors.map Descriptor.content) : σ'.valueSlot = σ.valueSlot := by
  funext o
  cases o with
  | characteristic c =>
    have hget := congrArg (fun l : List _ => (l[c]?).map Prod.fst) hcharacteristics
    simp only [List.getElem?_map, Option.map_map] at hget
    simp only [State.valueSlot]
    generalize σ'.characteristics[c]? = x' at hget ⊢
    generalize σ.characteristics[c]? = x at hget ⊢
    cases x' <;> cases x <;> simp_all [Characteristic.content]
  | descriptor k =>
    have hget := congrArg (fun l : List _ => (l[k]?).map Prod.fst) hdescriptors
    simp only [List.getElem?_map, Option.map_map] at hget
    simp only [State.valueSlot]
    generalize σ'.descriptors[k]? = x' at hget ⊢
    generalize σ.descriptors[k]? = x at hget ⊢
    cases x' <;> cases x <;> simp_all [Descriptor.content]
  | device d => rfl
  | advertisement d => rfl
  | service s => rfl

/-- A change that leaves the values alone. -/
theorem same (h : ValuesInv σ) (hheap : Owns σ'.buffers σ.valueSlot (· ∈ σ'.finalised))
    (hfrees : σ'.buffers.invalidFrees = [])
    (hcharacteristics : σ'.characteristics.map Characteristic.content =
      σ.characteristics.map Characteristic.content)
    (hdescriptors : σ'.descriptors.map Descriptor.content =
      σ.descriptors.map Descriptor.content) : ValuesInv σ' where
  owns := by
    rw [valueSlot_congr hcharacteristics hdescriptors]
    exact hheap
  frees := hfrees
  characteristics x hx := by
    have hmem := List.mem_map_of_mem (f := Characteristic.content) hx
    rw [hcharacteristics] at hmem
    obtain ⟨y, hy, heq⟩ := List.mem_map.mp hmem
    rw [← heq]
    exact h.characteristics y hy
  descriptors x hx := by
    have hmem := List.mem_map_of_mem (f := Descriptor.content) hx
    rw [hdescriptors] at hmem
    obtain ⟨y, hy, heq⟩ := List.mem_map.mp hmem
    rw [← heq]
    exact h.descriptors y hy

/-- Other buffers do not matter. -/
theorem extend (h : ValuesInv σ) {buffers : Heap Bytes} (hext : σ.buffers.Extends buffers) :
    ValuesInv { σ with buffers } := 
  h.same (h.owns.extend hext) (hext.invalidFrees.trans h.frees) rfl rfl

end ValuesInv

/-! ## Steps that touch values only -/

/-- The part of a characteristic that steps on its value leave alone. -/
def Characteristic.shape (x : Characteristic) : Node × UInt32 × Children :=
  (x.node, x.flags, x.descriptors)

/-- Nothing has changed but value buffers, values, notifying flags and the messages sent. -/
structure ValueFrame (σ σ' : State) : Prop where
  rest : ∃ buffers characteristics sent,
    σ' = { σ with buffers, characteristics, bus := { σ.bus with sent } }
  shape : σ'.characteristics.map Characteristic.shape = σ.characteristics.map Characteristic.shape
  values : ValuesInv σ → ValuesInv σ'

namespace ValueFrame

variable {σ σ' σ'' : State}

theorem refl (σ : State) : ValueFrame σ σ := ⟨⟨_, _, _, rfl⟩, rfl, id⟩

theorem trans (h : ValueFrame σ σ') (h' : ValueFrame σ' σ'') : ValueFrame σ σ'' := by
  obtain ⟨⟨b, cs, sent, rfl⟩, hshape, hvalues⟩ := h
  obtain ⟨⟨b', cs', sent', rfl⟩, hshape', hvalues'⟩ := h'
  exact ⟨⟨b', cs', sent', rfl⟩, hshape'.trans hshape, hvalues' ∘ hvalues⟩

theorem nodes (h : ValueFrame σ σ') (kind : Kind) : σ'.nodes kind = σ.nodes kind := by
  obtain ⟨⟨b, cs, sent, rfl⟩, hshape, -⟩ := h
  cases kind with
  | service => rfl
  | descriptor => rfl
  | characteristic =>
    have := congrArg (List.map Prod.fst) hshape
    simpa [State.nodes, Characteristic.shape, Function.comp_def] using this

theorem lists (h : ValueFrame σ σ') (kind : Kind) : σ'.lists kind = σ.lists kind := by
  obtain ⟨⟨b, cs, sent, rfl⟩, hshape, -⟩ := h
  cases kind with
  | service => rfl
  | characteristic => rfl
  | descriptor =>
    have := congrArg (List.map fun x => x.2.2) hshape
    simpa [State.lists, Characteristic.shape, Function.comp_def] using this

theorem strings (h : ValueFrame σ σ') : σ'.strings = σ.strings := by
  obtain ⟨⟨b, cs, sent, rfl⟩, -, -⟩ := h
  rfl

theorem outOfMemory (h : ValueFrame σ σ') : σ'.bus.outOfMemory = σ.bus.outOfMemory := by
  obtain ⟨⟨b, cs, sent, rfl⟩, -, -⟩ := h
  rfl

theorem registered (h : ValueFrame σ σ') : σ'.bus.registered = σ.bus.registered := by
  obtain ⟨⟨b, cs, sent, rfl⟩, -, -⟩ := h
  rfl

/-- A characteristic keeps its node. -/
theorem characteristic (h : ValueFrame σ σ') {c : ℕ} {x : Characteristic}
    (hx : σ.characteristic c = .ok x) :
    ∃ x', σ'.characteristic c = .ok x' ∧ x'.node = x.node := by
  obtain ⟨⟨b, cs, sent, rfl⟩, hshape, -⟩ := h
  obtain ⟨hfin, hget⟩ := State.characteristic_eq_ok.mp hx
  have hnode := congrArg (fun l : List _ => (l[c]?).map Prod.fst) hshape
  simp only [List.getElem?_map, Option.map_map, hget, Option.map_some] at hnode
  obtain ⟨x', hx', heq⟩ := Option.map_eq_some_iff.mp hnode
  exact ⟨x', State.characteristic_eq_ok.mpr ⟨hfin, hx'⟩, heq⟩

theorem finalised (h : ValueFrame σ σ') : σ'.finalised = σ.finalised := by
  obtain ⟨⟨b, cs, sent, rfl⟩, -, -⟩ := h
  rfl

theorem length (h : ValueFrame σ σ') :
    σ'.characteristics.length = σ.characteristics.length := by
  have hlength := congrArg List.length h.shape
  rwa [List.length_map, List.length_map] at hlength

/-- No characteristic comes into being. -/
theorem characteristic_of (h : ValueFrame σ σ') {c : ℕ} {x' : Characteristic}
    (hx' : σ'.characteristic c = .ok x') : ∃ x, σ.characteristic c = .ok x := by
  obtain ⟨hfin, hget⟩ := State.characteristic_eq_ok.mp hx'
  have hlt : c < σ.characteristics.length := h.length ▸ (List.getElem?_eq_some_iff.mp hget).1
  exact ⟨_, State.characteristic_eq_ok.mpr ⟨h.finalised ▸ hfin, List.getElem?_eq_getElem hlt⟩⟩

theorem send (σ : State) (message : Message) :
    ValueFrame σ { σ with bus := dbusConnectionSend σ.bus message } :=
  ⟨⟨_, _, _, rfl⟩, rfl, fun h => h.same h.owns h.frees rfl rfl⟩

theorem sendReply (σ : State) (reply : Option Message) : ValueFrame σ (sendReply reply σ) := by
  cases reply with
  | none => exact refl σ
  | some reply => exact send σ reply

/-- Using other buffers. -/
theorem extend {buffers : Heap Bytes} (hext : σ.buffers.Extends buffers) :
    ValueFrame σ { σ with buffers } := ⟨⟨_, _, _, rfl⟩, rfl, fun h => h.extend hext⟩

end ValueFrame

/-- Storing a value: the old buffer is released, and the new one, if it could be allocated, holds
a copy of the bytes. -/
structure Stores (c : ℕ) (data : Bytes) (size : UInt32) (σ σ' : State) : Prop where
  fields : ∃ x value valueSize buffers, σ.characteristic c = .ok x ∧
    σ' = { σ with
      buffers
      characteristics := σ.characteristics.modify c fun x => { x with value, valueSize } } ∧
    buffers.fails = σ.buffers.fails ∧ σ.buffers.size ≤ buffers.size ∧
    (∀ id ∈ σ.buffers.live, x.value.id? ≠ some id → id ∈ buffers.live) ∧
    (value = .null ∧ valueSize = 0 ∧ ¬ σ.buffers.NeverFails ∨
      valueSize = size ∧ size.toNat ≤ data.length ∧
        Heap.New σ.buffers buffers value (data.take size.toNat))
  values : ValuesInv σ → ValuesInv σ'

theorem valueSlot_modify {σ : State} {c : ℕ} {x : Characteristic}
    (hx : σ.characteristics[c]? = some x) (buffers : Heap Bytes) (value : Ptr Bytes)
    (valueSize : UInt32) :
    ({ σ with
      buffers
      characteristics := σ.characteristics.modify c fun x => { x with value, valueSize } } :
        State).valueSlot = Function.update σ.valueSlot (.characteristic c) value := by
  funext o
  by_cases ho : o = .characteristic c
  · subst ho
    simp [State.valueSlot, List.getElem?_modify_eq, hx]
  · rw [Function.update_of_ne ho]
    cases o with
    | characteristic e =>
      have hne : c ≠ e := fun heq => ho (by rw [heq])
      simp [State.valueSlot, List.getElem?_modify_ne _ _ hne]
    | _ => rfl

theorem sized_of_mem_modify {σ : State} {c : ℕ} {value : Ptr Bytes} {valueSize : UInt32}
    (h : ValuesInv σ) (hsized : Sized (value, valueSize)) :
    ∀ x ∈ σ.characteristics.modify c fun x => { x with value, valueSize }, Sized x.content := by
  intro x hx
  obtain ⟨e, he⟩ := List.mem_iff_getElem?.mp hx
  by_cases hce : c = e
  · rw [hce, List.getElem?_modify_eq] at he
    obtain ⟨y, -, rfl⟩ := Option.map_eq_some_iff.mp he
    exact hsized
  · rw [List.getElem?_modify_ne _ _ hce] at he
    exact h.characteristics x (List.mem_of_getElem? he)

theorem characteristicSetValue_stores {c : ℕ} {data : Bytes} {size : UInt32} {σ σ' : State}
    (h : characteristicSetValue c (some data) size σ = .ok σ') : Stores c data size σ σ' := by
  obtain ⟨x, hx, h⟩ := bind_eq_ok.mp h
  obtain ⟨hfin, hget⟩ := State.characteristic_eq_ok.mp hx
  set freed := σ.buffers.free x.value with hfreed
  have hext := Heap.Extends.tryAlloc freed (data.take size.toNat)
  have hfails : (freed.tryAlloc (data.take size.toNat)).2.fails = σ.buffers.fails :=
    hext.fails.trans (Heap.free_fails _ _)
  have hsize : freed.size = σ.buffers.size := Heap.free_size _ _
  have hle : σ.buffers.size ≤ (freed.tryAlloc (data.take size.toNat)).2.size := by
    rw [← hsize]
    exact hext.size
  have hlive : ∀ id ∈ σ.buffers.live, x.value.id? ≠ some id →
      id ∈ (freed.tryAlloc (data.take size.toNat)).2.live := fun id hid hne =>
    hext.live id (Heap.mem_live_free hid hne)
  -- the old buffer is gone, but its slot is assigned at once
  have howns : ValuesInv σ → Owns freed σ.valueSlot fun o =>
      o ∈ σ.finalised ∨ o = .characteristic c := by
    intro hinv
    have := hinv.owns.free (.characteristic c)
    rwa [State.valueSlot_characteristic hget] at this
  have hex : ∀ o, o ≠ .characteristic c → o ∈ σ.finalised ∨ o = .characteristic c →
      o ∈ σ.finalised := fun o hne ho => ho.resolve_right hne
  have hfrees : ValuesInv σ → (freed.tryAlloc (data.take size.toNat)).2.invalidFrees = [] := by
    intro hinv
    have hfreeable := hinv.freeable hfin
    rw [State.valueSlot_characteristic hget] at hfreeable
    have hfreed := hext.invalidFrees.trans ((Heap.invalidFrees_free_iff _ _).mpr hfreeable)
    exact hfreed.trans hinv.frees
  simp only [ite_eq_ok] at h
  rcases h with ⟨hnull, h⟩ | ⟨hnull, ⟨hfits, h⟩ | ⟨-, h⟩⟩
  · cases h
    -- the request for the new block has failed, and the size becomes 0
    have hfail : ¬ σ.buffers.NeverFails := fun hf =>
      (Heap.tryAlloc_new (fun n => (congrFun (Heap.free_fails _ _) n).trans (hf n)) _).ne_null hnull
    refine ⟨⟨x, .null, 0, _, hx, rfl, hfails, hle, hlive, Or.inl ⟨rfl, rfl, hfail⟩⟩,
      fun hinv => ?_⟩
    refine ⟨?_, hfrees hinv, sized_of_mem_modify hinv (Or.inl rfl), hinv.descriptors⟩
    rw [valueSlot_modify hget]
    exact ((howns hinv).extend hext).forget _ (by simp) hex
  · cases h
    have hnew := (Heap.tryAlloc_cases freed (data.take size.toNat)).resolve_left hnull
    have hnew' : Heap.New σ.buffers (freed.tryAlloc (data.take size.toNat)).2
        (freed.tryAlloc (data.take size.toNat)).1 (data.take size.toNat) := by
      obtain ⟨id, hid, hge, hp⟩ := hnew
      exact ⟨id, hid, hsize ▸ hge, hp⟩
    refine ⟨⟨x, _, size, _, hx, rfl, hfails, hle, hlive, Or.inr ⟨rfl, hfits, hnew'⟩⟩,
      fun hinv => ?_⟩
    obtain ⟨id, hid, hge, hp⟩ := hnew
    refine ⟨?_, hfrees hinv, sized_of_mem_modify hinv (Or.inr ⟨id, _, hp, ?_⟩), hinv.descriptors⟩
    · rw [valueSlot_modify hget, hp]
      refine ((howns hinv).extend hext).update _ _ (fun o b _ ho => ?_)
        ((freed.tryAlloc _).2.live_lt id hid) (fun _ => hid) hex
      have := (howns hinv).bounded o id b ho
      omega
    · rw [List.length_take, Nat.min_eq_left hfits]
  · cases h

theorem characteristicSetValue_frame {c : ℕ} {newValue : Option Bytes} {valueSize : UInt32}
    {σ σ' : State} (h : characteristicSetValue c newValue valueSize σ = .ok σ') :
    ValueFrame σ σ' := by
  cases newValue with
  | none =>
    obtain ⟨x, -, h⟩ := bind_eq_ok.mp h
    cases h
    exact .refl σ
  | some data =>
    have hstores := characteristicSetValue_stores h
    obtain ⟨x, value, size, buffers, -, rfl, -⟩ := hstores.fields
    exact ⟨⟨_, _, _, rfl⟩, State.map_modify_same _ _ _ _ fun _ => rfl, hstores.values⟩

theorem characteristicSetNotifying_frame {c : ℕ} {notifying : Bool} {σ σ' : State}
    (h : characteristicSetNotifying c notifying σ = .ok σ') : ValueFrame σ σ' := by
  obtain ⟨x, -, h⟩ := bind_eq_ok.mp h
  cases h
  exact ⟨⟨_, _, _, rfl⟩, State.map_modify_same _ _ _ _ fun _ => rfl, fun hinv =>
    hinv.same hinv.owns hinv.frees (State.map_modify_same _ _ _ _ fun _ => rfl) rfl⟩

/-- A signal is sent from the path it is given, or was not because memory ran out. -/
theorem dbusutilsSendObjectPropertiesChangedSignal_cases {strings : Heap CStr} {field : Ptr CStr}
    {iface : CStr} {table : List Property} {bus bus' : Connection}
    (h : dbusutilsSendObjectPropertiesChangedSignal strings field iface table bus = .ok bus') :
    bus' = bus ∨ ∃ path message, libraryPath strings field = .ok path ∧
      message.path = some path ∧ bus' = dbusConnectionSend bus message := by
  simp only [dbusutilsSendObjectPropertiesChangedSignal, ite_eq_ok, bind_eq_ok] at h
  obtain ⟨path, hpath, ⟨-, h⟩ | ⟨-, w₁, -, w₂, -, w₃, -, w₄, -, h⟩⟩ := h
  · cases h
    exact Or.inl rfl
  · cases h
    exact Or.inr ⟨path, _, hpath, rfl, rfl⟩

theorem dbusutilsSendObjectPropertiesChangedSignal_sent {strings : Heap CStr} {field : Ptr CStr}
    {iface : CStr} {table : List Property} {bus bus' : Connection}
    (h : dbusutilsSendObjectPropertiesChangedSignal strings field iface table bus = .ok bus') :
    ∃ sent, bus' = { bus with sent } := by
  obtain rfl | ⟨path, message, -, -, rfl⟩ := dbusutilsSendObjectPropertiesChangedSignal_cases h
  · exact ⟨_, rfl⟩
  · exact ⟨_, rfl⟩

/-- An update does nothing, or stores the value and may send a signal. -/
theorem characteristicUpdateValue_cases {c : ℕ} {newValue : Bytes} {dataSize : ℕ} {σ σ' : State}
    (h : characteristicUpdateValue c newValue dataSize σ = .ok σ') :
    σ' = σ ∨ ∃ σ₁ sent,
      characteristicSetValue c (some newValue) (UInt32.ofNat dataSize) σ = .ok σ₁ ∧
      σ' = { σ₁ with bus := { σ₁.bus with sent } } := by
  simp only [characteristicUpdateValue, bind_eq_ok, ite_eq_ok] at h
  obtain ⟨x, -, ⟨-, h⟩ | ⟨-, σ₁, hset, x₁, -, ⟨-, bus, hsignal, h⟩ | ⟨-, h⟩⟩⟩ := h
  · cases h
    exact Or.inl rfl
  · cases h
    obtain ⟨sent, rfl⟩ := dbusutilsSendObjectPropertiesChangedSignal_sent hsignal
    exact Or.inr ⟨σ₁, sent, hset, rfl⟩
  · cases h
    exact Or.inr ⟨σ', _, hset, rfl⟩

theorem Stores.frame {c : ℕ} {data : Bytes} {size : UInt32} {σ σ' : State}
    (h : Stores c data size σ σ') : ValueFrame σ σ' := by
  obtain ⟨x, value, valueSize, buffers, -, rfl, -⟩ := h.fields
  exact ⟨⟨_, _, _, rfl⟩, State.map_modify_same _ _ _ _ fun _ => rfl, h.values⟩

theorem characteristicUpdateValue_frame {c : ℕ} {newValue : Bytes} {dataSize : ℕ} {σ σ' : State}
    (h : characteristicUpdateValue c newValue dataSize σ = .ok σ') : ValueFrame σ σ' := by
  rcases characteristicUpdateValue_cases h with rfl | ⟨σ₁, sent, hset, rfl⟩
  · exact .refl σ'
  · exact (characteristicSetValue_frame hset).trans ⟨⟨_, _, _, rfl⟩, rfl, fun hinv =>
      hinv.same hinv.owns hinv.frees rfl rfl⟩

/-- After an update, a value is in a buffer it was in before or in a new one. -/
theorem valueSlot_updated {c : ℕ} {newValue : Bytes} {dataSize : ℕ} {σ σ' : State}
    (h : characteristicUpdateValue c newValue dataSize σ = .ok σ') {o : Obj} {id : ℕ} {a : Bytes}
    (ho : σ'.valueSlot o = .block id a) :
    σ.valueSlot o = .block id a ∨ σ.buffers.size ≤ id := by
  rcases characteristicUpdateValue_cases h with rfl | ⟨σ₁, sent, hset, rfl⟩
  · exact Or.inl ho
  · obtain ⟨x, value, valueSize, buffers, hx, rfl, -, -, -, hvalue⟩ :=
      (characteristicSetValue_stores hset).fields
    have hslot := valueSlot_modify (State.characteristic_eq_ok.mp hx).2 buffers value valueSize
    have ho' : Function.update σ.valueSlot (.characteristic c) value o = .block id a := by
      rw [← hslot]
      exact ho
    -- only the slot of the updated characteristic is written to
    by_cases hoc : o = .characteristic c
    · rw [hoc, Function.update_self] at ho'
      rcases hvalue with ⟨rfl, -⟩ | ⟨-, -, id', -, hge, rfl⟩
      · cases ho'
      · cases ho'
        exact Or.inr hge
    · rw [Function.update_of_ne hoc] at ho'
      exact Or.inl ho'

/-- The buffer a value was converted into is still there after the update. -/
theorem freeable_of_new {σ σ' : State} (hinv : ValuesInv σ) {buffers : Heap Bytes} {p : Ptr Bytes}
    {bytes newValue : Bytes} (hnew : Heap.New σ.buffers buffers p bytes) {c dataSize : ℕ}
    (hupdate : characteristicUpdateValue c newValue dataSize { σ with buffers } = .ok σ') :
    σ'.buffers.Freeable p := by
  obtain ⟨i, hi, hge, rfl⟩ := hnew
  rcases characteristicUpdateValue_cases hupdate with rfl | ⟨σ₁, sent, hset, rfl⟩
  · exact Or.inr ⟨bytes, i, hi, rfl⟩
  · obtain ⟨x, value, valueSize, buffers', hx, rfl, -, -, hlive, -⟩ :=
      (characteristicSetValue_stores hset).fields
    refine Or.inr ⟨bytes, i, hlive i hi fun hsame => ?_, rfl⟩
    obtain ⟨a, ha⟩ : ∃ a, x.value = .block i a := by
      cases hx : x.value <;> simp_all [Ptr.id?]
    have := hinv.owns.bounded (.characteristic c) i a
      ((State.valueSlot_characteristic (State.characteristic_eq_ok.mp hx).2).trans ha)
    omega

/-- The buffer a value was converted into is in no field. -/
theorem unused_of_new {σ σ' : State} (hinv : ValuesInv σ) {buffers : Heap Bytes} {p : Ptr Bytes}
    {bytes newValue : Bytes} (hnew : Heap.New σ.buffers buffers p bytes) {c dataSize : ℕ}
    (hupdate : characteristicUpdateValue c newValue dataSize { σ with buffers } = .ok σ') (o : Obj)
    (id : ℕ) (a : Bytes) (ho : σ'.valueSlot o = .block id a) : p.id? ≠ some id := by
  obtain ⟨i, hlive, hge, rfl⟩ := hnew
  have hlt := buffers.live_lt i hlive
  have hne : i ≠ id := by
    rcases valueSlot_updated hupdate ho with ho | hi
    · have := hinv.owns.bounded o id a ho
      omega
    · exact Nat.ne_of_lt (Nat.lt_of_lt_of_le hlt hi)
  simpa [Ptr.id?] using hne

theorem luaiCharacteristicSetValue_frame {c : ℕ} {v t : LuaValue} {exit : LuaExit Bool}
    {σ σ' : State} (h : luaiCharacteristicSetValue c v t σ = .ok (exit, σ')) :
    ValueFrame σ σ' := by
  unfold luaiCharacteristicSetValue at h
  split at h
  · cases h
    exact .refl σ
  · obtain ⟨⟨exit', buffers⟩, hconv, h⟩ := bind_eq_ok.mp h
    have hok := luaiConvert_ok hconv
    dsimp only at h
    split at h
    · cases h
      exact .extend hok.extend
    · cases h
      exact .extend hok.extend
    · rename_i data dataSize
      obtain ⟨σ₁, hupdate, h⟩ := bind_eq_ok.mp h
      cases h
      -- the converted block is released at the end, when no slot holds it
      have hframe := (ValueFrame.extend hok.extend).trans (characteristicUpdateValue_frame hupdate)
      refine ⟨?_, hframe.shape, fun hinv => (hframe.values hinv).same ?_ ?_ rfl rfl⟩
      · obtain ⟨b, cs, sent, rfl⟩ := hframe.rest
        exact ⟨_, _, _, rfl⟩
      · obtain ⟨bytes, hnew, -⟩ := hok.data _ rfl
        exact (hframe.values hinv).owns.release (unused_of_new hinv hnew hupdate)
      · obtain ⟨bytes, hnew, -⟩ := hok.data _ rfl
        exact ((Heap.invalidFrees_free_iff _ _).mpr (freeable_of_new hinv hnew hupdate)).trans
          (hframe.values hinv).frees

theorem deviceGetManagedObjects_state {d : ℕ} {message : Message} {σ σ' : State}
    {reply : Option Message} (h : deviceGetManagedObjects d message σ = .ok (reply, σ')) :
    σ' = σ := by
  unfold deviceGetManagedObjects at h
  split at h
  · cases h
    rfl
  · simp only [bind_eq_ok] at h
    obtain ⟨w₁, -, x, -, w₂, -, w₃, -, h⟩ := h
    cases h
    rfl

/-- A method of a registered object changes nothing, or it is one of a characteristic. -/
theorem call_cases {o : Obj} {σ : State} {row : Method} (hrow : row ∈ (objectData σ o).methods)
    {message : Message} {τ τ' : State} {reply : Option Message}
    (h : row.call message τ = .ok (reply, τ')) :
    τ' = τ ∨ ∃ c, o = .characteristic c ∧ row ∈ characteristicMethods c := by
  cases o with
  | device d =>
    rw [List.mem_singleton.mp hrow] at h
    exact Or.inl (deviceGetManagedObjects_state h)
  | advertisement d =>
    rw [List.mem_singleton.mp hrow] at h
    cases h
    exact Or.inl rfl
  | service s => cases hrow
  | descriptor k => cases hrow
  | characteristic c => exact Or.inr ⟨c, rfl, hrow⟩

/-- A method of a characteristic changes nothing, stores a value, or switches notifications. -/
theorem characteristicMethods_cases {c : ℕ} {row : Method} (hrow : row ∈ characteristicMethods c)
    {message : Message} {τ τ' : State} {reply : Option Message}
    (h : row.call message τ = .ok (reply, τ')) :
    τ' = τ ∨ (∃ data size, characteristicSetValue c (some data) size τ = .ok τ') ∨
      ∃ notifying, characteristicSetNotifying c notifying τ = .ok τ' := by
  simp only [characteristicMethods, List.mem_cons, List.not_mem_nil, or_false] at hrow
  -- `ReadValue`, `WriteValue`, `StartNotify` and `StopNotify`, in the order of the table
  rcases hrow with rfl | rfl | rfl | rfl
  · dsimp only [characteristicReadValue] at h
    split at h
    · cases h
      exact Or.inl rfl
    · simp only [bind_eq_ok] at h
      obtain ⟨x, -, w, -, h⟩ := h
      cases h
      exact Or.inl rfl
  · simp only [characteristicWriteValue, bind_eq_ok, ite_eq_ok] at h
    obtain ⟨array, -, ⟨newValue, count⟩, -, ⟨-, h⟩ | ⟨hsome, τ₁, hset, h⟩⟩ := h
    · cases h
      exact Or.inl rfl
    · cases h
      cases newValue with
      | none => exact absurd (Or.inl rfl) hsome
      | some data => exact Or.inr (Or.inl ⟨data, _, hset⟩)
  · obtain ⟨τ₁, hset, h⟩ := bind_eq_ok.mp h
    cases h
    exact Or.inr (Or.inr ⟨_, hset⟩)
  · obtain ⟨τ₁, hset, h⟩ := bind_eq_ok.mp h
    cases h
    exact Or.inr (Or.inr ⟨_, hset⟩)

/-- A method of a characteristic touches values at most. -/
theorem characteristicMethods_frame {c : ℕ} {row : Method} (hrow : row ∈ characteristicMethods c)
    {message : Message} {τ τ' : State} {reply : Option Message}
    (h : row.call message τ = .ok (reply, τ')) : ValueFrame τ τ' := by
  obtain rfl | ⟨data, size, hset⟩ | ⟨notifying, hset⟩ := characteristicMethods_cases hrow h
  · exact .refl _
  · exact characteristicSetValue_frame hset
  · exact characteristicSetNotifying_frame hset

/-- Handling a message is at most one call of a method, and then a reply. -/
theorem dbusutilsObjectHandleMessage_cases {o : Obj} {message request : Message}
    {result : HandlerResult} {σ σ' : State}
    (h : dbusutilsObjectHandleMessage o message σ = .ok (result, request, σ')) :
    ∃ σ₁ reply, σ' = sendReply reply σ₁ ∧
      (σ₁ = σ ∨ ∃ row ∈ (objectData σ o).methods,
        message.isMethodCall row.interface row.method = true ∧
          row.call message σ = .ok (reply, σ₁)) := by
  unfold dbusutilsObjectHandleMessage at h
  split at h
  · cases h
  simp only [ite_eq_ok] at h
  rcases h with ⟨-, h⟩ | ⟨-, h⟩
  · -- the properties interface changes nothing but what has been sent
    simp only [handlePropertiesInterface, ite_eq_ok, bind_eq_ok] at h
    rcases h with ⟨-, ⟨reply, m⟩, -, h⟩ | ⟨-, ⟨-, h⟩ | ⟨-, ⟨-, reply, -, h⟩ | ⟨-, h⟩⟩⟩
    · cases h
      exact ⟨σ, reply, rfl, Or.inl rfl⟩
    · cases h
      exact ⟨σ, none, rfl, Or.inl rfl⟩
    · cases h
      exact ⟨σ, reply, rfl, Or.inl rfl⟩
    · cases h
      exact ⟨σ, none, rfl, Or.inl rfl⟩
  · unfold handleMethodCall at h
    split at h
    · cases h
      exact ⟨σ, none, rfl, Or.inl rfl⟩
    · rename_i row hrow
      obtain ⟨⟨reply, σ₁⟩, hcall, h⟩ := bind_eq_ok.mp h
      have hmatch : message.isMethodCall row.interface row.method = true :=
        List.find?_some
          (p := fun row : Method => message.isMethodCall row.interface row.method) hrow
      refine ⟨σ₁, reply, ?_, Or.inr ⟨row, List.mem_of_find?_eq_some hrow, hmatch, hcall⟩⟩
      cases reply with
      | none =>
        cases h
        rfl
      | some reply =>
        cases h
        rfl

/-- Handling a message touches values at most. -/
theorem dbusutilsObjectHandleMessage_frame {o : Obj} {message request : Message}
    {result : HandlerResult} {σ σ' : State}
    (h : dbusutilsObjectHandleMessage o message σ = .ok (result, request, σ')) :
    ValueFrame σ σ' := by
  obtain ⟨σ₁, reply, rfl, rfl | ⟨row, hrow, -, hcall⟩⟩ := dbusutilsObjectHandleMessage_cases h
  · exact .sendReply _ reply
  · obtain rfl | ⟨c, rfl, hmethod⟩ := call_cases hrow hcall
    · exact .sendReply _ reply
    · exact (characteristicMethods_frame hmethod hcall).trans (.sendReply _ reply)

end BleSim
