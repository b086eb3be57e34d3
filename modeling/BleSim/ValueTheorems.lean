import BleSim.PointerChanges
import BleSim.Requests

/-!
# What becomes of a value

In every reachable state a characteristic holds the bytes its fields say (`ValuesInv`). This
file computes what each step on a value does to the value, to the notifying flag and to the
messages sent, when memory does not run out.
-/

namespace BleSim

open Outcomes WriteOnce DBusValue

/-! ## The invariant in every reachable state -/

namespace ValuesInv

variable {σ σ' : State}

theorem of_isInitial (h : σ.IsInitial) : ValuesInv σ := by
  obtain ⟨strings, buffers, fails, outOfMemory, rfl⟩ := h
  refine ⟨Owns.of_no_block fun o id a => ?_, rfl, by simp [State.initial], by simp [State.initial]⟩
  cases o <;> simp [State.valueSlot, State.initial]

/-- A new object has no value yet, and neither had the place it takes. -/
theorem valueSlot_append {cs : List Characteristic} {ks : List Descriptor}
    (hcharacteristics : σ'.characteristics = σ.characteristics ++ cs)
    (hdescriptors : σ'.descriptors = σ.descriptors ++ ks)
    (hcs : ∀ x ∈ cs, x.content = (.null, 0)) (hks : ∀ x ∈ ks, x.content = (.null, 0)) :
    σ'.valueSlot = σ.valueSlot := by
  funext o
  cases o with
  | characteristic c =>
    simp only [State.valueSlot, hcharacteristics, List.getElem?_append]
    split_ifs with hlt
    · rfl
    · rw [List.getElem?_eq_none (l := σ.characteristics) (by omega)]
      cases hx : cs[c - σ.characteristics.length]? with
      | none => rfl
      | some x => exact congrArg Prod.fst (hcs x (List.mem_of_getElem? hx))
  | descriptor k =>
    simp only [State.valueSlot, hdescriptors, List.getElem?_append]
    split_ifs with hlt
    · rfl
    · rw [List.getElem?_eq_none (l := σ.descriptors) (by omega)]
      cases hx : ks[k - σ.descriptors.length]? with
      | none => rfl
      | some x => exact congrArg Prod.fst (hks x (List.mem_of_getElem? hx))
  | _ => rfl

/-- New objects have no values. -/
theorem append (h : ValuesInv σ) {cs : List Characteristic} {ks : List Descriptor}
    (hbuffers : σ'.buffers = σ.buffers) (hfin : σ'.finalised = σ.finalised)
    (hcharacteristics : σ'.characteristics = σ.characteristics ++ cs)
    (hdescriptors : σ'.descriptors = σ.descriptors ++ ks)
    (hcs : ∀ x ∈ cs, x.content = (.null, 0)) (hks : ∀ x ∈ ks, x.content = (.null, 0)) :
    ValuesInv σ' := by
  refine ⟨?_, ?_, fun x hx => ?_, fun x hx => ?_⟩
  · rw [valueSlot_append hcharacteristics hdescriptors hcs hks, hbuffers, hfin]
    exact h.owns
  · rw [hbuffers]
    exact h.frees
  · rw [hcharacteristics] at hx
    rcases List.mem_append.mp hx with hx | hx
    · exact h.characteristics x hx
    · exact Or.inl (hcs x hx)
  · rw [hdescriptors] at hx
    rcases List.mem_append.mp hx with hx | hx
    · exact h.descriptors x hx
    · exact hks x hx

/-- What the functions on the list nodes and on the lists of children leave alone. -/
theorem content_setNode (σ : State) (kind : Kind) (c : ℕ) (n : Node) :
    (σ.setNode kind c n).characteristics.map Characteristic.content =
        σ.characteristics.map Characteristic.content ∧
      (σ.setNode kind c n).descriptors.map Descriptor.content =
        σ.descriptors.map Descriptor.content := by
  cases kind <;> constructor <;> first
    | rfl
    | exact State.map_modify_same _ _ _ _ fun _ => rfl

theorem content_setChildren (σ : State) (kind : Kind) (p : ℕ) (children : Children) :
    (σ.setChildren kind p children).characteristics.map Characteristic.content =
        σ.characteristics.map Characteristic.content ∧
      (σ.setChildren kind p children).descriptors.map Descriptor.content =
        σ.descriptors.map Descriptor.content := by
  cases kind <;> constructor <;> first
    | rfl
    | exact State.map_modify_same _ _ _ _ fun _ => rfl

/-- The list nodes and the lists of children do not matter. -/
theorem setNode (h : ValuesInv σ) (kind : Kind) (c : ℕ) (n : Node) :
    ValuesInv (σ.setNode kind c n) := by
  obtain ⟨hcharacteristics, hdescriptors⟩ := content_setNode σ kind c n
  exact h.same (by rw [State.setNode_buffers, State.setNode_finalised]; exact h.owns)
    (by rw [State.setNode_buffers]; exact h.frees) hcharacteristics hdescriptors

theorem setChildren (h : ValuesInv σ) (kind : Kind) (p : ℕ) (children : Children) :
    ValuesInv (σ.setChildren kind p children) := by
  obtain ⟨hcharacteristics, hdescriptors⟩ := content_setChildren σ kind p children
  exact h.same (by rw [State.setChildren_buffers, State.setChildren_finalised]; exact h.owns)
    (by rw [State.setChildren_buffers]; exact h.frees) hcharacteristics hdescriptors

theorem finalised (h : ValuesInv σ) (hpointers : PointersInv σ) {o : Obj}
    (hfini : finiObject o σ = .ok σ') : ValuesInv σ' := by
  obtain ⟨hfin, -, oc, rfl⟩ := hpointers.finiObject_spec hfini
  refine h.same ((h.owns.free o).mono fun o' ho => ?_)
    (((Heap.invalidFrees_free_iff _ _).mpr (h.freeable hfin)).trans h.frees) rfl rfl
  rcases ho with ho | rfl
  · exact List.mem_cons_of_mem _ ho
  · exact List.mem_cons_self

theorem change {op : Op} (hchange : Change op σ σ') (hpointers : PointersInv σ)
    (h : ValuesInv σ) : ValuesInv σ' := by
  cases hchange with
  | createDevice => exact h.same h.owns h.frees rfl rfl
  | createService => exact h.same h.owns h.frees rfl rfl
  | createCharacteristic =>
    exact h.append rfl rfl rfl (List.append_nil _).symm
      (fun x hx => by rw [List.mem_singleton.mp hx]; rfl) (by simp)
  | createDescriptor =>
    exact h.append rfl rfl (List.append_nil _).symm rfl (by simp)
      (fun x hx => by rw [List.mem_singleton.mp hx]; rfl)
  | refused _ _ =>
    have hstrings : ∀ strings, ValuesInv { σ with strings } := fun _ =>
      h.same h.owns h.frees rfl rfl
    exact (hstrings _).setNode _ _ _
  | added _ _ =>
    have hbus : ∀ strings bus, ValuesInv { σ with strings, bus } := fun _ _ =>
      h.same h.owns h.frees rfl rfl
    exact ((hbus _ _).setNode _ _ _).setChildren _ _ _
  | controller hinit =>
    obtain ⟨x, vc, oc, co, cc, -, rfl, -⟩ := deviceInitController_spec hinit
    exact h.same h.owns h.frees rfl rfl
  | registered _ _ => exact h.same h.owns h.frees rfl rfl
  | requested => exact h.same h.owns h.frees rfl rfl
  | asked => exact h.same h.owns h.frees rfl rfl
  | advertised hinit =>
    obtain ⟨x, strings, a, i, j, k, -, rfl, -⟩ := deviceInitAdvertisement_spec hinit
    exact h.same h.owns h.frees rfl rfl
  | listed _ _ =>
    rw [State.listDevice_eq]
    exact h.same h.owns h.frees rfl rfl
  | valued _ hframe => exact hframe.values h
  | answered hreply =>
    obtain rfl := onRegisterApplicationReply_spec hreply
    exact h.same h.owns h.frees rfl rfl
  | advertAnswered hreply =>
    obtain ⟨x, -, rfl⟩ := onRegisterAdvertReply_spec hreply
    exact h.same h.owns h.frees rfl rfl
  | reused => exact h.same (h.owns.congr_heap rfl rfl) h.frees rfl rfl
  | finalised hfini => exact h.finalised hpointers hfini

theorem of_reachable (h : Reachable σ) : ValuesInv σ := by
  have hboth : PointersInv σ ∧ ValuesInv σ :=
    h.changeInduction (fun σ => PointersInv σ ∧ ValuesInv σ)
      (fun _ hinit => ⟨.of_isInitial hinit, of_isInitial hinit⟩)
      fun _ _ _ _ hchange hinv => ⟨hinv.1.change hchange, hinv.2.change hchange hinv.1⟩
  exact hboth.2

end ValuesInv

/-! ## The effect of a step on a value -/

/-- What a characteristic shows: its bytes, and whether their changes are notified. -/
structure Cell where
  bytes : Bytes
  notifying : Bool

/-- The characteristic `c` is still there and shows this. -/
structure Shows (σ : State) (c : ℕ) (cell : Cell) : Prop where
  holds : Holds σ c cell.bytes
  notifying : ∃ x, σ.characteristic c = .ok x ∧ x.notifying = cell.notifying

/-- A step has made `c` show `cell`, has sent `messages`, and has left everything else as it
was. -/
structure Effect (σ σ' : State) (c : ℕ) (cell : Cell) (messages : List Message) : Prop where
  frame : ValueFrame σ σ'
  fails : σ'.buffers.fails = σ.buffers.fails
  sent : σ'.bus.sent = σ.bus.sent ++ messages
  shows : Shows σ' c cell
  others : ∀ e cell, e ≠ c → Shows σ e cell → Shows σ' e cell

theorem Holds.shows {σ : State} {c : ℕ} {bytes : Bytes} {x : Characteristic}
    (h : Holds σ c bytes) (hx : σ.characteristic c = .ok x) : Shows σ c ⟨bytes, x.notifying⟩ :=
  ⟨h, x, hx, rfl⟩

/-- A characteristic shows one thing. -/
theorem Shows.unique {σ : State} {c : ℕ} {cell cell' : Cell} (h : Shows σ c cell)
    (h' : Shows σ c cell') : cell = cell' := by
  obtain ⟨x, hx, hflag⟩ := h.notifying
  obtain ⟨x', hx', hflag'⟩ := h'.notifying
  obtain rfl : x = x' := by simpa using hx.symm.trans hx'
  obtain ⟨bytes, flag⟩ := cell
  obtain ⟨bytes', flag'⟩ := cell'
  rw [Cell.mk.injEq]
  exact ⟨h.holds.unique h'.holds, hflag.symm.trans hflag'⟩

/-- A characteristic shows the same as long as its fields and its buffer stay. -/
theorem Shows.congr {σ σ' : State} {c : ℕ} {cell : Cell} (h : Shows σ c cell)
    (x' : Characteristic) (hx' : σ'.characteristic c = .ok x')
    (hfields : ∀ x, σ.characteristic c = .ok x →
      x'.content = x.content ∧ x'.notifying = x.notifying ∧
        ∀ id a, x.value = .block id a → id ∈ σ.buffers.live → id ∈ σ'.buffers.live) :
    Shows σ' c cell := by
  obtain ⟨⟨x, hx, hsize, hvalue⟩, x₁, hx₁, hflag⟩ := h
  obtain rfl : x = x₁ := by simpa using hx.symm.trans hx₁
  obtain ⟨hcontent, hnotifying, hlive⟩ := hfields x hx
  rw [Characteristic.content, Characteristic.content, Prod.mk.injEq] at hcontent
  refine ⟨⟨x', hx', by rw [hcontent.2, hsize], ?_⟩, x', hx', hnotifying.trans hflag⟩
  rw [hcontent.1]
  rcases hvalue with hnull | ⟨id, hid, hblock⟩
  · exact Or.inl hnull
  · exact Or.inr ⟨id, hlive id _ hblock hid, hblock⟩

/-- A change of one characteristic leaves what the others show. -/
theorem Shows.of_ne {σ : State} {e : ℕ} {cell : Cell} (h : Shows σ e cell) {c : ℕ} (he : e ≠ c)
    {buffers : Heap Bytes} (hlive : ∀ id a, σ.valueSlot (.characteristic e) = .block id a →
      id ∈ σ.buffers.live → id ∈ buffers.live) (g : Characteristic → Characteristic) :
    Shows { σ with buffers, characteristics := σ.characteristics.modify c g } e cell := by
  obtain ⟨y, hy, -⟩ := h.notifying
  obtain ⟨hfin, hget⟩ := State.characteristic_eq_ok.mp hy
  refine h.congr y (State.characteristic_eq_ok.mpr ⟨hfin, ?_⟩) fun z hz => ?_
  · rw [← hget]
    exact List.getElem?_modify_ne _ _ he.symm
  · obtain rfl : y = z := by simpa using hy.symm.trans hz
    exact ⟨rfl, rfl, fun id a hblock =>
      hlive id a ((State.valueSlot_characteristic hget).trans hblock)⟩

namespace Effect

variable {σ σ₁ σ' : State} {c : ℕ} {cell : Cell}

theorem refl (h : Shows σ c cell) : Effect σ σ c cell [] :=
  ⟨.refl σ, rfl, (List.append_nil _).symm, h, fun _ _ _ he => he⟩

theorem trans {cell₁ : Cell} {m₁ m₂ : List Message} (h₁ : Effect σ σ₁ c cell₁ m₁)
    (h₂ : Effect σ₁ σ' c cell m₂) : Effect σ σ' c cell (m₁ ++ m₂) where
  frame := h₁.frame.trans h₂.frame
  fails := h₂.fails.trans h₁.fails
  sent := by rw [h₂.sent, h₁.sent, List.append_assoc]
  shows := h₂.shows
  others e cell he h := h₂.others e cell he (h₁.others e cell he h)

/-- Sending a message. -/
theorem send (h : Shows σ c cell) (message : Message) :
    Effect σ { σ with bus := dbusConnectionSend σ.bus message } c cell [message] := by
  have hkeep : ∀ e cell, Shows σ e cell →
      Shows { σ with bus := dbusConnectionSend σ.bus message } e cell := fun e cell he => by
    obtain ⟨x, hx, -⟩ := he.notifying
    exact he.congr x hx fun y hy => by
      obtain rfl : x = y := by simpa using hx.symm.trans hy
      exact ⟨rfl, rfl, fun _ _ _ hid => hid⟩
  exact ⟨.send σ message, rfl, rfl, hkeep c cell h, fun e cell _ he => hkeep e cell he⟩

/-- Using buffers that are not those of values. -/
theorem buffers (h : Shows σ c cell) {buffers : Heap Bytes}
    (hframe : ValueFrame σ { σ with buffers }) (hfails : buffers.fails = σ.buffers.fails)
    (hlive : ∀ o id a, σ.valueSlot o = .block id a → id ∈ σ.buffers.live → id ∈ buffers.live) :
    Effect σ { σ with buffers } c cell [] := by
  have hkeep : ∀ e cell, Shows σ e cell → Shows { σ with buffers } e cell := fun e cell he => by
    obtain ⟨x, hx, -⟩ := he.notifying
    exact he.congr x hx fun y hy => by
      obtain rfl : x = y := by simpa using hx.symm.trans hy
      refine ⟨rfl, rfl, fun id a hvalue hid => hlive (.characteristic e) id a ?_ hid⟩
      exact (State.valueSlot_characteristic (State.characteristic_eq_ok.mp hx).2).trans hvalue
  exact ⟨hframe, hfails, (List.append_nil _).symm, hkeep c cell h, fun e cell _ he =>
    hkeep e cell he⟩

/-- Storing a value: only what `c` holds changes. -/
theorem stores (hinv : ValuesInv σ) (h : Shows σ c cell) {data : Bytes} {size : UInt32}
    (hstores : Stores c data size σ σ') {bytes : Bytes} (hholds : Holds σ' c bytes) :
    Effect σ σ' c ⟨bytes, cell.notifying⟩ [] := by
  have hframe := hstores.frame
  obtain ⟨x, value, valueSize, buffers, hx, rfl, hfails, -, hlive, -⟩ := hstores.fields
  obtain ⟨hfin, hget⟩ := State.characteristic_eq_ok.mp hx
  refine ⟨hframe, hfails, (List.append_nil _).symm, ⟨hholds, ?_⟩, fun e cell' he hshows => ?_⟩
  · obtain ⟨y, hy, hflag⟩ := h.notifying
    obtain rfl : x = y := by simpa using hx.symm.trans hy
    exact ⟨_, State.characteristic_modify _ hx rfl rfl, hflag⟩
  · refine hshows.of_ne he (fun id a hblock hid => hlive id hid fun hsame => he ?_) _
    -- two characteristics never share a buffer
    obtain ⟨b, hb⟩ : ∃ b, x.value = .block id b := by
      cases hxv : x.value <;> simp_all [Ptr.id?]
    have howns := hinv.owns.distinct (.characteristic e) (.characteristic c) id a b hblock
      ((State.valueSlot_characteristic hget).trans hb)
    simpa using howns

/-- Switching notifications on or off. -/
theorem setNotifying (h : Shows σ c cell) (notifying : Bool)
    (hset : characteristicSetNotifying c notifying σ = .ok σ') :
    Effect σ σ' c ⟨cell.bytes, notifying⟩ [] := by
  have hframe := characteristicSetNotifying_frame hset
  obtain ⟨x, hx, hset⟩ := bind_eq_ok.mp hset
  cases hset
  refine ⟨hframe, rfl, (List.append_nil _).symm, ⟨?_, ?_⟩, fun e cell' he hshows => ?_⟩
  · obtain ⟨y, hy, hsize, hvalue⟩ := h.holds
    obtain rfl : x = y := by simpa using hx.symm.trans hy
    exact ⟨_, State.characteristic_modify _ hx rfl rfl, hsize, hvalue⟩
  · exact ⟨_, State.characteristic_modify _ hx rfl rfl, rfl⟩
  · exact hshows.of_ne he (fun _ _ _ hid => hid) _

end Effect

/-! ## Updating a value -/

/-- The signal that tells a new value. -/
def valueSignal (path : CStr) (bytes : Bytes) : Message :=
  propertiesChangedMessage path bluezGattCharacteristicInterface
    [propertyEntry blePropertyValue ['a', 'y'] (.byteArray bytes)]

/-- The signals due when a cell comes to hold `bytes`: one if this is a change and changes are
notified. -/
def Cell.signals (cell : Cell) (path : CStr) (bytes : Bytes) : List Message :=
  if cell.notifying ∧ bytes ≠ cell.bytes then [valueSignal path bytes] else []

/-- A signal about a value can be sent: the characteristic has an object path that has not been
freed and is valid, and the value fits into an array. -/
def Sendable (strings : Heap CStr) (x : Characteristic) (bytes : Bytes) : Prop :=
  (∃ path, strings.PointsTo x.node.objectPath path ∧ isObjectPath path = true) ∧
    bytes.length ≤ dbusMaximumArrayLength

section ValueSignal

variable {strings : Heap CStr} {field : Ptr CStr} {path : CStr} {bus : Connection}
  {get : Iter → Writer → Outcome Writer}

/-- The signal that tells a value which is written. -/
theorem sendValueSignal_eq (hpath : libraryPath strings field = .ok path)
    (hmemory : bus.outOfMemory = false) {bytes : Bytes} (hget : Writes get (.byteArray bytes)) :
    dbusutilsSendObjectPropertiesChangedSignal strings field bluezGattCharacteristicInterface
      [⟨blePropertyValue, ['a', 'y'], get⟩] bus
        = .ok (dbusConnectionSend bus (valueSignal path bytes)) := by
  have hname : validUtf8 blePropertyValue = true := by decide
  have hinterface : validUtf8 bluezGattCharacteristicInterface = true := by decide
  refine dbusutilsSendObjectPropertiesChangedSignal_eq hpath hinterface hmemory
    (.cons hget .nil) ?_
  -- the entry holds no text but the name of the property
  simp only [tableEntries, List.zipWith_cons_cons, List.zipWith_nil_left, propertyEntry,
    DBusValue.validTextsAll, DBusValue.validTexts, hname, DBusValue.validTexts_byteArray,
    Bool.and_self]

/-- A signal without a path to read, or about a value that is not written, has no outcome. -/
theorem sendValueSignal_fails (h : (∀ path, libraryPath strings field ≠ .ok path) ∨
      bus.outOfMemory = false ∧ Fails get) :
    ∃ e, dbusutilsSendObjectPropertiesChangedSignal strings field
      bluezGattCharacteristicInterface [⟨blePropertyValue, ['a', 'y'], get⟩] bus = .error e := by
  by_cases hpath : ∃ path, libraryPath strings field = .ok path
  · obtain ⟨path, hpath⟩ := hpath
    obtain ⟨hmemory, hfails⟩ := h.resolve_left fun hnone => hnone path hpath
    have hinterface : validUtf8 bluezGattCharacteristicInterface = true := by decide
    exact dbusutilsSendObjectPropertiesChangedSignal_fails hpath hinterface hmemory
      (dbusutilsGetObjectPropertyData_fails .nil ⟨_, _, _⟩ [] hfails)
  · exact dbusutilsSendObjectPropertiesChangedSignal_noPath
      (fun path hread => hpath ⟨path, hread⟩) _ _ _

end ValueSignal

section Getter

variable {σ : State} {c : ℕ} {x : Characteristic} {bytes : Bytes} (h : Holds σ c bytes)
  (hx : σ.characteristic c = .ok x)
include h hx

theorem characteristicGetValue_writes (hmax : bytes.length ≤ dbusMaximumArrayLength) :
    Writes (characteristicGetValue σ x) (.byteArray bytes) := by
  obtain ⟨hsize, htake⟩ := ValuesInv.read_take hx h
  have hdata : x.valueSize.toNat ≤ (σ.buffers.read x.value).length := by
    have := congrArg List.length htake
    rw [List.length_take] at this
    omega
  rw [← htake]
  exact appendValue_writes (hsize ▸ hmax) hdata

theorem characteristicGetValue_fails (hmax : dbusMaximumArrayLength < bytes.length) :
    Fails (characteristicGetValue σ x) :=
  appendValue_fails ((ValuesInv.read_take hx h).1 ▸ hmax)

/-- `is_new_value` finds out whether the bytes differ. -/
theorem isNewValue_eq {newValue : Bytes} {size : UInt32} (hfits : size.toNat ≤ newValue.length) :
    isNewValue σ x newValue size = true ↔ newValue.take size.toNat ≠ bytes := by
  obtain ⟨hsize, htake⟩ := ValuesInv.read_take hx h
  by_cases hlength : x.valueSize = size
  · subst hlength
    simp [isNewValue, htake]
  · have hne : newValue.take size.toNat ≠ bytes := by
      intro heq
      have := congrArg List.length heq
      rw [List.length_take, Nat.min_eq_left hfits, ← hsize] at this
      exact hlength (UInt32.toNat_inj.mp this.symm)
    simp [isNewValue, hlength, hne]

end Getter

/-- What comes to be stored of a value: nothing if the request for its buffer fails. -/
def State.stored (σ : State) (bytes : Bytes) : Bytes := if σ.buffers.Grants 1 then bytes else []

theorem State.stored_of_neverFails {σ : State} (hf : σ.buffers.NeverFails) (bytes : Bytes) :
    σ.stored bytes = bytes := if_pos (hf.grants 1)

section Update

variable {σ : State} {c : ℕ} {x : Characteristic} {cell : Cell} {newValue : Bytes}

/-- A value that is there can be stored, if there is memory for it. -/
theorem characteristicSetValue_holds {size : UInt32} (hx : σ.characteristic c = .ok x)
    (hfits : size.toNat ≤ newValue.length) :
    ∃ σ', characteristicSetValue c (some newValue) size σ = .ok σ' ∧
      Holds σ' c (σ.stored (newValue.take size.toNat)) := by
  simp only [characteristicSetValue, hx, ok_bind, Heap.tryAlloc_eq_null, Heap.grants_free, hfits,
    ↓reduceIte]
  by_cases hgrants : σ.buffers.Grants 1
  · have hnull : ((σ.buffers.free x.value).tryAlloc (newValue.take size.toNat)).1 ≠ .null :=
      fun hnull => Heap.tryAlloc_eq_null.mp hnull ((Heap.grants_free _ _ _).mpr hgrants)
    obtain ⟨id, hid, -, hp⟩ := (Heap.tryAlloc_cases _ _).resolve_left hnull
    rw [if_neg (not_not.mpr hgrants), State.stored, if_pos hgrants]
    refine ⟨_, rfl, _, State.characteristic_modify _ hx rfl rfl, ?_, Or.inr ⟨id, hid, hp⟩⟩
    rw [List.length_take, Nat.min_eq_left hfits]
  · rw [if_pos hgrants, State.stored, if_neg hgrants]
    exact ⟨_, rfl, _, State.characteristic_modify _ hx rfl rfl, rfl, Or.inl ⟨rfl, rfl⟩⟩

variable (hinv : ValuesInv σ)
include hinv

/-- Storing a value that is there. -/
theorem characteristicSetValue_effect {size : UInt32} (h : Shows σ c cell)
    (hfits : size.toNat ≤ newValue.length) :
    ∃ σ', characteristicSetValue c (some newValue) size σ = .ok σ' ∧
      Effect σ σ' c ⟨σ.stored (newValue.take size.toNat), cell.notifying⟩ [] := by
  obtain ⟨x, hx, -⟩ := h.notifying
  obtain ⟨σ', hset, hholds⟩ := characteristicSetValue_holds hx hfits
  exact ⟨σ', hset, .stores hinv h (characteristicSetValue_stores hset) hholds⟩

variable (hx : σ.characteristic c = .ok x) (h : Shows σ c cell) {dataSize : ℕ}
  (hfits : dataSize ≤ newValue.length)
include hx h hfits

/-- An update that changes the bytes stores them and then turns to the signal. -/
theorem characteristicUpdateValue_changed {bytes : Bytes}
    (hbytes : newValue.take (UInt32.ofNat dataSize).toNat = bytes) (hne : bytes ≠ cell.bytes) :
    ∃ σ₁ x₁, Effect σ σ₁ c ⟨σ.stored bytes, cell.notifying⟩ [] ∧
      σ₁.characteristic c = .ok x₁ ∧ characteristicUpdateValue c newValue dataSize σ =
        if cell.notifying then do
          let bus ← dbusutilsSendObjectPropertiesChangedSignal σ.strings x.node.objectPath
            bluezGattCharacteristicInterface
            [⟨blePropertyValue, ['a', 'y'], characteristicGetValue σ₁ x₁⟩] σ₁.bus
          .ok { σ₁ with bus }
        else .ok σ₁ := by
  have hsize : (UInt32.ofNat dataSize).toNat ≤ newValue.length := toNat_ofNat_le hfits
  have hnew := isNewValue_eq h.holds hx hsize
  rw [hbytes] at hnew
  obtain ⟨σ₁, hset, heffect⟩ := characteristicSetValue_effect hinv h hsize
  rw [hbytes] at heffect
  obtain ⟨x₁, hx₁, hnode⟩ := heffect.frame.characteristic hx
  -- the flag is read again after the value has been stored
  have hflag : x₁.notifying = cell.notifying := by
    obtain ⟨y, hy, hflag⟩ := heffect.shows.notifying
    obtain rfl : x₁ = y := by simpa using hx₁.symm.trans hy
    exact hflag
  refine ⟨σ₁, x₁, heffect, hx₁, ?_⟩
  simp only [characteristicUpdateValue, hx, ok_bind, hnew.mpr hne, Bool.not_true,
    Bool.false_eq_true, ↓reduceIte, hset, hx₁, hflag, hnode, heffect.frame.strings]

variable (hf : σ.buffers.NeverFails) (hmemory : σ.bus.outOfMemory = false)
include hf hmemory

/-- An update of a value stores its bytes, cut off where the length is, and sends the signal
due. -/
theorem characteristicUpdateValue_effect {bytes : Bytes}
    (hbytes : newValue.take (UInt32.ofNat dataSize).toNat = bytes)
    (hsend : cell.notifying = true → bytes ≠ cell.bytes → Sendable σ.strings x bytes) :
    ∃ σ', characteristicUpdateValue c newValue dataSize σ = .ok σ' ∧
      Effect σ σ' c ⟨bytes, cell.notifying⟩
        (cell.signals (σ.strings.read x.node.objectPath) bytes) := by
  by_cases hsame : bytes = cell.bytes
  · -- the bytes are those that are stored already
    have hsize : (UInt32.ofNat dataSize).toNat ≤ newValue.length := toNat_ofNat_le hfits
    have hnew := isNewValue_eq h.holds hx hsize
    rw [hbytes] at hnew
    have hskip : isNewValue σ x newValue (UInt32.ofNat dataSize) = false := by
      simpa [hsame] using hnew
    have hsignals : cell.signals (σ.strings.read x.node.objectPath) bytes = [] := by
      simp [Cell.signals, hsame]
    rw [hsignals, hsame]
    exact ⟨σ, by simp [characteristicUpdateValue, hx, hskip], .refl h⟩
  · obtain ⟨σ₁, x₁, heffect, hx₁, hrun⟩ :=
      characteristicUpdateValue_changed hinv hx h hfits hbytes hsame
    rw [State.stored_of_neverFails hf] at heffect
    rw [hrun]
    cases hnotifying : cell.notifying with
    | false =>
      rw [hnotifying] at heffect
      have hsignals : cell.signals (σ.strings.read x.node.objectPath) bytes = [] := by
        simp [Cell.signals, hnotifying]
      rw [hsignals]
      exact ⟨σ₁, rfl, heffect⟩
    | true =>
      obtain ⟨⟨path, hpoints, hvalid⟩, hmax⟩ := hsend hnotifying hsame
      have hpath := libraryPath_eq_ok.mpr ⟨hpoints, hvalid⟩
      have hwrites := characteristicGetValue_writes heffect.shows.holds hx₁ hmax
      have hsignals : cell.signals (σ.strings.read x.node.objectPath) bytes
          = [valueSignal (σ.strings.read x.node.objectPath) bytes] := by
        simp [Cell.signals, hnotifying, hsame]
      have hbus : σ₁.bus.outOfMemory = false := heffect.frame.outOfMemory.trans hmemory
      rw [hsignals, if_pos rfl, sendValueSignal_eq hpath hbus hwrites, hpoints.read]
      rw [hnotifying] at heffect
      exact ⟨_, rfl, heffect.trans (.send heffect.shows _)⟩

/-- An update that would have to send a signal that cannot be sent is undefined. -/
theorem characteristicUpdateValue_fails {bytes : Bytes}
    (hbytes : newValue.take (UInt32.ofNat dataSize).toNat = bytes)
    (hnotifying : cell.notifying = true) (hne : bytes ≠ cell.bytes)
    (hsend : ¬ Sendable σ.strings x bytes) :
    ∃ e, characteristicUpdateValue c newValue dataSize σ = .error e := by
  obtain ⟨σ₁, x₁, heffect, hx₁, hrun⟩ :=
    characteristicUpdateValue_changed hinv hx h hfits hbytes hne
  rw [State.stored_of_neverFails hf] at heffect
  rw [hrun, if_pos hnotifying]
  have hbus : σ₁.bus.outOfMemory = false := heffect.frame.outOfMemory.trans hmemory
  -- the path of the signal cannot be read, or its value is too long
  have hcause : (∀ path, libraryPath σ.strings x.node.objectPath ≠ .ok path) ∨
      σ₁.bus.outOfMemory = false ∧ Fails (characteristicGetValue σ₁ x₁) := by
    by_cases hmax : bytes.length ≤ dbusMaximumArrayLength
    · exact Or.inl fun path hpath => hsend ⟨⟨path, libraryPath_eq_ok.mp hpath⟩, hmax⟩
    · exact Or.inr ⟨hbus, characteristicGetValue_fails heffect.shows.holds hx₁ (Nat.not_le.mp hmax)⟩
  obtain ⟨e, he⟩ := sendValueSignal_fails hcause
  exact ⟨e, by rw [he, error_bind]⟩

end Update

/-! ## `setValue` -/

/-- What is stored of an encoding: the length is narrowed to 32 bits. -/
def narrowed (bytes : Bytes) : Bytes := bytes.take (UInt32.ofNat bytes.length).toNat

theorem narrowed_of_lt {bytes : Bytes} (h : bytes.length < 2 ^ 32) : narrowed bytes = bytes := by
  rw [narrowed, UInt32.toNat_ofNat', Nat.mod_eq_of_lt h, List.take_length]

theorem narrowed_ne {bytes : Bytes} (h : 2 ^ 32 ≤ bytes.length) : narrowed bytes ≠ bytes := by
  intro heq
  have hlt := UInt32.toNat_lt (UInt32.ofNat bytes.length)
  have hlength := congrArg List.length heq
  rw [narrowed, List.length_take] at hlength
  omega

section SetValue

variable {σ : State} {c : ℕ} {cell : Cell} {v t : LuaValue} {type : UInt32}

/-- An invalid data type raises an error. -/
theorem luaiCharacteristicSetValue_raise (ht : luaiCheckTypeBleDataType t = .raise) :
    luaiCharacteristicSetValue c v t σ = .ok (.raise, σ) := by
  simp [luaiCharacteristicSetValue, ht]

variable (hf : σ.buffers.NeverFails) (ht : luaiCheckTypeBleDataType t = .ret type)
include hf ht

/-- A value that overruns its block is undefined. -/
theorem luaiCharacteristicSetValue_overruns (hover : overruns type v = true) :
    luaiCharacteristicSetValue c v t σ = .error .outOfBlock := by
  simp [luaiCharacteristicSetValue, ht, luaiConvert_overruns hf hover]

variable (hsafe : overruns type v = false) (h : Shows σ c cell)
include hsafe h

/-- A value the data type does not take is refused, and nothing changes. -/
theorem luaiCharacteristicSetValue_refused (hnone : convertedBytes type v = none) :
    ∃ exit σ', luaiCharacteristicSetValue c v t σ = .ok (exit, σ') ∧
      (exit = .raise ∨ exit = .ret false) ∧ σ'.characteristics = σ.characteristics ∧
      Effect σ σ' c cell [] := by
  have hconv := luaiConvert_converts hf hsafe
  rw [hnone] at hconv
  obtain ⟨exit, buffers, hrun, hext, hexit⟩ := hconv
  have heffect : Effect σ { σ with buffers } c cell [] :=
    .buffers h (.extend hext) hext.fails fun _ id _ _ hid => hext.live id hid
  rcases hexit with rfl | rfl
  · refine ⟨.raise, { σ with buffers }, ?_, Or.inl rfl, rfl, heffect⟩
    simp only [luaiCharacteristicSetValue, ht, hrun, ok_bind]
  · refine ⟨.ret false, { σ with buffers }, ?_, Or.inr rfl, rfl, heffect⟩
    simp only [luaiCharacteristicSetValue, ht, hrun, ok_bind]

variable (hinv : ValuesInv σ) (hmemory : σ.bus.outOfMemory = false) {x : Characteristic}
  (hx : σ.characteristic c = .ok x) {bytes : Bytes} (hsome : convertedBytes type v = some bytes)
include hinv hmemory hx hsome

/-- A value the data type takes is stored and told to the subscribers. -/
theorem luaiCharacteristicSetValue_stored
    (hsend : cell.notifying = true → narrowed bytes ≠ cell.bytes →
      Sendable σ.strings x (narrowed bytes)) :
    ∃ σ', luaiCharacteristicSetValue c v t σ = .ok (.ret true, σ') ∧
      Effect σ σ' c ⟨narrowed bytes, cell.notifying⟩
        (cell.signals (σ.strings.read x.node.objectPath) (narrowed bytes)) := by
  have hconv := luaiConvert_converts hf hsafe
  rw [hsome] at hconv
  obtain ⟨⟨data, dataSize⟩, buffers, hrun, hext, hnew, rfl : dataSize = bytes.length⟩ := hconv
  have h₁ : Effect σ { σ with buffers } c cell [] :=
    .buffers h (.extend hext) hext.fails fun _ id _ _ hid => hext.live id hid
  obtain ⟨σ₂, hupdate, h₂⟩ := characteristicUpdateValue_effect (h₁.frame.values hinv)
    (show ({ σ with buffers } : State).characteristic c = .ok x from hx) h₁.shows
    (Nat.le_refl bytes.length) (hext.neverFails hf) hmemory rfl hsend
  have hunused := unused_of_new hinv hnew hupdate
  -- the temporary buffer is released at the end
  have h₃ : Effect σ₂ { σ₂ with buffers := σ₂.buffers.free data } c
      ⟨narrowed bytes, cell.notifying⟩ [] :=
    .buffers h₂.shows ⟨⟨_, _, _, rfl⟩, rfl, fun hinv₂ => hinv₂.same (hinv₂.owns.release hunused)
      (((Heap.invalidFrees_free_iff _ _).mpr (freeable_of_new hinv hnew hupdate)).trans hinv₂.frees)
      rfl rfl⟩ (Heap.free_fails _ _) fun o id a ho hid => Heap.mem_live_free hid (hunused o id a ho)
  have heffect := (h₁.trans h₂).trans h₃
  rw [List.nil_append, List.append_nil] at heffect
  refine ⟨_, ?_, heffect⟩
  have hread : buffers.read data = bytes := hnew.read
  simp only [luaiCharacteristicSetValue, ht, hrun, ok_bind, hread, hupdate]

/-- When the subscribers cannot be told, the result is undefined. -/
theorem luaiCharacteristicSetValue_fails (hnotifying : cell.notifying = true)
    (hne : narrowed bytes ≠ cell.bytes) (hsend : ¬ Sendable σ.strings x (narrowed bytes)) :
    ∃ e, luaiCharacteristicSetValue c v t σ = .error e := by
  have hconv := luaiConvert_converts hf hsafe
  rw [hsome] at hconv
  obtain ⟨⟨data, dataSize⟩, buffers, hrun, hext, hnew, rfl : dataSize = bytes.length⟩ := hconv
  have h₁ : Effect σ { σ with buffers } c cell [] :=
    .buffers h (.extend hext) hext.fails fun _ id _ _ hid => hext.live id hid
  obtain ⟨e, hupdate⟩ := characteristicUpdateValue_fails (h₁.frame.values hinv)
    (show ({ σ with buffers } : State).characteristic c = .ok x from hx) h₁.shows
    (Nat.le_refl bytes.length) (hext.neverFails hf) hmemory rfl hnotifying hne hsend
  have hread : buffers.read data = bytes := hnew.read
  refine ⟨e, ?_⟩
  simp only [luaiCharacteristicSetValue, ht, hrun, ok_bind, hread, hupdate, error_bind]

end SetValue

/-- `setValue` does what it is for: it returns true exactly for the values the data type takes and
then stores their encoding; in every other case it leaves the characteristic as it was. -/
def SetValueMeets (σ : State) (c : ℕ) (v t : LuaValue) (type : BleDataType) : Prop :=
  ∃ exit σ', luaiCharacteristicSetValue c v t σ = .ok (exit, σ') ∧
    if acceptsValue type v then exit = .ret true ∧ Holds σ' c (encodeValue type v)
    else (exit = .ret false ∨ exit = .raise) ∧ σ'.characteristics = σ.characteristics ∧
      ∀ bytes, Holds σ c bytes → Holds σ' c bytes

theorem acceptsValue_string (v : LuaValue) : acceptsValue .string v = v.isString := by
  cases v <;> simp [acceptsValue, acceptsScalar, LuaValue.isString, BleDataType.isNumeric]

theorem convertedBytes_code (type : BleDataType) (v : LuaValue) :
    convertedBytes type.code v =
      if acceptsValue type v ∧ type ≠ .string then some (encodeValue type v) else none := by
  simp only [convertedBytes, BleDataType.ofCode_code]

theorem overruns_code (type : BleDataType) (v : LuaValue) :
    overruns type.code v = convertsInt32 type v := by
  simp only [overruns, BleDataType.ofCode_code]

section Meets

variable {σ : State} {c : ℕ} {x : Characteristic} {v t : LuaValue} {type : BleDataType}
  (hinv : ValuesInv σ) (hf : σ.buffers.NeverFails) (hmemory : σ.bus.outOfMemory = false)
  (hx : σ.characteristic c = .ok x) (ht : luaiCheckTypeBleDataType t = .ret type.code)

/-- A value that is taken and is no string for `STRING` is converted to its encoding. -/
theorem convertedBytes_of_accepted (hstring : ¬ (type = .string ∧ v.isString = true))
    (haccepts : acceptsValue type v = true) :
    convertedBytes type.code v = some (encodeValue type v) := by
  have hne : type ≠ .string := by
    intro htype
    subst htype
    rw [acceptsValue_string] at haccepts
    exact hstring ⟨rfl, haccepts⟩
  rw [convertedBytes_code, if_pos ⟨haccepts, hne⟩]

include hf ht in
theorem SetValueMeets.safe (h : SetValueMeets σ c v t type) : convertsInt32 type v = false := by
  obtain ⟨exit, σ', hrun, -⟩ := h
  by_contra hover
  rw [Bool.not_eq_false, ← overruns_code] at hover
  rw [luaiCharacteristicSetValue_overruns hf ht hover] at hrun
  cases hrun

include hinv hf hx ht in
/-- A string is refused as `STRING`, although it should be taken. -/
theorem SetValueMeets.not_string (h : SetValueMeets σ c v t type) :
    ¬ (type = .string ∧ v.isString = true) := by
  have hsafe := (overruns_code type v).trans (h.safe hf ht)
  intro ⟨htype, hv⟩
  subst htype
  have hnone : convertedBytes BleDataType.string.code v = none := by
    rw [convertedBytes_code, if_neg (by simp)]
  obtain ⟨old, hold⟩ := hinv.holds hx
  obtain ⟨exit, σ', hrun, hmeets⟩ := h
  obtain ⟨exit', σ₁, hrun', hexit, -⟩ :=
    luaiCharacteristicSetValue_refused hf ht hsafe (hold.shows hx) hnone
  rw [acceptsValue_string, if_pos hv] at hmeets
  rw [hmeets.1] at hrun
  cases hrun.symm.trans hrun'
  simp at hexit

include hinv hf hmemory hx ht in
/-- An encoding that is stored has a size of 32 bits, and can be told if it has to be. -/
theorem SetValueMeets.fits (h : SetValueMeets σ c v t type)
    (haccepts : acceptsValue type v = true) :
    (encodeValue type v).length < 2 ^ 32 ∧
      (x.notifying = true → ¬ Holds σ c (encodeValue type v) →
        Sendable σ.strings x (encodeValue type v)) := by
  have hsafe := (overruns_code type v).trans (h.safe hf ht)
  have hsome := convertedBytes_of_accepted (h.not_string hinv hf hx ht) haccepts
  obtain ⟨old, hold⟩ := hinv.holds hx
  obtain ⟨exit, σ', hrun, hmeets⟩ := h
  rw [if_pos haccepts] at hmeets
  by_cases hsend : x.notifying = true → narrowed (encodeValue type v) ≠ old →
      Sendable σ.strings x (narrowed (encodeValue type v))
  · obtain ⟨σ₁, hrun', heffect⟩ := luaiCharacteristicSetValue_stored hf ht hsafe (hold.shows hx)
      hinv hmemory hx hsome hsend
    cases hrun.symm.trans hrun'
    -- what is stored has been cut off, and it is the whole encoding
    have heq : narrowed (encodeValue type v) = encodeValue type v :=
      heffect.shows.holds.unique hmeets.2
    constructor
    · apply Nat.not_le.mp
      intro hle
      exact narrowed_ne hle heq
    · intro hnotifying hne
      rw [heq] at hsend
      apply hsend hnotifying
      intro hsame
      exact hne (hsame ▸ hold)
  · -- a value that cannot be told has no outcome
    simp only [Classical.not_imp] at hsend
    obtain ⟨hnotifying, hne, hsend⟩ := hsend
    obtain ⟨e, he⟩ := luaiCharacteristicSetValue_fails hf ht hsafe (hold.shows hx) hinv hmemory hx
      hsome hnotifying hne hsend
    rw [he] at hrun
    cases hrun

include hinv hf hmemory hx ht in
/-- A value that is taken is stored if its encoding fits and can be told. -/
theorem setValueMeets_accepted (hstring : ¬ (type = .string ∧ v.isString = true))
    (hint32 : convertsInt32 type v = false) (haccepts : acceptsValue type v = true)
    (hlt : (encodeValue type v).length < 2 ^ 32)
    (hsend : x.notifying = true → ¬ Holds σ c (encodeValue type v) →
      Sendable σ.strings x (encodeValue type v)) : SetValueMeets σ c v t type := by
  have hsome := convertedBytes_of_accepted hstring haccepts
  have hnarrowed := narrowed_of_lt hlt
  obtain ⟨old, hold⟩ := hinv.holds hx
  obtain ⟨σ', hrun, heffect⟩ := luaiCharacteristicSetValue_stored hf ht
    ((overruns_code type v).trans hint32) (hold.shows hx) hinv hmemory hx hsome
    fun hnotifying hne => by
      rw [hnarrowed] at hne ⊢
      exact hsend hnotifying fun hsame => hne (hsame.unique hold)
  refine ⟨.ret true, σ', hrun, ?_⟩
  rw [if_pos haccepts, ← hnarrowed]
  exact ⟨rfl, heffect.shows.holds⟩

include hinv hf hx ht in
/-- A value that is not taken is refused, and nothing changes. -/
theorem setValueMeets_refused (hint32 : convertsInt32 type v = false)
    (haccepts : acceptsValue type v = false) : SetValueMeets σ c v t type := by
  have hnone : convertedBytes type.code v = none := by
    rw [convertedBytes_code, if_neg (by simp [haccepts])]
  obtain ⟨old, hold⟩ := hinv.holds hx
  obtain ⟨exit, σ', hrun, hexit, hsame, heffect⟩ := luaiCharacteristicSetValue_refused hf ht
    ((overruns_code type v).trans hint32) (hold.shows hx) hnone
  refine ⟨exit, σ', hrun, ?_⟩
  rw [if_neg (by simp [haccepts])]
  refine ⟨hexit.symm, hsame, ?_⟩
  intro bytes hbytes
  rw [hbytes.unique hold]
  exact heffect.shows.holds

end Meets

/-- `setValue` does what it is for exactly when the value is no string for `STRING`, no number
is converted to `INT32`, and an accepted encoding is shorter than `2 ^ 32` bytes and, if it has to
be told to subscribers, can be. -/
theorem setValue_meets_iff {σ : State} (hreach : Reachable σ) (hf : σ.buffers.NeverFails)
    (hmemory : σ.bus.outOfMemory = false) {c : ℕ} {x : Characteristic}
    (hx : σ.characteristic c = .ok x) {v t : LuaValue} {type : BleDataType}
    (ht : luaiCheckTypeBleDataType t = .ret type.code) :
    SetValueMeets σ c v t type ↔
      ¬ (type = .string ∧ v.isString = true) ∧ convertsInt32 type v = false ∧
        (acceptsValue type v = true → (encodeValue type v).length < 2 ^ 32 ∧
          (x.notifying = true → ¬ Holds σ c (encodeValue type v) →
            Sendable σ.strings x (encodeValue type v))) := by
  have hinv := ValuesInv.of_reachable hreach
  constructor
  · intro h
    exact ⟨h.not_string hinv hf hx ht, h.safe hf ht, h.fits hinv hf hmemory hx ht⟩
  · intro ⟨hstring, hint32, haccepted⟩
    cases haccepts : acceptsValue type v with
    | true =>
      obtain ⟨hlt, hsend⟩ := haccepted haccepts
      exact setValueMeets_accepted hinv hf hmemory hx ht hstring hint32 haccepts hlt hsend
    | false => exact setValueMeets_refused hinv hf hx ht hint32 haccepts

/-- The theorem where a number is stored as `UINT8`. -/
theorem setValue_meets_iff_uint8 :
    SetValueMeets (State.after [.createCharacteristic "2A19".toList]) 0 (.integer 5) (.integer 2)
      .uint8 :=
  (setValue_meets_iff (σ := State.after [.createCharacteristic "2A19".toList])
    (State.reachable_after (by decide) fun _ _ => trivial) (fun _ => rfl) rfl (c := 0) rfl
    (by decide)).mpr
      ⟨by decide, by decide, fun _ => ⟨by decide, fun hnotifying => by cases hnotifying⟩⟩

/-- A string is not stored as `STRING`. -/
theorem setValue_not_meets_string : ¬ ∀ (σ : State) (c : ℕ) (x : Characteristic) (v t : LuaValue)
    (type : BleDataType), Reachable σ → σ.buffers.NeverFails → σ.bus.outOfMemory = false →
      σ.characteristic c = .ok x → luaiCheckTypeBleDataType t = .ret type.code →
      SetValueMeets σ c v t type := by
  intro h
  obtain ⟨exit, σ', hrun, hmeets⟩ := h (State.after [.createCharacteristic "2A19".toList]) 0 _
    (.string [0x68, 0x69]) (.integer 11) .string
    (State.reachable_after (by decide) fun _ _ => trivial) (fun _ => rfl) rfl rfl (by decide)
  have hexit : (luaiCharacteristicSetValue 0 (.string [0x68, 0x69]) (.integer 11)
      (State.after [.createCharacteristic "2A19".toList])).map Prod.fst = .ok (.ret false) := by
    decide
  rw [hrun] at hexit
  rw [if_pos (by decide)] at hmeets
  rw [hmeets.1] at hexit
  cases hexit

end BleSim
