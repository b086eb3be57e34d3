import BleSim.MessageTheorems
import BleSim.ValueCalls

/-!
# Writing a value over D-Bus

A peer can send `WriteValue` with any body. An array of bytes is to be stored as it is and
answered, and everything else is to be answered with an error and to change nothing.
-/

namespace BleSim

open Outcomes WriteOnce DBusValue

/-- The first argument is an array of bytes, and these are its bytes. -/
def Message.Writes (message : Message) (bytes : Bytes) : Prop :=
  ∃ rest, message.body = .byteArray bytes :: rest

/-- An array of bytes is stored and answered with a method return; every other body is answered
with an error and leaves the value as it was. -/
def WriteMeets (σ : State) (c : ℕ) (message : Message) : Prop :=
  ∃ result request σ', dbusutilsObjectHandleMessage (.characteristic c) message σ =
      .ok (result, request, σ') ∧
    (∀ bytes, message.Writes bytes →
      result = .handled ∧ σ'.bus.sent = σ.bus.sent ++ [methodReturn []] ∧ Holds σ' c bytes) ∧
    ((∀ bytes, ¬ message.Writes bytes) →
      AnsweredWithError result σ σ' ∧ ∀ bytes, Holds σ c bytes → Holds σ' c bytes)

/-- A nonempty array of bytes whose length fits and for which, as for the reply, there is memory. -/
def WritesBytes (σ : State) (message : Message) : Prop :=
  ∃ bytes, message.Writes bytes ∧ bytes ≠ [] ∧ bytes.length < 2 ^ 32 ∧ σ.buffers.Grants 1 ∧
    σ.bus.outOfMemory = false

/-- An array of another fixed-size type that is empty, or that writes what is held and has no
memory for the reply. -/
def WritesNothing (σ : State) (c : ℕ) (message : Message) : Prop :=
  ∃ elem items rest, message.body = .array elem items :: rest ∧ isFixedSignature elem = true ∧
    elem ≠ ['y'] ∧ (items = [] ∨
      σ.bus.outOfMemory = true ∧ Holds σ c (σ.stored (writtenBytes items)))

/-- The items of an array of bytes are bytes. -/
theorem DBusValue.WellTyped.eq_byteArray {items : List DBusValue}
    (h : (DBusValue.array ['y'] items).WellTyped) :
    ∃ bytes : Bytes, DBusValue.array ['y'] items = .byteArray bytes := by
  obtain ⟨hsignature, -⟩ : (∀ v ∈ items, v.signature = ['y']) ∧ ∀ v ∈ items, v.WellTyped := by
    cases h with
    | array hsignature htyped => exact ⟨hsignature, htyped⟩
  clear h
  induction items with
  | nil => exact ⟨[], rfl⟩
  | cons v items ih =>
    rw [List.forall_mem_cons] at hsignature
    obtain ⟨bytes, heq⟩ := ih hsignature.2
    obtain ⟨b, rfl⟩ : ∃ b, v = .byte b := by
      have hv := hsignature.1
      cases v with
      | byte b => exact ⟨b, rfl⟩
      | fixed type _ => cases type <;> simp [DBusValue.signature, FixedType.code] at hv
      | otherBasic type => cases type <;> simp [DBusValue.signature, OtherBasicType.code] at hv
      | _ => simp [DBusValue.signature] at hv
    refine ⟨b :: bytes, ?_⟩
    rw [DBusValue.byteArray, List.map_cons]
    rw [DBusValue.byteArray] at heq
    cases heq
    rfl

theorem Message.Writes.unique {message : Message} {bytes bytes' : Bytes}
    (h : message.Writes bytes) (h' : message.Writes bytes') : bytes = bytes' := by
  obtain ⟨rest, hbody⟩ := h
  obtain ⟨rest', hbody'⟩ := h'
  have heq : DBusValue.byteArray bytes = .byteArray bytes' :=
    (List.cons.inj (hbody.symm.trans hbody')).1
  have hitems : bytes.map DBusValue.byte = bytes'.map .byte := (DBusValue.array.inj heq).2
  exact (List.map_injective_iff.mpr fun a b h => DBusValue.byte.inj h) hitems

/-- A method return is no error. -/
theorem not_answeredWithError_of_reply {σ σ' : State} {result : HandlerResult}
    {body : List DBusValue} (hresult : result = .handled)
    (hsent : σ'.bus.sent = σ.bus.sent ++ [methodReturn body]) :
    ¬ AnsweredWithError result σ σ' := by
  rintro (⟨reply, htype, hsent'⟩ | ⟨hleft, -⟩)
  · have hreply : [methodReturn body] = [reply] :=
      List.append_cancel_left (hsent.symm.trans hsent')
    cases hreply
    cases htype
  · rw [hresult] at hleft
    cases hleft

section Meets

variable {σ : State} {c : ℕ} {message : Message}
  (hcall : message.IsCall bluezGattCharacteristicInterface)
  (hmember : message.member = some bluezMethodWriteValue)
include hcall hmember

/-- A body that has no array of a fixed-size type in front is not answered. -/
theorem not_writeMeets_of_misused
    (h : ∀ elem items rest, message.body = .array elem items :: rest →
      isFixedSignature elem = false) : ¬ WriteMeets σ c message := by
  rintro ⟨result, request, σ', hhandle, -⟩
  rw [handle_error hcall (by decide) (find_writeValue hcall hmember)
    (characteristicWriteValue_misused h c σ)] at hhandle
  cases hhandle

variable {x : Characteristic} (hinv : ValuesInv σ) (hx : σ.characteristic c = .ok x)
include hinv hx

/-- An array of bytes: it has to be nonempty, and there has to be memory for value and reply. -/
theorem writeMeets_bytes_iff {bytes : Bytes} (hwrites : message.Writes bytes) :
    WriteMeets σ c message ↔ bytes ≠ [] ∧ bytes.length < 2 ^ 32 ∧ σ.buffers.Grants 1 ∧
      σ.bus.outOfMemory = false := by
  have hbody := hwrites
  obtain ⟨rest, hbody⟩ := hbody
  have hfind := find_writeValue hcall hmember (σ := σ) (c := c)
  by_cases hempty : bytes = []
  · subst hempty
    have hhandle : dbusutilsObjectHandleMessage (.characteristic c) message σ = _ :=
      handle_writeValue_empty hcall hmember hbody
    constructor
    · rintro ⟨result, request, σ', hrun, hstored, -⟩
      cases hhandle.symm.trans hrun
      obtain ⟨hresult, -⟩ := hstored [] hwrites
      cases hresult
    · rintro ⟨hne, -⟩
      exact absurd rfl hne
  obtain ⟨old, hold⟩ := hinv.holds hx
  obtain ⟨σ₁, hwrite, heffect⟩ := characteristicWriteValue_bytes (hold.shows hx) hinv hbody hempty
  have hholds : Holds σ₁ c (σ.stored (narrowed bytes)) := heffect.shows.holds
  have hsent : σ₁.bus.sent = σ.bus.sent := heffect.sent.trans (List.append_nil _)
  cases hmemory : σ.bus.outOfMemory with
  | true =>
    rw [dbusMessageNewMethodReturn, hmemory, if_pos rfl] at hwrite
    have hhandle := handle_no_reply hcall (by decide) hfind hwrite
    constructor
    · rintro ⟨result, request, σ', hrun, hstored, -⟩
      cases hhandle.symm.trans hrun
      obtain ⟨hresult, -⟩ := hstored bytes hwrites
      cases hresult
    · rintro ⟨-, -, -, hfalse⟩
      cases hfalse
  | false =>
    rw [dbusMessageNewMethodReturn, hmemory] at hwrite
    have hhandle := handle_reply hcall (by decide) hfind hwrite
    constructor
    · rintro ⟨result, request, σ', hrun, hstored, -⟩
      cases hhandle.symm.trans hrun
      obtain ⟨-, -, hwhole⟩ := hstored bytes hwrites
      have heq : bytes = σ.stored (narrowed bytes) := hwhole.unique hholds
      rw [State.stored] at heq
      split_ifs at heq with hgrants
      · exact ⟨hempty, Nat.not_le.mp fun hle => narrowed_ne hle heq.symm, hgrants, rfl⟩
      · exact absurd heq hempty
    · rintro ⟨-, hlt, hgrants, -⟩
      rw [State.stored, if_pos hgrants, narrowed_of_lt hlt] at hholds
      refine ⟨_, _, _, hhandle, fun bytes' hwrites' => ?_, fun hnone => ?_⟩
      · obtain rfl := hwrites.unique hwrites'
        exact ⟨rfl, congrArg (· ++ [methodReturn []]) hsent, hholds⟩
      · exact absurd hwrites (hnone bytes)

/-- An array of another fixed-size type is written all the same, unless it is empty. -/
theorem writeMeets_other_iff {elem : Signature} {items rest : List DBusValue}
    (htyped : (DBusValue.array elem items).WellTyped)
    (hbody : message.body = .array elem items :: rest) (hfixed : isFixedSignature elem = true)
    (helem : elem ≠ ['y']) : WriteMeets σ c message ↔
      items = [] ∨ σ.bus.outOfMemory = true ∧ Holds σ c (σ.stored (writtenBytes items)) := by
  have hother : ∀ bytes, ¬ message.Writes bytes := by
    rintro bytes ⟨rest', hbody'⟩
    rw [hbody] at hbody'
    exact helem (DBusValue.array.inj (List.cons.inj hbody').1).1
  have hfind := find_writeValue hcall hmember (σ := σ) (c := c)
  by_cases hempty : items = []
  · subst hempty
    have hhandle := handle_no_reply hcall (by decide) hfind
      (characteristicWriteValue_empty hbody hfixed c σ)
    refine iff_of_true ⟨_, _, _, hhandle, fun bytes hwrites => ?_, fun _ => ?_⟩ (Or.inl rfl)
    · exact absurd hwrites (hother bytes)
    · exact ⟨Or.inr ⟨rfl, rfl⟩, fun _ hholds => hholds⟩
  obtain ⟨old, hold⟩ := hinv.holds hx
  obtain ⟨σ₁, hwrite, heffect⟩ :=
    characteristicWriteValue_effect (hold.shows hx) hinv hbody hfixed htyped hempty
  have hholds : Holds σ₁ c (σ.stored (writtenBytes items)) := heffect.shows.holds
  have hsent : σ₁.bus.sent = σ.bus.sent := heffect.sent.trans (List.append_nil _)
  cases hmemory : σ.bus.outOfMemory with
  | true =>
    rw [dbusMessageNewMethodReturn, hmemory, if_pos rfl] at hwrite
    have hhandle := handle_no_reply hcall (by decide) hfind hwrite
    constructor
    · rintro ⟨result, request, σ', hrun, -, hkept⟩
      cases hhandle.symm.trans hrun
      have hsame : old = σ.stored (writtenBytes items) :=
        ((hkept hother).2 old hold).unique hholds
      exact Or.inr ⟨rfl, hsame ▸ hold⟩
    · rintro (hnil | ⟨-, hsame⟩)
      · exact absurd hnil hempty
      · refine ⟨_, _, _, hhandle, fun bytes hwrites => absurd hwrites (hother bytes), fun _ => ?_⟩
        refine ⟨Or.inr ⟨rfl, hsent⟩, fun bytes hbytes => ?_⟩
        rwa [hbytes.unique hsame]
  | false =>
    rw [dbusMessageNewMethodReturn, hmemory] at hwrite
    have hhandle := handle_reply hcall (by decide) hfind hwrite
    constructor
    · rintro ⟨result, request, σ', hrun, -, hkept⟩
      cases hhandle.symm.trans hrun
      have hreply := congrArg (· ++ [methodReturn []]) hsent
      exact absurd (hkept hother).1 (not_answeredWithError_of_reply rfl hreply)
    · rintro (hnil | ⟨hfalse, -⟩)
      · exact absurd hnil hempty
      · cases hfalse

end Meets

/-- `WriteValue` does what it is for exactly when it is given a nonempty array of bytes, and there
is memory for the value and the reply, or an array of another fixed-size type that changes
nothing. -/
theorem writeMeets_iff {σ : State} (hreach : Reachable σ) {c : ℕ} {x : Characteristic}
    (hx : σ.characteristic c = .ok x) {message : Message}
    (hcall : message.IsCall bluezGattCharacteristicInterface)
    (hmember : message.member = some bluezMethodWriteValue) (htyped : message.WellTyped) :
    WriteMeets σ c message ↔ WritesBytes σ message ∨ WritesNothing σ c message := by
  have hinv := ValuesInv.of_reachable hreach
  by_cases hfixed : ∃ elem items rest, message.body = .array elem items :: rest ∧
      isFixedSignature elem = true
  swap
  · refine iff_of_false (not_writeMeets_of_misused hcall hmember ?_) ?_
    · intro elem items rest hbody
      rw [← Bool.not_eq_true]
      exact fun helem => hfixed ⟨elem, items, rest, hbody, helem⟩
    · rintro (⟨bytes, ⟨rest, hbody⟩, -⟩ | ⟨elem, items, rest, hbody, helem, -⟩)
      · exact hfixed ⟨['y'], _, rest, hbody, rfl⟩
      · exact hfixed ⟨elem, items, rest, hbody, helem⟩
  obtain ⟨elem, items, rest, hbody, hfixed⟩ := hfixed
  have harray : (DBusValue.array elem items).WellTyped :=
    htyped _ (by rw [hbody]; exact List.mem_cons_self)
  by_cases helem : elem = ['y']
  · subst helem
    obtain ⟨bytes, heq⟩ := harray.eq_byteArray
    have hwrites : message.Writes bytes := ⟨rest, by rw [hbody, heq]⟩
    rw [writeMeets_bytes_iff hcall hmember hinv hx hwrites]
    constructor
    · intro ⟨hne, hlt, hgrants, hmemory⟩
      exact Or.inl ⟨bytes, hwrites, hne, hlt, hgrants, hmemory⟩
    · rintro (⟨bytes', hwrites', h⟩ | ⟨elem, items', rest', hbody', -, helem, -⟩)
      · exact hwrites.unique hwrites' ▸ h
      · rw [hbody] at hbody'
        exact absurd (DBusValue.array.inj (List.cons.inj hbody').1).1.symm helem
  · rw [writeMeets_other_iff hcall hmember hinv hx harray hbody hfixed helem]
    constructor
    · intro h
      exact Or.inr ⟨elem, items, rest, hbody, hfixed, helem, h⟩
    · rintro (⟨bytes, ⟨rest', hbody'⟩, -⟩ | ⟨elem', items', rest', hbody', -, -, h⟩)
      · rw [hbody] at hbody'
        exact absurd (DBusValue.array.inj (List.cons.inj hbody').1).1 helem
      · rw [hbody] at hbody'
        obtain ⟨-, rfl⟩ := DBusValue.array.inj (List.cons.inj hbody').1
        exact h

/-- The theorem where one byte is written. -/
theorem writeMeets_iff_one_byte : WriteMeets (State.after oneCharacteristic) 0
    (characteristicCall bluezMethodWriteValue [.byteArray [1]]) :=
  (writeMeets_iff (State.reachable_after (by decide) fun _ _ => trivial) rfl ⟨rfl, rfl⟩ rfl
    (by simpa [characteristicCall, Message.WellTyped] using DBusValue.WellTyped.byteArray [1])).mpr
      (Or.inl ⟨[1], ⟨[], rfl⟩, by decide, by decide, Heap.NeverFails.grants (fun _ => rfl) 1, rfl⟩)

/-- An empty array of bytes is answered with an error. -/
theorem not_writeMeets_empty : ¬ ∀ (σ : State) (c : ℕ) (x : Characteristic) (message : Message),
    Reachable σ → σ.characteristic c = .ok x → message.IsCall bluezGattCharacteristicInterface →
      message.member = some bluezMethodWriteValue → message.WellTyped →
      WriteMeets σ c message := by
  intro h
  have hmeets := h (State.after oneCharacteristic) 0 _
    (characteristicCall bluezMethodWriteValue [.byteArray []])
    (State.reachable_after (by decide) fun _ _ => trivial) rfl ⟨rfl, rfl⟩ rfl
    (by simpa [characteristicCall, Message.WellTyped] using DBusValue.WellTyped.byteArray [])
  obtain ⟨result, request, σ', hrun, hstored, -⟩ := hmeets
  rw [handle_writeValue_empty ⟨rfl, rfl⟩ rfl rfl] at hrun
  cases hrun
  obtain ⟨hresult, -⟩ := hstored [] ⟨[], rfl⟩
  cases hresult

end BleSim
