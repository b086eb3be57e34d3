import BleSim.Calls
import BleSim.Requests

/-!
# Values when memory runs out

What `setValue` and `WriteValue` leave behind, whichever requests for blocks fail, and when what
they report is true.
-/

namespace BleSim

open Outcomes WriteOnce DBusValue

/-! ## Updating a value -/

section Update

variable {σ σ' : State} {c : ℕ} {x : Characteristic} {cell : Cell}

/-- An update that goes through leaves the old bytes, if they are the new ones, or what there is
memory for. -/
theorem characteristicUpdateValue_outcome (hinv : ValuesInv σ) (hx : σ.characteristic c = .ok x)
    (h : Shows σ c cell) (bytes : Bytes)
    (hrun : characteristicUpdateValue c bytes bytes.length σ = .ok σ') :
    ∃ messages, Effect σ σ' c
      ⟨if narrowed bytes = cell.bytes then cell.bytes else σ.stored (narrowed bytes),
        cell.notifying⟩ messages := by
  by_cases hsame : narrowed bytes = cell.bytes
  · have hnew := isNewValue_eq h.holds hx (toNat_ofNat_le (Nat.le_refl bytes.length))
    have hskip : isNewValue σ x bytes (UInt32.ofNat bytes.length) = false := by
      rw [← Bool.not_eq_true, hnew, not_not]
      exact hsame
    simp only [characteristicUpdateValue, hx, ok_bind, hskip, Bool.not_false, ↓reduceIte] at hrun
    cases hrun
    rw [if_pos hsame]
    exact ⟨[], .refl h⟩
  · obtain ⟨σ₁, x₁, heffect, -, hupdate⟩ :=
      characteristicUpdateValue_changed hinv hx h (Nat.le_refl bytes.length) rfl hsame
    rw [hupdate] at hrun
    rw [if_neg hsame]
    simp only [ite_eq_ok] at hrun
    obtain ⟨-, hrun⟩ | ⟨-, hrun⟩ := hrun
    swap
    · cases hrun
      exact ⟨[], heffect⟩
    obtain ⟨bus, hsignal, hrun⟩ := bind_eq_ok.mp hrun
    cases hrun
    obtain hquiet | ⟨path, message, -, -, hsent⟩ :=
      dbusutilsSendObjectPropertiesChangedSignal_cases hsignal
    · subst hquiet
      exact ⟨[], heffect⟩
    · subst hsent
      exact ⟨[message], heffect.trans (.send heffect.shows message)⟩

end Update

/-! ## `setValue` -/

/-- The bytes a value is converted to fit into 32 bits, and they are held already or the request
for their buffer, which comes after those of the conversion, is granted. -/
def StoredWhole (σ : State) (c : ℕ) (v : LuaValue) (bytes : Bytes) : Prop :=
  bytes.length < 2 ^ 32 ∧ (Holds σ c bytes ∨ σ.buffers.Grants (conversionRequests v + 1))

section SetValue

variable {σ σ' : State} {c : ℕ} {x : Characteristic} {cell : Cell} {v t : LuaValue} {type : UInt32}
  (ht : luaiCheckTypeBleDataType t = .ret type)
include ht

/-- A call that does not return true has converted nothing, and changes nothing. -/
theorem luaiCharacteristicSetValue_untrue (h : Shows σ c cell) {exit : LuaExit Bool}
    (hexit : exit ≠ .ret true) (hrun : luaiCharacteristicSetValue c v t σ = .ok (exit, σ')) :
    (convertedBytes type v = none ∨ ¬ σ.buffers.Grants (conversionRequests v)) ∧
      Effect σ σ' c cell [] := by
  simp only [luaiCharacteristicSetValue, ht] at hrun
  obtain ⟨⟨exit₁, buffers⟩, hconvert, hrun⟩ := bind_eq_ok.mp hrun
  have hok := luaiConvert_ok hconvert
  have heffect : Effect σ { σ with buffers } c cell [] :=
    .buffers h (.extend hok.extend) hok.extend.fails fun _ id _ _ hid => hok.extend.live id hid
  have hyields := luaiConvert_yields hconvert
  cases exit₁ with
  | raise =>
    cases hrun
    exact ⟨hyields, heffect⟩
  | ret result =>
    cases result with
    | none =>
      cases hrun
      exact ⟨hyields, heffect⟩
    | some d =>
      obtain ⟨σ₁, -, hrun⟩ := bind_eq_ok.mp hrun
      cases hrun
      exact absurd rfl hexit

/-- A call that returns true has converted the value, and leaves the old bytes, if they are the new
ones, or what there is memory for. -/
theorem luaiCharacteristicSetValue_true (hinv : ValuesInv σ) (hx : σ.characteristic c = .ok x)
    (h : Shows σ c cell) (hrun : luaiCharacteristicSetValue c v t σ = .ok (.ret true, σ')) :
    ∃ bytes, convertedBytes type v = some bytes ∧ σ.buffers.Grants (conversionRequests v) ∧
      ∃ messages, Effect σ σ' c
        ⟨if narrowed bytes = cell.bytes then cell.bytes
          else if σ.buffers.Grants (conversionRequests v + 1) then narrowed bytes else [],
          cell.notifying⟩ messages := by
  simp only [luaiCharacteristicSetValue, ht] at hrun
  obtain ⟨⟨exit₁, buffers⟩, hconvert, hrun⟩ := bind_eq_ok.mp hrun
  have hok := luaiConvert_ok hconvert
  have hyields := luaiConvert_yields hconvert
  cases exit₁ with
  | raise => cases hrun
  | ret result =>
    cases result with
    | none => cases hrun
    | some d =>
      obtain ⟨σ₁, hupdate, hrun⟩ := bind_eq_ok.mp hrun
      cases hrun
      obtain ⟨hgrants, hrequests, bytes, hconverted, hnew, hlength⟩ := hyields
      refine ⟨bytes, hconverted, hgrants, ?_⟩
      have hread : buffers.read d.data = bytes := hnew.read
      rw [hread, hlength] at hupdate
      have h₁ : Effect σ { σ with buffers } c cell [] :=
        .buffers h (.extend hok.extend) hok.extend.fails fun _ id _ _ hid => hok.extend.live id hid
      obtain ⟨messages, h₂⟩ := characteristicUpdateValue_outcome (h₁.frame.values hinv)
        (show ({ σ with buffers } : State).characteristic c = .ok x from hx) h₁.shows bytes hupdate
      have hunused := unused_of_new hinv hnew hupdate
      have h₃ : Effect σ₁ { σ₁ with buffers := σ₁.buffers.free d.data } c _ [] := .buffers h₂.shows
        ⟨⟨_, _, _, rfl⟩, rfl, fun hinv₂ => hinv₂.same (hinv₂.owns.release hunused)
          (((Heap.invalidFrees_free_iff _ _).mpr (freeable_of_new hinv hnew hupdate)).trans
            hinv₂.frees) rfl rfl⟩
        (Heap.free_fails _ _) fun o id a ho hid => Heap.mem_live_free hid (hunused o id a ho)
      -- the requests of the conversion come before the one for the new buffer
      have hstored : ({ σ with buffers } : State).stored (narrowed bytes) =
          if σ.buffers.Grants (conversionRequests v + 1) then narrowed bytes else [] := by
        have hadd := Heap.grants_add hok.extend.fails hrequests 1
        have hlast : buffers.Grants 1 ↔ σ.buffers.Grants (conversionRequests v + 1) :=
          ⟨fun hone => hadd.mpr ⟨hgrants, hone⟩, fun hall => (hadd.mp hall).2⟩
        exact if_congr hlast rfl rfl
      rw [hstored] at h₂ h₃
      exact ⟨_, (h₁.trans h₂).trans h₃⟩

/-- After a call that returns true, as many bytes are held as fit into 32 bits, or none; they are
all the bytes exactly when these are stored whole. -/
theorem luaiCharacteristicSetValue_held (hinv : ValuesInv σ) (hx : σ.characteristic c = .ok x)
    (hrun : luaiCharacteristicSetValue c v t σ = .ok (.ret true, σ')) :
    ∃ bytes held, convertedBytes type v = some bytes ∧
      σ.buffers.Grants (conversionRequests v) ∧ Holds σ' c held ∧
      (held = narrowed bytes ∨ held = []) ∧
      (held = bytes ↔ bytes = [] ∨ StoredWhole σ c v bytes) := by
  obtain ⟨old, hold⟩ := hinv.holds hx
  obtain ⟨bytes, hconverted, hgrants, messages, heffect⟩ :=
    luaiCharacteristicSetValue_true ht hinv hx (hold.shows hx) hrun
  have hholds := heffect.shows.holds
  dsimp only at hholds
  have hempty : bytes = [] → narrowed bytes = bytes := by
    rintro rfl
    rfl
  have hwhole : narrowed bytes = bytes → bytes.length < 2 ^ 32 :=
    fun heq => Nat.not_le.mp fun hle => narrowed_ne hle heq
  by_cases hsame : narrowed bytes = old
  · rw [if_pos hsame, ← hsame] at hholds
    refine ⟨bytes, _, hconverted, hgrants, hholds, Or.inl rfl, fun heq => ?_, ?_⟩
    · exact Or.inr ⟨hwhole heq, Or.inl (heq ▸ hsame ▸ hold)⟩
    · rintro (hnil | ⟨hlt, -⟩)
      · exact hempty hnil
      · exact narrowed_of_lt hlt
  have hother : Holds σ c bytes → narrowed bytes ≠ bytes := by
    intro hheld heq
    exact hsame (heq.trans (hheld.unique hold))
  by_cases hlast : σ.buffers.Grants (conversionRequests v + 1)
  · rw [if_neg hsame, if_pos hlast] at hholds
    refine ⟨bytes, _, hconverted, hgrants, hholds, Or.inl rfl, fun heq => ?_, ?_⟩
    · exact Or.inr ⟨hwhole heq, Or.inr hlast⟩
    · rintro (hnil | ⟨hlt, -⟩)
      · exact hempty hnil
      · exact narrowed_of_lt hlt
  · rw [if_neg hsame, if_neg hlast] at hholds
    refine ⟨bytes, _, hconverted, hgrants, hholds, Or.inr rfl, fun heq => Or.inl heq.symm, ?_⟩
    rintro (hnil | ⟨hlt, hheld | hgranted⟩)
    · exact hnil.symm
    · exact absurd (narrowed_of_lt hlt) (hother hheld)
    · exact absurd hgranted hlast

end SetValue

/-! ## What is reported -/

/-- The value of a characteristic is what it was, and nothing was sent. -/
structure Kept (σ σ' : State) (c : ℕ) : Prop where
  holds : ∀ bytes, Holds σ c bytes → Holds σ' c bytes
  sent : σ'.bus.sent = σ.bus.sent

/-- `setValue` comes to allocate the buffer for a new value, and the allocation fails. -/
structure SetFails (σ : State) (c : ℕ) (v : LuaValue) (bytes : Bytes) : Prop where
  converted : σ.buffers.Grants (conversionRequests v)
  fails : ¬ σ.buffers.Grants (conversionRequests v + 1)
  changes : ¬ Holds σ c (narrowed bytes)

/-- What a call of `setValue` reports is true: if the buffer cannot be allocated, the old value is
kept and true is not returned, and if true is returned, the new value is stored. -/
structure SetReports (σ : State) (c : ℕ) (v : LuaValue) (type : UInt32) (exit : LuaExit Bool)
    (σ' : State) : Prop where
  fails : ∀ bytes, convertedBytes type v = some bytes → SetFails σ c v bytes →
    Kept σ σ' c ∧ exit ≠ .ret true
  returns : exit = .ret true → ∃ bytes, convertedBytes type v = some bytes ∧ Holds σ' c bytes

/-- What a call of `WriteValue` reports is true. -/
structure WriteReports (σ : State) (c : ℕ) (bytes : Bytes) (reply : Option Message) (σ' : State) :
    Prop where
  fails : ¬ σ.buffers.Grants 1 → Kept σ σ' c ∧ reply = none
  returns : reply ≠ none → Holds σ' c bytes

/-- If a value is converted, it is stored whole. -/
def SetStored (σ : State) (c : ℕ) (v : LuaValue) (type : UInt32) : Prop :=
  ∀ bytes, convertedBytes type v = some bytes → σ.buffers.Grants (conversionRequests v) →
    StoredWhole σ c v bytes

/-- The buffer is granted and its size fits, or there is no memory for the reply either. -/
def WriteStored (σ : State) (c : ℕ) (bytes : Bytes) : Prop :=
  if σ.buffers.Grants 1 then σ.bus.outOfMemory = true ∨ bytes.length < 2 ^ 32
  else σ.bus.outOfMemory = true ∧ Holds σ c []

section Reports

variable {σ σ' : State} {c : ℕ} {x : Characteristic} (hinv : ValuesInv σ)
  (hx : σ.characteristic c = .ok x)
include hinv hx

theorem setReports_iff {v t : LuaValue} {type : UInt32}
    (ht : luaiCheckTypeBleDataType t = .ret type)
    (hne : ∀ bytes, convertedBytes type v = some bytes → bytes ≠ []) {exit : LuaExit Bool}
    (hrun : luaiCharacteristicSetValue c v t σ = .ok (exit, σ')) :
    SetReports σ c v type exit σ' ↔ SetStored σ c v type := by
  obtain ⟨old, hold⟩ := hinv.holds hx
  by_cases hexit : exit = .ret true
  swap
  · -- nothing has been converted, so that no buffer was asked for
    obtain ⟨hunconverted, -⟩ := luaiCharacteristicSetValue_untrue ht (hold.shows hx) hexit hrun
    have hnever : ∀ bytes, convertedBytes type v = some bytes →
        ¬ σ.buffers.Grants (conversionRequests v) := by
      intro bytes hconverted hgrants
      rcases hunconverted with hnone | hdenied
      · rw [hnone] at hconverted
        cases hconverted
      · exact hdenied hgrants
    refine iff_of_true ⟨fun bytes hconverted hfails => ?_, fun htrue => absurd htrue hexit⟩ ?_
    · exact absurd hfails.converted (hnever bytes hconverted)
    · intro bytes hconverted hgrants
      exact absurd hgrants (hnever bytes hconverted)
  subst hexit
  obtain ⟨bytes, held, hconverted, hgrants, hholds, -, hwhole⟩ :=
    luaiCharacteristicSetValue_held ht hinv hx hrun
  have hbytes : ∀ {bytes'}, convertedBytes type v = some bytes' → bytes' = bytes := by
    intro bytes' hconverted'
    exact Option.some.inj (hconverted'.symm.trans hconverted)
  have hstored : held = bytes ↔ StoredWhole σ c v bytes := by
    rw [hwhole]
    exact or_iff_right (hne bytes hconverted)
  constructor
  · intro h bytes' hconverted' _
    obtain ⟨bytes'', hconverted'', hholds'⟩ := h.returns rfl
    rw [hbytes hconverted'']  at hholds'
    rw [hbytes hconverted']
    exact hstored.mp (hholds.unique hholds')
  · intro h
    have hall := h bytes hconverted hgrants
    refine ⟨fun bytes' hconverted' hfails => ?_, fun _ => ⟨bytes, hconverted, ?_⟩⟩
    · rw [hbytes hconverted'] at hfails
      obtain ⟨hlt, hheld | hlast⟩ := hall
      · exact absurd ((narrowed_of_lt hlt).symm ▸ hheld) hfails.changes
      · exact absurd hlast hfails.fails
    · exact hstored.mpr hall ▸ hholds

theorem writeReports_iff {message : Message} {bytes : Bytes} {rest : List DBusValue}
    (hbody : message.body = .byteArray bytes :: rest) (hne : bytes ≠ []) {reply : Option Message}
    (hrun : characteristicWriteValue c message σ = .ok (reply, σ')) :
    WriteReports σ c bytes reply σ' ↔ WriteStored σ c bytes := by
  obtain ⟨old, hold⟩ := hinv.holds hx
  obtain ⟨σ₁, hwrite, heffect⟩ := characteristicWriteValue_bytes (hold.shows hx) hinv hbody hne
  cases hwrite.symm.trans hrun
  have hholds : Holds σ' c (σ.stored (narrowed bytes)) := heffect.shows.holds
  have hsent : σ'.bus.sent = σ.bus.sent := heffect.sent.trans (List.append_nil _)
  have hreply : dbusMessageNewMethodReturn σ.bus message = none ↔ σ.bus.outOfMemory = true := by
    rw [dbusMessageNewMethodReturn]
    cases σ.bus.outOfMemory <;> simp
  rw [WriteStored]
  by_cases hgrants : σ.buffers.Grants 1
  · rw [State.stored, if_pos hgrants] at hholds
    rw [if_pos hgrants]
    constructor
    · intro h
      by_cases hmemory : σ.bus.outOfMemory = true
      · exact Or.inl hmemory
      · refine Or.inr (Nat.not_le.mp fun hle => ?_)
        have hwhole := h.returns fun hnone => hmemory (hreply.mp hnone)
        exact narrowed_ne hle (hholds.unique hwhole)
    · rintro (hmemory | hlt)
      · exact ⟨fun hdenied => absurd hgrants hdenied,
          fun hsome => absurd (hreply.mpr hmemory) hsome⟩
      · rw [narrowed_of_lt hlt] at hholds
        exact ⟨fun hdenied => absurd hgrants hdenied, fun _ => hholds⟩
  · rw [State.stored, if_neg hgrants] at hholds
    rw [if_neg hgrants]
    constructor
    · intro h
      obtain ⟨hkept, hnone⟩ := h.fails hgrants
      refine ⟨hreply.mp hnone, ?_⟩
      -- what is left is empty, and it is what was there
      have hempty : old = [] := (hkept.holds old hold).unique hholds
      exact hempty ▸ hold
    · rintro ⟨hmemory, hempty⟩
      have hnone := hreply.mpr hmemory
      refine ⟨fun _ => ⟨⟨fun bytes hbytes => ?_, hsent⟩, hnone⟩, fun hsome => absurd hnone hsome⟩
      rwa [hbytes.unique hempty]

end Reports

/-- What `setValue` and `WriteValue` report of a value of at least one byte is true exactly when
`setValue` converts nothing or stores the bytes whole, and when `WriteValue` has a buffer and the
size fits, or has no reply. -/
theorem reports_iff {σ : State} (hreach : Reachable σ) {c : ℕ} {x : Characteristic}
    (hx : σ.characteristic c = .ok x) :
    (∀ v t type exit σ', luaiCheckTypeBleDataType t = .ret type →
      (∀ bytes, convertedBytes type v = some bytes → bytes ≠ []) →
      luaiCharacteristicSetValue c v t σ = .ok (exit, σ') →
      (SetReports σ c v type exit σ' ↔ SetStored σ c v type)) ∧
    ∀ message bytes rest reply σ', message.body = .byteArray bytes :: rest → bytes ≠ [] →
      characteristicWriteValue c message σ = .ok (reply, σ') →
      (WriteReports σ c bytes reply σ' ↔ WriteStored σ c bytes) := by
  have hinv := ValuesInv.of_reachable hreach
  constructor
  · intro v t type exit σ' ht hne hrun
    exact setReports_iff hinv hx ht hne hrun
  · intro message bytes rest reply σ' hbody hne hrun
    exact writeReports_iff hinv hx hbody hne hrun

/-- A characteristic on a machine whose first request for a buffer fails. -/
def scarceOnce : State :=
  (luaiCreateCharacteristic "2A19".toList
    (State.initial (fun _ => []) (fun _ => []) (fun n => n == 0) false)).2

/-- A peer writes two bytes. -/
def writeTwoBytes : Message :=
  ⟨.methodCall, none, some bluezGattCharacteristicInterface, some bluezMethodWriteValue,
    [.byteArray [7, 8]]⟩

/-- The theorem where `setValue` has no buffer for its conversion, and the `WriteValue` that follows
has one. -/
theorem reports_iff_uint8 : ∃ exit σ' reply σ'',
    luaiCharacteristicSetValue 0 (.integer 5) (.integer 2) scarceOnce = .ok (exit, σ') ∧
    exit = .ret false ∧ SetReports scarceOnce 0 (.integer 5) 2 exit σ' ∧
    characteristicWriteValue 0 writeTwoBytes σ' = .ok (some reply, σ'') ∧
    WriteReports σ' 0 [7, 8] (some reply) σ'' := by
  have hreach : Reachable scarceOnce :=
    ⟨_, [.createCharacteristic "2A19".toList], _, ⟨_, _, _, _, rfl⟩, fun _ _ => trivial, rfl⟩
  obtain ⟨⟨exit, σ'⟩, hrun, hafter⟩ := exists_of_toOption_map (show (luaiCharacteristicSetValue 0
    (.integer 5) (.integer 2) scarceOnce).toOption.map (fun r => (r.1, r.2.bus.outOfMemory,
      decide (r.2.buffers.Grants 1), (r.2.characteristic 0).isOk)) =
        some (.ret false, false, true, true) by decide)
  simp only [Prod.mk.injEq, decide_eq_true_eq] at hafter
  obtain ⟨rfl, hmemory, hgrants, hthere⟩ := hafter
  have hreach' : Reachable σ' := by
    refine hreach.step (r := .lua (.ret false)) (.setValue 0 (.integer 5) (.integer 2)) trivial ?_
    rw [exec, hrun]
    rfl
  obtain ⟨x, hx⟩ := exists_of_isOk hthere
  have hreports : SetReports scarceOnce 0 (.integer 5) 2 (.ret false) σ' := by
    refine ((reports_iff hreach (c := 0) rfl).1 _ (.integer 2) 2 _ _ (by decide) ?_ hrun).mpr ?_
    · intro bytes hconverted
      obtain rfl : [5] = bytes := Option.some.inj hconverted
      decide
    · intro bytes _ hgranted
      exact absurd hgranted (by decide)
  obtain ⟨old, hold⟩ := (ValuesInv.of_reachable hreach').holds hx
  obtain ⟨σ'', hwrite, -⟩ := characteristicWriteValue_bytes (hold.shows hx)
    (.of_reachable hreach') (show writeTwoBytes.body = .byteArray [7, 8] :: [] from rfl) (by decide)
  rw [dbusMessageNewMethodReturn, if_neg (by rw [hmemory]; decide)] at hwrite
  refine ⟨_, σ', _, σ'', hrun, rfl, hreports, hwrite, ?_⟩
  refine ((reports_iff hreach' hx).2 writeTwoBytes [7, 8] [] _ _ rfl (by decide) hwrite).mpr ?_
  rw [WriteStored, if_pos hgrants]
  exact Or.inr (by decide)

/-- When the buffer cannot be allocated, `setValue` returns true all the same. -/
theorem not_setReports : ¬ ∀ (σ : State) (c : ℕ) (x : Characteristic) (v t : LuaValue)
    (type : UInt32) (exit : LuaExit Bool) (σ' : State), Reachable σ →
      σ.characteristic c = .ok x → luaiCheckTypeBleDataType t = .ret type →
      luaiCharacteristicSetValue c v t σ = .ok (exit, σ') → SetReports σ c v type exit σ' := by
  intro h
  -- the first request is granted, and the second one fails
  let σ := (luaiCreateCharacteristic "2A19".toList
    (State.initial (fun _ => []) (fun _ => []) (fun n => n == 1) false)).2
  have hreach : Reachable σ :=
    ⟨_, [.createCharacteristic "2A19".toList], _, ⟨_, _, _, _, rfl⟩, fun _ _ => trivial, rfl⟩
  have hok : (luaiCharacteristicSetValue 0 (.integer 5) (.integer 2) σ).isOk = true := by decide
  obtain ⟨⟨exit, σ'⟩, hrun⟩ := exists_of_isOk hok
  have hreports := h σ 0 _ (.integer 5) (.integer 2) 2 exit σ' hreach rfl (by decide) hrun
  have hstored := (setReports_iff (ValuesInv.of_reachable hreach) rfl (by decide)
    (fun bytes hconverted => by
      obtain rfl : [5] = bytes := Option.some.inj hconverted
      decide) hrun).mp hreports
  obtain ⟨-, ⟨x, hx, hsize, -⟩ | hgrants⟩ := hstored [5] rfl (by decide)
  · cases hx
    exact absurd hsize (by decide)
  · exact absurd hgrants (by decide)

end BleSim
