import BleSim.Lib.Subscription
import BleSim.ValueCalls

/-!
# Subscribers

A subscriber learns of a value through `PropertiesChanged` signals. The script announces every
change it makes while notifications are on; a D-Bus peer that writes a value does not. In runs
without such writes a subscriber that has read the value once follows it.
-/

namespace BleSim

open Outcomes WriteOnce DBusValue Subscription

/-! ## What is told -/

/-- The value a signal tells about the characteristic with the given path. -/
def Message.toldValue (path : CStr) (m : Message) : Option Bytes :=
  match m.type, m.body with
  | .signal, [.string interface, .array _ [.dictEntry (.string name) (.variant _ (.array _ items))],
      _] =>
    if m.path = some path ∧ m.interface = some dbusInterfaceProperties ∧
        m.member = some dbusSignalPropertiesChanged ∧
        interface = bluezGattCharacteristicInterface ∧ name = blePropertyValue then
      some (items.flatMap DBusValue.storage)
    else none
  | _, _ => none

/-- The values told so far about the characteristic with the given path. -/
def State.told (σ : State) (path : CStr) : List Bytes :=
  σ.bus.sent.filterMap (Message.toldValue path)

/-- The signals sent so far. -/
def State.signals (σ : State) : List Message := σ.bus.sent.filter fun m => m.type = .signal

theorem toldValue_valueSignal (path path' : CStr) (bytes : Bytes) :
    (valueSignal path' bytes).toldValue path = if path' = path then some bytes else none := by
  have hstorage : (bytes.map DBusValue.byte).flatMap DBusValue.storage = bytes := by
    rw [List.flatMap_map]
    exact List.flatMap_singleton' bytes
  simp [Message.toldValue, valueSignal, propertiesChangedMessage, propertyEntry,
    DBusValue.byteArray, hstorage]

theorem toldValue_methodReturn (path : CStr) (body : List DBusValue) :
    (methodReturn body).toldValue path = none := rfl

/-- What a call tells about the value behind a path: the change, if the path is the
characteristic's own, the script makes it, and notifications are on. -/
theorem toldValue_messages (cell : Cell) (path own : CStr) (call : ValueCall) :
    (cell.messages own call).filterMap (Message.toldValue path) =
      if own = path ∧ call.isSet = true ∧ cell.notifying = true then
        due cell.bytes (cell.after call).bytes
      else [] := by
  cases call with
  | set v t =>
    rw [Cell.messages, Cell.signals]
    by_cases hown : own = path
    · cases hnotifying : cell.notifying with
      | false => simp
      | true =>
        by_cases hsame : (cell.after (.set v t)).bytes = cell.bytes
        · simp [hsame, due]
        · simp [hsame, due, toldValue_valueSignal, hown, ValueCall.isSet]
    · -- a signal from another path
      simp only [hown, false_and, ↓reduceIte]
      split_ifs <;> simp [toldValue_valueSignal, hown]
  | write bytes =>
    rw [Cell.messages]
    split_ifs with hempty <;> simp_all [toldValue_methodReturn, ValueCall.isSet]
  | _ => simp [Cell.messages, toldValue_methodReturn, ValueCall.isSet]

/-! ## Runs of calls on values -/

/-- A characteristic that is there and has been added to a service. -/
def Attached (σ : State) (c : ℕ) : Prop :=
  ∃ x, σ.characteristic c = .ok x ∧ x.node.parentPath ≠ .null

/-- A state that calls on values lead to from `σ₀`, while memory does not run out. -/
structure Follows (σ₀ σ : State) : Prop where
  frame : ValueFrame σ₀ σ
  values : ValuesInv σ
  fails : σ.buffers.NeverFails
  memory : σ.bus.outOfMemory = false

theorem Follows.effect {σ₀ σ σ' : State} (h : Follows σ₀ σ) {c : ℕ} {cell : Cell}
    {messages : List Message} (heffect : Effect σ σ' c cell messages) : Follows σ₀ σ' where
  frame := h.frame.trans heffect.frame
  values := heffect.frame.values h.values
  fails n := (congrFun heffect.fails n).trans (h.fails n)
  memory := heffect.frame.outOfMemory.trans h.memory

/-- An attached characteristic stays so, is registered and keeps its path. -/
theorem Follows.attached {σ₀ σ : State} (h : Follows σ₀ σ) (hreach : Reachable σ₀) {c : ℕ}
    (hc : Attached σ₀ c) :
    ∃ x path, σ.characteristic c = .ok x ∧ σ.strings.PointsTo x.node.objectPath path ∧
      (path, .characteristic c) ∈ σ.bus.registered := by
  obtain ⟨x₀, hx₀, hattached⟩ := hc
  obtain ⟨hfin, hget⟩ := State.characteristic_eq_ok.mp hx₀
  have hn : (σ₀.nodes .characteristic)[c]? = some x₀.node := by simp [State.nodes, hget]
  obtain ⟨id, path, hpath, hmem⟩ :=
    (RegistrationInv.of_reachable hreach).attached .characteristic c _ hn hattached
  obtain ⟨x, hx, hnode⟩ := h.frame.characteristic hx₀
  have hchild : σ₀.node .characteristic c = .ok x₀.node := State.node_eq_ok.mpr ⟨hfin, hn⟩
  have hpoints : σ₀.strings.PointsTo x₀.node.objectPath path :=
    (PointersInv.of_reachable hreach).pointsTo_attached hchild hattached (f := .objectPath) hpath
  refine ⟨x, path, hx, ?_, h.frame.registered ▸ hmem⟩
  rw [h.frame.strings, hnode]
  exact hpoints

/-- A step asks something of an attached characteristic. -/
def OnAttached (σ₀ : State) (op : Op) : Prop := ∃ c call, op.Asks c call ∧ Attached σ₀ c

/-- The condition on a step: a peer that writes while notifications are on does not change the
bytes. Besides, no block is overrun, what is read or told fits into an array, and a signal comes
from what is a path for the library. -/
def Announced (op : Op) (σ : State) : Prop :=
  ∀ c call x old, op.Asks c call → σ.characteristic c = .ok x → Holds σ c old →
    match call with
    | .set v t => ∀ type, luaiCheckTypeBleDataType t = .ret type → overruns type v = false ∧
        ∀ bytes, convertedBytes type v = some bytes → x.notifying = true →
          narrowed bytes ≠ old → isObjectPath (σ.strings.read x.node.objectPath) = true ∧
            (narrowed bytes).length ≤ dbusMaximumArrayLength
    | .read => old.length ≤ dbusMaximumArrayLength
    | .write bytes => x.notifying = true → bytes = [] ∨ bytes = old
    | _ => True

/-- A step that changes the bytes while notifications are on sends exactly one signal, with the
new bytes, and any other step sends none. -/
def TellsChange (op : Op) (σ : State) : Prop :=
  ∃ c call r σ' x old new, op.Asks c call ∧ exec op σ = .ok (r, σ') ∧
    σ.characteristic c = .ok x ∧ Holds σ c old ∧ Holds σ' c new ∧
    σ'.signals = σ.signals ++
      if x.notifying = true ∧ new ≠ old then
        [valueSignal (σ.strings.read x.node.objectPath) new]
      else []

/-- Under the condition the abstract machine can take the step, and tells every change. -/
theorem Announced.asks {op : Op} {σ : State} (h : Announced op σ) {c : ℕ} {call : ValueCall}
    (hasks : op.Asks c call) {x : Characteristic} (hx : σ.characteristic c = .ok x)
    {path : CStr} (hpath : σ.strings.PointsTo x.node.objectPath path) {cell : Cell}
    (hshows : Shows σ c cell) : call.Defined σ.strings x cell ∧
      (cell.notifying = true → call.isSet = false → (cell.after call).bytes = cell.bytes) := by
  have hcond := h c call x cell.bytes hasks hx hshows.holds
  have hflag : x.notifying = cell.notifying := by
    obtain ⟨y, hy, hflag⟩ := hshows.notifying
    obtain rfl : x = y := by simpa using hx.symm.trans hy
    exact hflag
  rw [hflag] at hcond
  cases hasks with
  | set =>
    refine ⟨fun type ht => ?_, fun _ htold => by cases htold⟩
    obtain ⟨hsafe, hmax⟩ := hcond type ht
    refine ⟨hsafe, fun bytes hconv hnotifying hne => ?_⟩
    obtain ⟨hvalid, hfits⟩ := hmax bytes hconv hnotifying hne
    rw [hpath.read] at hvalid
    exact ⟨⟨path, hpath, hvalid⟩, hfits⟩
  | read => exact ⟨hcond, fun _ _ => rfl⟩
  | write _ _ _ hmax =>
    refine ⟨trivial, fun hnotifying _ => ?_⟩
    -- a peer may write nothing, or what is there already
    rcases hcond hnotifying with rfl | rfl
    · rfl
    · simp only [Cell.after, ValueCall.stored, narrowed_of_le hmax]
      split_ifs <;> rfl
  | start => exact ⟨trivial, fun _ _ => rfl⟩
  | stop => exact ⟨trivial, fun _ _ => rfl⟩

section Run

variable {σ₀ : State} (hreach : Reachable σ₀)

include hreach

/-- A step of such a run, as the abstract machine takes it. -/
theorem Follows.step {σ : State} (h : Follows σ₀ σ) {op : Op} (hcond : Announced op σ) {c : ℕ}
    {call : ValueCall} (hasks : op.Asks c call) (hc : Attached σ₀ c) :
    ∃ x path cell r σ', σ.characteristic c = .ok x ∧ σ.strings.read x.node.objectPath = path ∧
      (path, .characteristic c) ∈ σ₀.bus.registered ∧ x.notifying = cell.notifying ∧
      Shows σ c cell ∧ exec op σ = .ok (r, σ') ∧
      Effect σ σ' c (cell.after call) (cell.messages path call) ∧ Follows σ₀ σ' ∧
      (cell.notifying = true → call.isSet = false → (cell.after call).bytes = cell.bytes) := by
  obtain ⟨x, path, hx, hpath, hmem⟩ := h.attached hreach hc
  obtain ⟨bytes, hholds⟩ := h.values.holds hx
  have hshows := hholds.shows hx
  obtain ⟨hdefined, hsilent⟩ := hcond.asks hasks hx hpath hshows
  have hregistered : Obj.characteristic c ∈ σ.registeredObjects :=
    mem_registeredObjects.mpr ⟨path, hmem⟩
  obtain ⟨r, σ', hexec, heffect, -⟩ :=
    exec_asks h.values h.fails h.memory hx hshows hasks (Or.inr hregistered) hdefined
  rw [hpath.read] at heffect
  exact ⟨x, path, _, r, σ', hx, hpath.read, h.frame.registered ▸ hmem, rfl, hshows, hexec, heffect,
    h.effect heffect, hsilent⟩

/-- A step tells the change it makes. -/
theorem Follows.tellsChange {σ : State} (h : Follows σ₀ σ) {op : Op} (hcond : Announced op σ)
    (hop : OnAttached σ₀ op) :
    TellsChange op σ ∧ ∃ r σ', exec op σ = .ok (r, σ') ∧ Follows σ₀ σ' := by
  obtain ⟨c, call, hasks, hc⟩ := hop
  obtain ⟨x, path, cell, r, σ', hx, hread, -, hflag, hshows, hexec, heffect, hfollows, hsilent⟩ :=
    h.step hreach hcond hasks hc
  refine ⟨⟨c, call, r, σ', x, cell.bytes, (cell.after call).bytes, hasks, hexec, hx, hshows.holds,
    heffect.shows.holds, ?_⟩, r, σ', hexec, hfollows⟩
  rw [State.signals, heffect.sent, List.filter_append, hread, hflag]
  congr 1
  -- only the script's calls send signals, and other calls change nothing while someone listens
  cases call with
  | set v t =>
    rw [Cell.messages, Cell.signals]
    split_ifs <;> simp [valueSignal, propertiesChangedMessage]
  | write bytes =>
    rw [if_neg fun hchange => hchange.2 (hsilent hchange.1 rfl), Cell.messages]
    split_ifs <;> simp [methodReturn]
  | _ =>
    rw [if_neg fun hchange => hchange.2 (hsilent hchange.1 rfl)]
    simp [Cell.messages, methodReturn]

variable (hpaths : σ₀.bus.paths.Nodup)

include hpaths

/-- A step tells the subscribers of one characteristic what is due to them. -/
theorem Follows.told {σ σ' : State} (h : Follows σ₀ σ) {op : Op} (hcond : Announced op σ)
    (hop : OnAttached σ₀ op) {c : ℕ} {path : CStr}
    (hmem : (path, .characteristic c) ∈ σ₀.bus.registered) (hstop : ¬ op.Asks c .stop)
    {bytes : Bytes} (hshows : Shows σ c ⟨bytes, true⟩) {r : Reply}
    (hexec : exec op σ = .ok (r, σ')) :
    ∃ bytes', (Follows σ₀ σ' ∧ Shows σ' c ⟨bytes', true⟩) ∧
      σ'.told path = σ.told path ++ due bytes bytes' := by
  obtain ⟨e, call, hasks, he⟩ := hop
  obtain ⟨x, own, cell, r', σ₁, -, -, hown, -, hcell, hexec', heffect, hfollows, hsilent⟩ :=
    h.step hreach hcond hasks he
  obtain rfl : σ' = σ₁ := by
    have := hexec.symm.trans hexec'
    simp only [Except.ok.injEq, Prod.mk.injEq] at this
    exact this.2
  have hlog : σ'.told path
      = σ.told path ++ (cell.messages own call).filterMap (Message.toldValue path) := by
    rw [State.told, heffect.sent, List.filterMap_append]
    rfl
  rw [hlog, toldValue_messages]
  by_cases hce : c = e
  · -- the subscriber's own characteristic
    subst hce
    obtain rfl := hshows.unique hcell
    have hsame : own = path := by
      have hregistration := RegistrationInv.of_reachable hreach
      obtain ⟨n, id, hn, -, hpath⟩ := hregistration.nodes .characteristic c path hmem
      obtain ⟨n', id', hn', -, hpath'⟩ := hregistration.nodes .characteristic c own hown
      obtain rfl : n = n' := by simpa using hn.symm.trans hn'
      exact (Ptr.block.inj (hpath'.symm.trans hpath)).2
    have hon : Cell.after ⟨bytes, true⟩ call = ⟨(Cell.after ⟨bytes, true⟩ call).bytes, true⟩ := by
      cases call with
      | stop => exact absurd hasks hstop
      | _ => rfl
    refine ⟨_, ⟨hfollows, hon ▸ heffect.shows⟩, ?_⟩
    congr 1
    cases htold : call.isSet with
    | true => rw [if_pos ⟨hsame, rfl, rfl⟩]
    | false => simp [due, hsilent rfl htold]
  · -- another characteristic, behind another path
    have hother : own ≠ path := by
      rintro rfl
      have := List.inj_on_of_nodup_map hpaths hmem hown rfl
      simp only [Prod.mk.injEq, Obj.characteristic.injEq, true_and] at this
      exact hce this
    refine ⟨bytes, ⟨hfollows, heffect.others c _ hce hshows⟩, ?_⟩
    simp [hother, due]

variable (hf : σ₀.buffers.NeverFails) (hmemory : σ₀.bus.outOfMemory = false)

include hf hmemory

/-- In a run of calls on attached characteristics in which peers do not change bytes while
notifications are on, every change is told exactly once, and a subscriber that has the value once
has it after every step, as long as notifications stay on. -/
theorem subscribers_follow {ops : List Op} (hops : ∀ op ∈ ops, OnAttached σ₀ op)
    (hcond : AllSteps exec Announced ops σ₀) :
    AllSteps exec TellsChange ops σ₀ ∧ ∃ replies σ, execAll ops σ₀ = .ok (replies, σ) ∧
      ∀ c x path bytes, σ₀.characteristic c = .ok x → (path, .characteristic c) ∈
        σ₀.bus.registered → x.notifying = true → Holds σ₀ c bytes →
        (∀ op ∈ ops, ¬ op.Asks c .stop) →
        ∃ received, σ.told path = σ₀.told path ++ received ∧ Holds σ c (follow bytes received) := by
  have hstart : Follows σ₀ σ₀ := ⟨.refl σ₀, .of_reachable hreach, hf, hmemory⟩
  have hboth : AllSteps exec (fun op σ => Announced op σ ∧ OnAttached σ₀ op) ops σ₀ :=
    hcond.and (allSteps_of_forall hops σ₀)
  obtain ⟨htells, replies, σ, hrun, -⟩ := AllSteps.run
    (fun op σ hop h => Follows.tellsChange hreach h hop.1 hop.2) hboth hstart
  refine ⟨htells, replies, σ, hrun, fun c x path bytes hx hmem hnotifying hholds hstop => ?_⟩
  have hshows : Shows σ₀ c ⟨bytes, true⟩ := ⟨hholds, x, hx, hnotifying⟩
  -- every step tells what is due, so the log leads to the value at the end
  obtain ⟨received, hlog, -, hshows'⟩ := follow_run
    (fun σ bytes => Follows σ₀ σ ∧ Shows σ c ⟨bytes, true⟩) (State.told · path)
    (fun op σ r σ' bytes hop h hexec => Follows.told hreach hpaths h.1 hop.1.1 hop.1.2 hmem hop.2
      h.2 hexec) (hboth.and (allSteps_of_forall hstop σ₀)) ⟨hstart, hshows⟩ hrun
  exact ⟨received, hlog, hshows'.holds⟩

end Run

/-- The theorem where the script sets the value after a peer has switched notifications on. -/
theorem subscribers_follow_set : AllSteps exec TellsChange
    [.deliver (.characteristic 0) (characteristicCall bluezMethodStartNotify []),
      .setValue 0 (.integer 5) (.integer 2)] (State.after oneCharacteristic) := by
  have hattached : Attached (State.after oneCharacteristic) 0 := ⟨_, rfl, by decide⟩
  have hstart : ∀ σ, Announced
      (.deliver (.characteristic 0) (characteristicCall bluezMethodStartNotify [])) σ := by
    intro σ c call x old hasks _ _
    cases hasks with
    | read _ hmember => exact absurd hmember (by decide)
    | write _ hmember => exact absurd hmember (by decide)
    | start => trivial
    | stop => trivial
  have hset : ∀ σ : State, (σ.characteristic 0).map
      (fun x => isObjectPath (σ.strings.read x.node.objectPath)) = .ok true →
      Announced (.setValue 0 (.integer 5) (.integer 2)) σ := by
    intro σ hpath c call x old hasks hx _
    cases hasks with
    | set =>
      intro type ht
      have htwo : luaiCheckTypeBleDataType (.integer 2) = .ret 2 := by decide
      obtain rfl : (2 : UInt32) = type := LuaExit.ret.inj (htwo.symm.trans ht)
      refine ⟨by decide, fun bytes hconv _ _ => ?_⟩
      have hbytes : convertedBytes 2 (.integer 5) = some [5] := by decide
      obtain rfl : [5] = bytes := Option.some.inj (hbytes.symm.trans hconv)
      rw [hx] at hpath
      exact ⟨Except.ok.inj hpath, by decide⟩
  have hcond : AllSteps exec Announced
      [.deliver (.characteristic 0) (characteristicCall bluezMethodStartNotify []),
        .setValue 0 (.integer 5) (.integer 2)] (State.after oneCharacteristic) :=
    ⟨hstart _, hset _ rfl, trivial⟩
  refine (subscribers_follow (State.reachable_after (by decide) fun _ _ => trivial) (by decide)
    (fun _ => rfl) rfl (fun op hop => ?_) hcond).1
  rcases List.mem_cons.mp hop with rfl | hop
  · exact ⟨0, .start, .start ⟨rfl, rfl⟩ rfl, hattached⟩
  · rw [List.mem_singleton.mp hop]
    exact ⟨0, _, .set 0 _ _, hattached⟩

/-- A device whose characteristic a peer has subscribed to. -/
def subscribed : List Op :=
  oneCharacteristic ++
    [.deliver (.characteristic 0) (characteristicCall bluezMethodStartNotify [])]

/-- A peer writes one byte. -/
def writeByte : Op :=
  .deliver (.characteristic 0) (characteristicCall bluezMethodWriteValue [.byteArray [1]])

/-- A peer that writes a value while notifications are on is not announced. -/
theorem not_tellsChange_write : ¬ ∀ (σ₀ : State) (ops : List Op), Reachable σ₀ →
    σ₀.buffers.NeverFails → σ₀.bus.outOfMemory = false → σ₀.bus.paths.Nodup →
      (∀ op ∈ ops, OnAttached σ₀ op) → AllSteps exec TellsChange ops σ₀ := by
  intro h
  have hattached : Attached (State.after subscribed) 0 := ⟨_, rfl, by decide⟩
  have hwrites : writeByte.Asks 0 (.write [1]) := .write ⟨rfl, rfl⟩ rfl rfl (by decide)
  obtain ⟨⟨c, call, r, σ', x, old, new, hasks, hexec, hx, hold, hnew, hsignals⟩, -⟩ :=
    h (State.after subscribed) [writeByte] (State.reachable_after (by decide) fun _ _ => trivial)
      (fun _ => rfl) rfl (by decide)
      fun op hop => ⟨0, .write [1], List.mem_singleton.mp hop ▸ hwrites, hattached⟩
  obtain rfl : c = 0 := hasks.eq_of_deliver
  have hbefore : ((State.after subscribed).characteristic 0).map
      (fun x => (x.notifying, x.valueSize)) = .ok (true, 0) := by decide
  rw [hx] at hbefore
  obtain ⟨hnotifying, hsize⟩ := Prod.mk.inj (Except.ok.inj hbefore)
  -- the value grows from no byte to one byte
  have hold' : old.length = 0 := by
    obtain ⟨y, hy, hlength, -⟩ := hold
    obtain rfl : x = y := by simpa using hx.symm.trans hy
    rw [← hlength, hsize]
    rfl
  have hnew' : new.length = 1 := by
    have hfields : (exec writeByte (State.after subscribed)).bind
        (fun r => (r.2.characteristic 0).map (·.valueSize)) = .ok 1 := by decide
    obtain ⟨y, hy, hlength, -⟩ := hnew
    rw [hexec] at hfields
    change (σ'.characteristic 0).map (·.valueSize) = .ok 1 at hfields
    rw [hy] at hfields
    rw [← hlength, show y.valueSize = 1 from Except.ok.inj hfields]
    rfl
  have hchange : x.notifying = true ∧ new ≠ old :=
    ⟨hnotifying, fun heq => by rw [heq, hold'] at hnew'; exact absurd hnew' (by decide)⟩
  rw [if_pos hchange] at hsignals
  -- but no signal has ever been sent
  have hnone : (exec writeByte (State.after subscribed)).map (·.2.signals.isEmpty) = .ok true := by
    decide
  rw [hexec] at hnone
  have hempty : σ'.signals = [] := List.isEmpty_iff.mp (Except.ok.inj hnone)
  rw [hempty] at hsignals
  simp at hsignals

end BleSim
