import BleSim.ServerClients

/-!
# The simulator is a server

Step by step and in whole runs the simulator answers and sends what the server of `Server` does. So
nothing it does depends on what it finds in memory that is not initialised or freed already, calls
on different characteristics can change places, and what a client is told about a device does not
depend on what happens to others.
-/

namespace BleSim

open Outcomes WriteOnce Refinement

/-! ## Refinement -/

/-- What a step meets outside the process: the library refuses no path but registered ones, messages
are well typed, and no userdata is collected. -/
def Op.Ordinary : Op → Prop
  | .add _ accepts _ _ => AcceptsFresh accepts
  | .deliver _ m => m.WellTyped
  | .fini _ => False
  | _ => True

/-- The steps in which the simulator and the server agree. -/
def Op.Fits (op : Op) (g : Server) : Prop := op.Ordinary ∧ g.Short

/-- Whatever the step is, the simulator does as the server. -/
theorem Represents.step {σ : State} {g : Server} (h : Represents σ g) {op : Op}
    (hop : op.Fits g) : Matches op σ (Server.step op g) := by
  obtain ⟨hordinary, hshort⟩ := hop
  cases op with
  | createDevice deviceName => exact h.createDevice deviceName
  | createService uuid => exact h.createService uuid
  | createCharacteristic uuid => exact h.createCharacteristic uuid
  | createDescriptor uuid => exact h.createDescriptor uuid
  | add kind accepts p c => exact h.add hordinary hshort p c
  | registerDevice env d => exact h.registerDevice env d
  | setPowered env d powered => exact h.setPowered env d powered
  | setDiscoverable env d discoverable => exact h.setDiscoverable env d discoverable
  | setNotifying c notifying => exact h.setNotifying c notifying
  | setValue c v t => exact h.setValue c v t
  | deliver o m => exact h.deliver o hordinary
  | applicationReply d success => exact h.applicationReply d success
  | advertReply d success => exact h.advertReply d success
  | reuseMemory strings buffers => exact h.reuseMemory strings buffers
  | fini o => exact absurd hordinary id

/-- The simulator refines the server. -/
theorem exec_refines :
    Refines exec (fun σ => σ.bus.sent) Server.step Op.Fits Represents := by
  constructor
  · intro op σ g t h hop ht
    have hmatches := h.step hop
    rwa [ht] at hmatches
  · intro op σ g h hop hnone
    have hmatches := h.step hop
    rwa [hnone] at hmatches

/-! ## Runs -/

namespace Server

variable {g : Server} {op : Op} {t : Answer}

/-- Calls of the interface of properties change nothing. -/
theorem properties_next {o : Obj} {m : Message} (h : g.properties o m = some t) : t.next = g := by
  unfold properties at h
  split_ifs at h
  · split at h
    · cases h
      rfl
    · split at h
      · cases h
        rfl
      · obtain ⟨v, -, rfl⟩ := Option.map_eq_some_iff.mp h
        rfl
  · cases h
    rfl
  · obtain ⟨v, -, rfl⟩ := Option.map_eq_some_iff.mp h
    rfl
  · cases h
    rfl

/-- A message changes at most what the characteristic it is for shows, and the bytes only if they
are written. -/
theorem deliver_next {o : Obj} {m : Message} (h : g.deliver o m = some t) :
    t.next = g ∨ ∃ c cell, o = .characteristic c ∧ t.next = g.setCell c cell ∧
      (m.member ≠ some bluezMethodWriteValue → cell.bytes = g.bytes c) := by
  unfold deliver at h
  split_ifs at h
  swap
  · cases h
    exact Or.inl rfl
  obtain ⟨interface, -, h⟩ := Option.bind_eq_some_iff.mp h
  split_ifs at h
  · exact Or.inl (properties_next h)
  · cases o with
    | device d =>
      unfold call at h
      split_ifs at h
      · obtain ⟨v, -, rfl⟩ := Option.map_eq_some_iff.mp h
        exact Or.inl rfl
      · cases h
        exact Or.inl rfl
    | characteristic c =>
      obtain ⟨cell, hcell, h⟩ := Option.bind_eq_some_iff.mp h
      have hbytes : cell.bytes = g.bytes c := by
        rw [bytes, hcell, Option.map_some, Option.getD_some]
      unfold characteristicCall at h
      split_ifs at h with _ _ hwrite
      · cases h
        exact Or.inl rfl
      · have hmember : m.member = some bluezMethodWriteValue := by
          simp only [Message.isMethodCall, Bool.and_eq_true, beq_iff_eq] at hwrite
          exact hwrite.1.2
        unfold write at h
        split at h
        · split_ifs at h
          split at h
          · cases h
            exact Or.inl rfl
          · cases h
            exact Or.inr ⟨c, _, rfl, rfl, fun hne => absurd hmember hne⟩
        · cases h
      · cases h
        exact Or.inr ⟨c, _, rfl, rfl, fun _ => hbytes⟩
      · cases h
        exact Or.inr ⟨c, _, rfl, rfl, fun _ => hbytes⟩
      · cases h
        exact Or.inl rfl
    | _ =>
      cases h
      exact Or.inl rfl

theorem store_next {c : ℕ} {bytes : Bytes} (h : g.store c bytes = some t) :
    t.next = g ∨ ∃ cell, t.next = g.setCell c cell := by
  unfold store at h
  obtain ⟨cell, -, h⟩ := Option.bind_eq_some_iff.mp h
  split_ifs at h
  · cases h
    exact Or.inl rfl
  · obtain ⟨place, -, h⟩ := Option.bind_eq_some_iff.mp h
    cases h
    exact Or.inr ⟨_, rfl⟩
  · obtain ⟨place, -, h⟩ := Option.bind_eq_some_iff.mp h
    cases h
  · cases h
    exact Or.inr ⟨_, rfl⟩

theorem setValue_next {c : ℕ} {v type : LuaValue} (h : g.setValue c v type = some t) :
    t.next = g ∨ ∃ cell, t.next = g.setCell c cell := by
  unfold setValue at h
  split at h
  · cases h
    exact Or.inl rfl
  · split_ifs at h
    split at h
    · cases h
      exact Or.inl rfl
    · exact store_next h

theorem setAdapterProperty_next {property : CStr} {env : PropertyEnv} {d : ℕ} {value : Bool}
    (h : g.setAdapterProperty property env d value = some t) : t.next = g := by
  unfold setAdapterProperty at h
  obtain ⟨x, -, h⟩ := Option.bind_eq_some_iff.mp h
  by_cases hlisted : d ∈ g.listed
  · rw [if_pos hlisted] at h
    obtain ⟨path, -, h⟩ := Option.bind_eq_some_iff.mp h
    by_cases hmessage : env.message = true
    · rw [if_pos hmessage] at h
      cases h
      rfl
    · rw [if_neg hmessage] at h
      cases h
      rfl
  · rw [if_neg hlisted] at h
    cases h
    rfl

theorem register_next {env : RegisterEnv} {d : ℕ} (h : g.register env d = some t) :
    t.next = g ∨ t.next = g.afterRegister env d := by
  unfold register at h
  split_ifs at h
  · cases h
    exact Or.inl rfl
  · cases h
    exact Or.inr rfl

/-- An attribute that is added has not been added before. -/
theorem add_next {kind : Kind} {p c : ℕ} {r : Bool × Server} (h : g.add kind p c = some r) :
    r.2 = g ∨ ∃ path uuid, g.attributeAt kind c = some ⟨uuid, none⟩ ∧
      r.2 = g.attach kind p c path := by
  unfold add at h
  obtain ⟨path?, -, h⟩ := Option.bind_eq_some_iff.mp h
  obtain ⟨⟨uuid, place⟩, ha, h⟩ := Option.bind_eq_some_iff.mp h
  cases path? with
  | none =>
    cases h
    exact Or.inl rfl
  | some path =>
    dsimp only at h
    split_ifs at h with hrejected
    · cases h
      exact Or.inl rfl
    · cases h
      rw [not_or, Bool.not_eq_true, Option.isSome_eq_false_iff, Option.isNone_iff_eq_none]
        at hrejected
      obtain rfl : place = none := hrejected.1
      exact Or.inr ⟨path, uuid, ha, rfl⟩

/-- There is room for so many more objects. -/
structure Room (g : Server) (n : ℕ) : Prop where
  devices : g.devices.length + n < 2 ^ 32
  attributes : ∀ kind, (g.attributes kind).length + n < 2 ^ 32

theorem Room.short {n : ℕ} (h : g.Room n) : g.Short :=
  ⟨Nat.lt_of_le_of_lt (Nat.le_add_right _ n) h.devices, fun kind =>
    Nat.lt_of_le_of_lt (Nat.le_add_right _ n) (h.attributes kind)⟩

theorem room_empty {n : ℕ} (h : n < 2 ^ 32) : Server.empty.Room n :=
  ⟨by simpa [Server.empty] using h, fun _ => by simpa [Server.empty] using h⟩

/-- What a step that creates nothing leaves room for. -/
theorem Room.same {n : ℕ} (h : g.Room (n + 1)) {g' : Server}
    (hdevices : g'.devices.length = g.devices.length)
    (hattributes : ∀ kind, (g'.attributes kind).length = (g.attributes kind).length) :
    g'.Room n := by
  refine ⟨?_, fun kind => ?_⟩
  · have := h.devices
    omega
  · have := h.attributes kind
    rw [hattributes]
    omega

theorem Room.create {n : ℕ} (h : g.Room (n + 1)) (kind : Kind) (uuid : CStr) :
    (g.create kind uuid).Room n := by
  refine ⟨?_, fun kind' => ?_⟩
  · have := h.devices
    exact Nat.lt_of_succ_lt this
  · have := h.attributes kind'
    by_cases hkind : kind' = kind
    · subst hkind
      simp [Server.create]
      omega
    · simp [Server.create, Function.update_of_ne hkind]
      omega

/-- A step creates at most one object. -/
theorem Room.step {n : ℕ} (hroom : g.Room (n + 1)) (h : Server.step op g = some t) :
    t.next.Room n := by
  have hset : ∀ c cell, (g.setCell c cell).Room n := fun c cell => hroom.same rfl fun _ => rfl
  have hnext : ∀ c, (t.next = g ∨ ∃ cell, t.next = g.setCell c cell) → t.next.Room n := by
    rintro c (heq | ⟨cell, heq⟩)
    · rw [heq]
      exact hroom.same rfl fun _ => rfl
    · rw [heq]
      exact hset c cell
  cases op with
  | createDevice deviceName =>
    cases h
    refine ⟨?_, fun kind => ?_⟩
    · have := hroom.devices
      simp
      omega
    · have := hroom.attributes kind
      exact Nat.lt_of_succ_lt this
  | createService uuid | createCharacteristic uuid | createDescriptor uuid =>
    cases h
    exact hroom.create _ uuid
  | add kind accepts p c =>
    obtain ⟨r, hr, rfl⟩ := Option.map_eq_some_iff.mp h
    rcases add_next hr with heq | ⟨path, uuid, -, heq⟩
    · exact hnext 0 (Or.inl heq)
    · rw [show (⟨.bool r.1, [], r.2⟩ : Answer).next = g.attach kind p c path from heq]
      refine hroom.same rfl fun kind' => ?_
      by_cases hkind : kind' = kind
      · subst hkind
        simp [attach]
      · simp [attach, Function.update_of_ne hkind]
  | registerDevice env d =>
    rcases register_next h with heq | heq
    · exact hnext 0 (Or.inl heq)
    · rw [heq]
      exact hroom.same (by simp [afterRegister]) fun _ => rfl
  | setPowered env d powered => exact hnext 0 (Or.inl (setAdapterProperty_next h))
  | setDiscoverable env d discoverable => exact hnext 0 (Or.inl (setAdapterProperty_next h))
  | setNotifying c notifying =>
    obtain ⟨g', hg', rfl⟩ := Option.map_eq_some_iff.mp h
    obtain ⟨cell, -, rfl⟩ := Option.map_eq_some_iff.mp hg'
    exact hset _ _
  | setValue c v type => exact hnext c (setValue_next h)
  | deliver o m =>
    rcases deliver_next h with heq | ⟨c, cell, -, heq, -⟩
    · exact hnext 0 (Or.inl heq)
    · exact hnext c (Or.inr ⟨cell, heq⟩)
  | applicationReply | advertReply | reuseMemory =>
    cases h
    exact hroom.same rfl fun _ => rfl
  | fini o => cases h

end Server

/-- Where there is room for all they create, the steps of a run fit. -/
theorem admits_of_room {ops : List Op} (hops : ∀ op ∈ ops, op.Ordinary) {g : Server}
    (hroom : g.Room ops.length) : Admits Server.step Op.Fits ops g :=
  Admits.of_invariant Op.Ordinary (fun ops g => g.Room ops.length)
    (fun _ _ _ hop hroom => ⟨⟨hop, hroom.short⟩, fun _ ht => hroom.step ht⟩) hops hroom

theorem admits_empty {ops : List Op} (hops : ∀ op ∈ ops, op.Ordinary)
    (hlength : ops.length < 2 ^ 32) : Admits Server.step Op.Fits ops Server.empty :=
  admits_of_room hops (Server.room_empty hlength)

/-- A run leads to a state that stands for one of the server, and there the steps that can follow
fit. -/
theorem exists_represents {σ₀ σ : State} (hinit : σ₀.IsInitial) (hfails : σ₀.buffers.NeverFails)
    (hmemory : σ₀.bus.outOfMemory = false) {before ops : List Op}
    (hops : ∀ op ∈ before ++ ops, op.Ordinary) (hlength : (before ++ ops).length < 2 ^ 32)
    {rs : List Reply} (hbefore : execAll before σ₀ = .ok (rs, σ)) :
    ∃ g, Represents σ g ∧ ∀ ops, (∀ op ∈ before ++ ops, op.Ordinary) →
      (before ++ ops).length < 2 ^ 32 → Admits Server.step Op.Fits ops g := by
  have hrepresents := Represents.of_isInitial hinit hfails hmemory
  have hfirst : Admits Server.step Op.Fits before Server.empty := by
    refine admits_empty (fun op hop => hops op (List.mem_append_left _ hop)) ?_
    rw [List.length_append] at hlength
    omega
  obtain ⟨_, g, _, -, -, -, hg, -, hrun⟩ :=
    exec_refines.run_related hrepresents hrepresents hfirst hbefore
  exact ⟨g, hg, fun ops hops hlength => ((admits_empty hops hlength).append hrun).2⟩

/-- What can be seen of a run: the replies and the messages that were sent. -/
def observe (result : Outcome (List Reply × State)) : Option (List Reply × List Message) :=
  result.toOption.map fun r => (r.1, r.2.bus.sent)

/-- What can be seen of a run is what the server says, from related states on. -/
theorem Represents.observe {σ : State} {g : Server} (h : Represents σ g) {ops : List Op}
    (hadmits : Admits Server.step Op.Fits ops g) : BleSim.observe (execAll ops σ) =
      (run Server.step ops g).map fun t => (t.reply, σ.bus.sent ++ t.logged) :=
  exec_refines.observed_eq h hadmits

theorem State.IsInitial.sent {σ : State} (h : σ.IsInitial) : σ.bus.sent = [] := by
  obtain ⟨strings, buffers, fails, outOfMemory, rfl⟩ := h
  rfl

/-- What can be seen of a run of the simulator is what can be seen of the run of the server; the run
of the simulator leaves defined behaviour where the server is undefined. -/
theorem observe_execAll {σ₀ : State} (hinit : σ₀.IsInitial) (hfails : σ₀.buffers.NeverFails)
    (hmemory : σ₀.bus.outOfMemory = false) {ops : List Op} (hops : ∀ op ∈ ops, op.Ordinary)
    (hlength : ops.length < 2 ^ 32) : observe (execAll ops σ₀) =
      (run Server.step ops Server.empty).map fun t => (t.reply, t.logged) := by
  rw [(Represents.of_isInitial hinit hfails hmemory).observe (admits_empty hops hlength),
    hinit.sent]
  rfl

/-- A subscriber is told of a value that a client then reads. -/
def listenedTo : List Op := oneCharacteristic ++
  [.setNotifying 0 true, .setValue 0 (.integer 5) (.integer 2),
    .deliver (.characteristic 0)
      ⟨.methodCall, none, some bluezGattCharacteristicInterface, some bluezMethodReadValue, []⟩]

theorem listenedTo_ordinary : ∀ op ∈ listenedTo, op.Ordinary := by
  simp [listenedTo, oneCharacteristic, Op.Ordinary, AcceptsFresh, Message.WellTyped]

/-- The theorem where a subscriber is told of a value. -/
theorem observe_execAll_listenedTo :
    (observe (execAll listenedTo State.empty)).map Prod.snd = some
      [valueSignal "/dev0/serv0/char0".toList [5],
        methodReturn [.byteArray [5]]] := by
  rw [observe_execAll State.isInitial_empty (fun _ => rfl) rfl listenedTo_ordinary (by decide)]
  rfl

/-- A step without the contents of freed blocks. -/
def Op.forget : Op → Op
  | .reuseMemory _ _ => .reuseMemory (fun _ => []) fun _ => []
  | op => op

/-- Runs that differ in nothing but what uninitialised and freed memory holds cannot be told
apart. -/
theorem observe_memory {σ₀ σ₁ : State} (hinit₀ : σ₀.IsInitial) (hinit₁ : σ₁.IsInitial)
    (hfails₀ : σ₀.buffers.NeverFails) (hfails₁ : σ₁.buffers.NeverFails)
    (hmemory₀ : σ₀.bus.outOfMemory = false) (hmemory₁ : σ₁.bus.outOfMemory = false)
    {ops ops' : List Op} (hsame : ops.map Op.forget = ops'.map Op.forget)
    (hops : ∀ op ∈ ops, op.Ordinary) (hlength : ops.length < 2 ^ 32) :
    observe (execAll ops σ₀) = observe (execAll ops' σ₁) := by
  have hordinary : ∀ op : Op, op.forget.Ordinary ↔ op.Ordinary := by
    intro op
    cases op <;> exact Iff.rfl
  -- the server does not know of memory
  have hrun : ∀ (ops : List Op) (g : Server),
      run Server.step (ops.map Op.forget) g = run Server.step ops g := by
    intro ops
    induction ops with
    | nil => exact fun g => rfl
    | cons op ops ih =>
      intro g
      have hstep : Server.step op.forget g = Server.step op g := by cases op <;> rfl
      rw [List.map_cons, run, run, hstep]
      simp only [ih]
  have hops' : ∀ op ∈ ops', op.Ordinary := by
    intro op hop
    have hmem : op.forget ∈ ops.map Op.forget := hsame ▸ List.mem_map_of_mem hop
    obtain ⟨op₀, hop₀, heq⟩ := List.mem_map.mp hmem
    rw [← hordinary, ← heq, hordinary]
    exact hops op₀ hop₀
  have hlength' : ops'.length = ops.length := by
    simpa using (congrArg List.length hsame).symm
  rw [(Represents.of_isInitial hinit₀ hfails₀ hmemory₀).observe (admits_empty hops hlength),
    (Represents.of_isInitial hinit₁ hfails₁ hmemory₁).observe
      (admits_empty hops' (by rwa [hlength'])), hinit₀.sent, hinit₁.sent, ← hrun ops, hsame, hrun]

/-- The theorem where freed blocks and new ones hold different things. -/
theorem observe_memory_reused :
    observe (execAll (.reuseMemory (fun _ => []) (fun _ => []) :: listenedTo) State.empty) =
      observe (execAll (.reuseMemory (fun _ => ['x']) (fun _ => [7]) :: listenedTo)
        (State.initial (fun _ => ['y']) (fun _ => [9]) (fun _ => false) false)) :=
  observe_memory State.isInitial_empty ⟨_, _, _, _, rfl⟩ (fun _ => rfl) (fun _ => rfl) rfl rfl rfl
    (List.forall_mem_cons.mpr ⟨trivial, listenedTo_ordinary⟩) (by decide)

/-! ## Calls on different characteristics -/

/-- The characteristic a step is a call on. -/
def Op.characteristic? : Op → Option ℕ
  | .setNotifying c _ => some c
  | .setValue c _ _ => some c
  | .deliver (.characteristic c) _ => some c
  | _ => none

namespace Server

variable {g : Server} {op : Op} {c : ℕ}

/-- Setting the cell of a characteristic to what it shows. -/
theorem exists_setCell (g : Server) (c : ℕ) : ∃ cell, g = g.setCell c cell := by
  cases hc : g.cells[c]? with
  | none =>
    refine ⟨⟨[], false⟩, ?_⟩
    rw [setCell, List.set_eq_of_length_le (List.getElem?_eq_none_iff.mp hc)]
  | some cell => exact ⟨cell, (Represents.setCell_self hc).symm⟩

/-- A call on a characteristic changes what it shows, and nothing else. -/
theorem step_local (hop : op.characteristic? = some c) {t : Answer}
    (h : Server.step op g = some t) : ∃ cell, t.next = g.setCell c cell := by
  have hnext : (t.next = g ∨ ∃ cell, t.next = g.setCell c cell) →
      ∃ cell, t.next = g.setCell c cell := by
    rintro (heq | hset)
    · rw [heq]
      exact exists_setCell g c
    · exact hset
  cases op with
  | setNotifying e notifying =>
    cases hop
    obtain ⟨g', hg', rfl⟩ := Option.map_eq_some_iff.mp h
    obtain ⟨cell, -, rfl⟩ := Option.map_eq_some_iff.mp hg'
    exact ⟨_, rfl⟩
  | setValue e v type =>
    cases hop
    exact hnext (setValue_next h)
  | deliver o m =>
    cases o with
    | characteristic e =>
      cases hop
      refine hnext ((deliver_next h).imp_right ?_)
      rintro ⟨c', cell, heq, hset, -⟩
      cases heq
      exact ⟨cell, hset⟩
    | _ => cases hop
  | _ => cases hop

section Frame

variable {e : ℕ} (hne : e ≠ c) (cell : Cell)

include hne

theorem getElem?_setCell : (g.setCell e cell).cells[c]? = g.cells[c]? :=
  List.getElem?_set_ne hne

theorem setCell_comm (cell' : Cell) :
    (g.setCell e cell).setCell c cell' = (g.setCell c cell').setCell e cell := by
  simp only [setCell, List.set_comm _ _ hne]

theorem facts_setCell : (g.setCell e cell).facts (.characteristic c) =
    g.facts (.characteristic c) := by
  have hbytes : (g.setCell e cell).bytes c = g.bytes c := by
    rw [bytes, getElem?_setCell hne]
    rfl
  have hattribute : (g.setCell e cell).attributeAt .characteristic c =
      g.attributeAt .characteristic c := rfl
  simp only [facts, kindFacts, hattribute, attributeFacts, hbytes]

/-- An answer that does not depend on what others show. -/
theorem store_frame (bytes : Bytes) : (g.setCell e cell).store c bytes =
    (g.store c bytes).map fun t => { t with next := t.next.setCell e cell } := by
  have hplace : (g.setCell e cell).place .characteristic c = g.place .characteristic c := rfl
  unfold store
  rw [getElem?_setCell hne, hplace]
  cases g.cells[c]? with
  | none => rfl
  | some cell' =>
    simp only [Option.bind_eq_bind, Option.bind_some, setCell_comm hne]
    split_ifs
    · rfl
    · cases g.place .characteristic c <;> rfl
    · cases g.place .characteristic c <;> rfl
    · rfl

theorem setValue_frame (v type : LuaValue) : (g.setCell e cell).setValue c v type =
    (g.setValue c v type).map fun t => { t with next := t.next.setCell e cell } := by
  unfold setValue
  cases luaiCheckTypeBleDataType type with
  | raise => rfl
  | ret type =>
    dsimp only
    split_ifs
    · rfl
    · cases convertedBytes type v with
      | none => rfl
      | some bytes => exact store_frame hne cell _

theorem properties_frame (m : Message) :
    (g.setCell e cell).properties (.characteristic c) m =
      (g.properties (.characteristic c) m).map
        fun t => { t with next := t.next.setCell e cell } := by
  unfold properties
  rw [facts_setCell hne]
  split_ifs
  · cases getPropertyNameFromPropertiesGetMessage m with
    | none => rfl
    | some name =>
      dsimp only
      cases (g.facts (.characteristic c)).find? fun fact => fact.name = name with
      | none => rfl
      | some fact =>
        dsimp only
        cases fact.value <;> rfl
  · rfl
  · cases (g.facts (.characteristic c)).mapM Fact.entry <;> rfl
  · rfl

theorem characteristicCall_frame (cell' : Cell) (m : Message) :
    (g.setCell e cell).characteristicCall c cell' m =
      (g.characteristicCall c cell' m).map fun t => { t with next := t.next.setCell e cell } := by
  unfold characteristicCall write
  simp only [setCell_comm hne]
  split_ifs
  · rfl
  · rfl
  · split
    · split_ifs
      · split <;> rfl
      · rfl
    · rfl
  · rfl
  · rfl
  · rfl

theorem deliver_frame (m : Message) : (g.setCell e cell).deliver (.characteristic c) m =
    (g.deliver (.characteristic c) m).map fun t => { t with next := t.next.setCell e cell } := by
  have hobjects : (g.setCell e cell).objects = g.objects := rfl
  unfold deliver
  rw [hobjects]
  split_ifs
  swap
  · rfl
  cases m.interface with
  | none => rfl
  | some interface =>
    simp only [Option.bind_some, call, getElem?_setCell hne]
    split_ifs
    · exact properties_frame hne cell m
    · cases g.cells[c]? with
      | none => rfl
      | some cell' => exact characteristicCall_frame hne cell cell' m

/-- A call on a characteristic does not depend on what others show, and does not change it. -/
theorem step_frame (hop : op.characteristic? = some c) :
    Server.step op (g.setCell e cell) =
      (Server.step op g).map fun t => { t with next := t.next.setCell e cell } := by
  cases op with
  | setNotifying c' notifying =>
    cases hop
    simp only [Server.step, notify, getElem?_setCell hne, setCell_comm hne]
    cases g.cells[c]? <;> rfl
  | setValue c' v type =>
    cases hop
    exact setValue_frame hne cell v type
  | deliver o m =>
    cases o with
    | characteristic c' =>
      cases hop
      exact deliver_frame hne cell m
    | _ => cases hop
  | _ => cases hop

end Frame

/-- Calls on different characteristics commute. -/
theorem calls_commute {a b : Op} {e : ℕ} (ha : a.characteristic? = some c)
    (hb : b.characteristic? = some e) (hne : c ≠ e) : Commutes Server.step a b g := by
  intro t u ht hu
  obtain ⟨cell, hnext⟩ := step_local ha ht
  rw [hnext, step_frame hne cell hb] at hu
  obtain ⟨u₀, hu₀, rfl⟩ := Option.map_eq_some_iff.mp hu
  obtain ⟨cell', hnext'⟩ := step_local hb hu₀
  refine ⟨u₀.next, hu₀, ?_⟩
  rw [hnext', step_frame hne.symm cell' ha, ht, Option.map_some, hnext]
  simp only [setCell, List.set_comm _ _ hne]

end Server

/-- Two neighbouring calls on different characteristics can change places in a run: each of them is
answered as before and sends what it sent, and so does everything after them. -/
theorem exec_swap {σ₀ σ σ₁ σ₂ σ₃ : State} (hinit : σ₀.IsInitial) (hfails : σ₀.buffers.NeverFails)
    (hmemory : σ₀.bus.outOfMemory = false) {before after : List Op} {a b : Op} {c e : ℕ}
    (ha : a.characteristic? = some c) (hb : b.characteristic? = some e) (hne : c ≠ e)
    (hops : ∀ op ∈ before ++ a :: b :: after, op.Ordinary)
    (hlength : (before ++ a :: b :: after).length < 2 ^ 32) {rs rs' : List Reply} {r r' : Reply}
    (hbefore : execAll before σ₀ = .ok (rs, σ)) (hexec : exec a σ = .ok (r, σ₁))
    (hexec' : exec b σ₁ = .ok (r', σ₂)) (hafter : execAll after σ₂ = .ok (rs', σ₃)) :
    ∃ τ₁ τ₂ τ₃ l l' ls, exec b σ = .ok (r', τ₁) ∧ exec a τ₁ = .ok (r, τ₂) ∧
      execAll after τ₂ = .ok (rs', τ₃) ∧
      σ₁.bus.sent = σ.bus.sent ++ l ∧ σ₂.bus.sent = σ₁.bus.sent ++ l' ∧
      σ₃.bus.sent = σ₂.bus.sent ++ ls ∧ τ₁.bus.sent = σ.bus.sent ++ l' ∧
      τ₂.bus.sent = τ₁.bus.sent ++ l ∧ τ₃.bus.sent = τ₂.bus.sent ++ ls := by
  have hswapped : ∀ op ∈ before ++ b :: a :: after, op.Ordinary := by
    intro op hop
    refine hops op ?_
    simp only [List.mem_append, List.mem_cons] at hop ⊢
    tauto
  obtain ⟨g, hg, hadmits⟩ := exists_represents hinit hfails hmemory hops hlength hbefore
  have hab := hadmits _ hops hlength
  have hba := hadmits _ hswapped (by simpa using hlength)
  exact exec_refines.swap hg (Server.calls_commute ha hb hne) hab hba hexec hexec' hafter

/-- A device with two characteristics that have been added and notify. -/
def twoListened : List Op :=
  oneCharacteristic ++ [.createCharacteristic "2A1C".toList,
    .add .characteristic (fun _ _ => true) 0 1, .setNotifying 0 true, .setNotifying 1 true]

/-- A client reads the second characteristic, and the first one is set once more. -/
def readsAndSets : List Op :=
  [.deliver (.characteristic 1)
      ⟨.methodCall, none, some bluezGattCharacteristicInterface, some bluezMethodReadValue, []⟩,
    .setValue 0 (.integer 7) (.integer 2)]

/-- The theorem where both characteristics are set: their signals change places, and what follows is
the same. -/
theorem exec_swap_two : ∃ τ₁ τ₂ τ₃ rs,
    exec (.setValue 1 (.integer 6) (.integer 2)) (State.after twoListened) =
      .ok (.lua (.ret true), τ₁) ∧
    exec (.setValue 0 (.integer 5) (.integer 2)) τ₁ = .ok (.lua (.ret true), τ₂) ∧
    execAll readsAndSets τ₂ = .ok (rs, τ₃) ∧
    τ₃.bus.sent = [valueSignal "/dev0/serv0/char1".toList [6],
      valueSignal "/dev0/serv0/char0".toList [5], methodReturn [.byteArray [6]],
      valueSignal "/dev0/serv0/char0".toList [7]] := by
  obtain ⟨⟨rs₀, σ⟩, hbefore⟩ := exists_of_isOk
    (show (execAll twoListened State.empty).isOk = true by decide +kernel)
  obtain rfl : State.after twoListened = σ := by rw [State.after, hbefore]
  -- the run in which the first characteristic comes first
  obtain ⟨⟨r, σ₁⟩, ha, hr⟩ := exists_of_toOption_map (show (exec (.setValue 0 (.integer 5)
    (.integer 2)) (State.after twoListened)).toOption.map (fun p => (p.1, p.2.bus.sent)) =
      some (.lua (.ret true), [valueSignal "/dev0/serv0/char0".toList [5]]) from rfl)
  obtain ⟨rfl, hsent₁⟩ := Prod.mk.inj hr
  obtain ⟨⟨rs, σ₃⟩, hrest, hsent₃⟩ := exists_of_toOption_map (show (execAll
    (.setValue 0 (.integer 5) (.integer 2) :: .setValue 1 (.integer 6) (.integer 2) :: readsAndSets)
      (State.after twoListened)).toOption.map (fun p => (p.1.take 2, p.2.bus.sent)) =
      some ([.lua (.ret true), .lua (.ret true)], [valueSignal "/dev0/serv0/char0".toList [5],
        valueSignal "/dev0/serv0/char1".toList [6], methodReturn [.byteArray [6]],
        valueSignal "/dev0/serv0/char0".toList [7]]) from rfl)
  obtain ⟨r, _, rs₁, ha', hrest, rfl⟩ := runAll_cons_eq_ok.mp hrest
  cases ha.symm.trans ha'
  obtain ⟨r', σ₂, rs₂, hb, hafter, rfl⟩ := runAll_cons_eq_ok.mp hrest
  obtain ⟨hreplies, hsent₃⟩ := Prod.mk.inj hsent₃
  obtain rfl : r' = .lua (.ret true) := by simpa using hreplies
  have hops : ∀ op ∈ twoListened ++ .setValue 0 (.integer 5) (.integer 2) ::
      .setValue 1 (.integer 6) (.integer 2) :: readsAndSets, op.Ordinary := by
    simp [twoListened, oneCharacteristic, readsAndSets, Op.Ordinary, AcceptsFresh,
      Message.WellTyped]
  obtain ⟨τ₁, τ₂, τ₃, l, l', ls, hb', ha'', hafter', h₁, h₂, h₃, k₁, k₂, k₃⟩ :=
    exec_swap State.isInitial_empty (fun _ => rfl) rfl rfl rfl (by decide) hops (by decide) hbefore
      ha hb hafter
  refine ⟨τ₁, τ₂, τ₃, _, hb', ha'', hafter', ?_⟩
  have hsent : (State.after twoListened).bus.sent = [] := rfl
  have hsent₂ : (exec (.setValue 0 (.integer 5) (.integer 2)) (State.after twoListened) >>= fun p =>
      exec (.setValue 1 (.integer 6) (.integer 2)) p.2).toOption.map (fun p => p.2.bus.sent) =
        some [valueSignal "/dev0/serv0/char0".toList [5],
          valueSignal "/dev0/serv0/char1".toList [6]] := rfl
  rw [ha, ok_bind, hb] at hsent₂
  obtain hsent₂ : σ₂.bus.sent = _ := Option.some.inj hsent₂
  rw [hsent, List.nil_append] at h₁ k₁
  rw [hsent₁] at h₁ h₂
  rw [hsent₂] at h₂ h₃
  rw [hsent₃] at h₃
  obtain rfl := h₁
  obtain rfl := (List.cons.inj h₂).2
  obtain rfl := (List.cons.inj (List.cons.inj h₃).2).2
  rw [k₃, k₂, k₁]
  rfl

end BleSim
