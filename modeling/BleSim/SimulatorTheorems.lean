import BleSim.Lib.Component
import BleSim.Simulator

/-!
# The whole program

The parts of the program are those of the other files: what a run does with the objects is a run of
requests (`objectsPart`), and what it does with the flag of the main loop is a run of `Process`
(`processPart`). The requests are those of the script and of Lua and, in the order of arrival, what
the library has read. So in whatever way arrivals, signals and the script interleave, the program
does what the server does with the same calls and messages.
-/

namespace BleSim

open Outcomes WriteOnce Refinement

/-! ## Requests -/

namespace Request

/-- What a request hands over. -/
def incoming? : Request → Option Incoming
  | incoming i => some i
  | _ => none

/-- The steps a request can make the objects take satisfy a condition. -/
def Satisfies (P : Op → Prop) (request : Request) : Prop :=
  ∀ registered step, request.step registered = some step → step.Satisfies P

end Request

/-- The server, which is asked the same. -/
def requestServer : Machine Request Server (Option ScriptReply) Message := fun request g =>
  match request.step g.registered with
  | some step => (scriptServer step g).map fun t => ⟨some t.reply, t.logged, t.next⟩
  | none => some ⟨none, [], g⟩

/-- Whatever is asked, the simulator refines the server. -/
theorem requestExec_refines : Refines requestExec (fun σ => σ.bus.sent) requestServer
    (fun request g => ∀ step, request.step g.registered = some step →
      step.Satisfies fun op => op.Fits g) Represents := by
  constructor
  · intro request σ g t h hfits ht
    unfold requestServer at ht
    unfold requestExec
    rw [h.registered]
    cases hstep : request.step g.registered with
    | none =>
      rw [hstep] at ht
      cases ht
      exact ⟨σ, rfl, (List.append_nil _).symm, h⟩
    | some step =>
      rw [hstep] at ht
      obtain ⟨u, hu, rfl⟩ := Option.map_eq_some_iff.mp ht
      obtain ⟨σ', hexec, hsent, h'⟩ := scriptExec_refines.returns h (hfits step hstep) hu
      exact ⟨σ', by simp only [hexec, ok_bind], hsent, h'⟩
  · intro request σ g h hfits hnone
    unfold requestServer at hnone
    unfold requestExec
    rw [h.registered]
    cases hstep : request.step g.registered with
    | none =>
      rw [hstep] at hnone
      cases hnone
    | some step =>
      rw [hstep] at hnone
      obtain ⟨e, he⟩ := scriptExec_refines.fails h (hfits step hstep)
        (Option.map_eq_none_iff.mp hnone)
      exact ⟨e, by simp only [he, error_bind]⟩

/-- Where there is room for all they create, the requests of a run fit. -/
theorem admits_requests {requests : List Request}
    (hrequests : ∀ request ∈ requests, request.Satisfies Op.Ordinary)
    (hlength : requests.length < 2 ^ 32) :
    Admits requestServer (fun request g => ∀ step, request.step g.registered = some step →
      step.Satisfies fun op => op.Fits g) requests Server.empty := by
  refine Admits.of_invariant (Request.Satisfies Op.Ordinary)
    (fun requests g => g.Room requests.length) (fun request requests g hrequest hroom => ?_)
    hrequests (Server.room_empty hlength)
  refine ⟨fun step hstep op hop => ⟨hrequest _ step hstep op hop, hroom.short⟩, fun t ht => ?_⟩
  unfold requestServer at ht
  split at ht
  · obtain ⟨u, hu, rfl⟩ := Option.map_eq_some_iff.mp ht
    exact hroom.script hu
  · cases ht
    exact hroom.same rfl fun _ => rfl

/-! ## What a step can do -/

/-- What the library has read in an event. -/
def SimulatorEvent.arrived : SimulatorEvent → List Incoming
  | .arrives incoming => [incoming]
  | _ => []

/-- What the script or Lua asks of the objects in an event. -/
def SimulatorEvent.asked : SimulatorEvent → List Request
  | .call env f args => [.call env f args]
  | .finalise o => [.finalise o]
  | .reuseMemory strings buffers => [.reuseMemory strings buffers]
  | _ => []

namespace Trace

/-- What a step has taken out of the inbox and handed over. -/
def took (t : Trace) : List Incoming := t.requests.filterMap fun p => p.1.incoming?

/-- The other requests of a step. -/
def own (t : Trace) : List Request :=
  (t.requests.map Prod.fst).filter fun request => request.incoming?.isNone

end Trace

/-- What an event comes to: the main thread moves on or something arrives, the objects are asked for
something, what has been read is handed over, the main loop or a signal makes a step, or a call of
`Update` ends. -/
inductive Simulator.Steps (s : Simulator) (event : SimulatorEvent) : Trace → Simulator → Prop where
  | moved (s' : Simulator) (hasked : event.asked = []) (hobjects : s'.objects = s.objects)
    (hprocess : s'.process = s.process) (hinbox : s'.inbox = s.inbox ++ event.arrived) :
    Steps s event ⟨[], [], []⟩ s'
  | called (request : Request) (r : Option ScriptReply) (s' : Simulator)
    (hasked : event.asked = [request]) (harrived : event.arrived = [])
    (hexec : requestExec request s.objects = .ok (r, s'.objects))
    (hprocess : s'.process = s.process) (hinbox : s'.inbox = s.inbox) :
    Steps s event ⟨[(request, r)], [], []⟩ s'
  | handed (incoming : Incoming) (r : Option ScriptReply) (s' : Simulator)
    (hasked : event.asked = []) (harrived : event.arrived = []) (hpc : s.process.pc = .dispatch)
    (hinbox : s.inbox = incoming :: s'.inbox)
    (hexec : requestExec (.incoming incoming) s.objects = .ok (r, s'.objects))
    (hprocess : s'.process = s.process) :
    Steps s event ⟨[(.incoming incoming, r)], [], []⟩ s'
  | looped (e : ProcessEvent) (r : Unit) (s' : Simulator) (hasked : event.asked = [])
    (harrived : event.arrived = []) (hstep : e.step s.process = .ok (r, s'.process))
    (hobjects : s'.objects = s.objects) (hinbox : s'.inbox = s.inbox)
    (hidle : e = .main → (∃ env, event = .main env) ∧ s.process.pc ≠ .update ∧
      (s.process.pc = .dispatch → s.inbox = [])) :
    Steps s event ⟨[], [(e, r)], []⟩ s'
  | updated (update : UpdateFunction) (called : Bool) (r : Unit) (s' : Simulator)
    (hasked : event.asked = []) (harrived : event.arrived = []) (hpc : s.pc = .runUpdate update)
    (hstep : ProcessEvent.main.step s.process = .ok (r, s'.process))
    (hobjects : s'.objects = s.objects) (hinbox : s'.inbox = s.inbox) :
    Steps s event ⟨[], [(.main, r)], [(update, called)]⟩ s'

namespace Simulator

variable {s s' : Simulator} {event : SimulatorEvent} {t : Trace}

theorem orHalt_eq_ok {α : Type} {x : Outcome α} {a : α} : orHalt x = .ok a ↔ x = .ok a := by
  cases x <;> simp [orHalt, Except.mapError]

theorem perform_eq_ok {request : Request} : s.perform request = .ok (t, s') ↔
    ∃ r objects, requestExec request s.objects = .ok (r, objects) ∧
      t = ⟨[(request, r)], [], []⟩ ∧ s' = { s with objects } := by
  constructor
  · intro h
    obtain ⟨⟨r, objects⟩, hexec, h⟩ := bind_eq_ok.mp h
    cases h
    exact ⟨r, objects, orHalt_eq_ok.mp hexec, rfl, rfl⟩
  · rintro ⟨r, objects, hexec, rfl, rfl⟩
    exact bind_eq_ok.mpr ⟨(r, objects), orHalt_eq_ok.mpr hexec, rfl⟩

theorem processStep_eq_ok {e : ProcessEvent} : s.processStep e = .ok (t, s') ↔
    ∃ r process, e.step s.process = .ok (r, process) ∧ t = ⟨[], [(e, r)], []⟩ ∧
      s' = { s with process } := by
  unfold processStep
  constructor
  · intro h
    split at h
    · cases h
    · rename_i r process hstep
      cases h
      exact ⟨r, process, hstep, rfl, rfl⟩
  · rintro ⟨r, process, hstep, rfl, rfl⟩
    rw [hstep]

/-- Handing something over: only the end of the connection ends the process. -/
theorem dispatch_eq_ok {incoming : Incoming} (h : dispatch incoming s = .ok (t, s')) :
    ∃ r objects pc, requestExec (.incoming incoming) s.objects = .ok (r, objects) ∧
      t = ⟨[(.incoming incoming, r)], [], []⟩ ∧ s' = { s with pc, objects } ∧
      (pc = s.pc ∨ incoming = .disconnected ∧ pc = .ended .disconnected) := by
  cases incoming with
  | disconnected =>
    obtain ⟨r, objects, hexec, ht, hs'⟩ := perform_eq_ok.mp h
    exact ⟨r, objects, _, hexec, ht, hs', Or.inr ⟨rfl, rfl⟩⟩
  | message | applicationReply | advertReply =>
    obtain ⟨r, objects, hexec, ht, hs'⟩ := perform_eq_ok.mp h
    exact ⟨r, objects, _, hexec, ht, hs', Or.inl rfl⟩

theorem jump_steps {pc : SimulatorPc} {s₁ : Simulator} (hasked : event.asked = [])
    (harrived : event.arrived = []) (h : jump pc s₁ = .ok (t, s'))
    (hobjects : s₁.objects = s.objects) (hprocess : s₁.process = s.process)
    (hinbox : s₁.inbox = s.inbox) : s.Steps event t s' := by
  cases h
  exact .moved _ hasked hobjects hprocess (by rw [harrived, List.append_nil]; exact hinbox)

/-- The steps of the main thread. -/
theorem mainStep_steps {env : MainEnv} (h : s.mainStep env = .ok (t, s')) :
    s.Steps (.main env) t s' := by
  have hasked : (SimulatorEvent.main env).asked = [] := rfl
  have hnone : (SimulatorEvent.main env).arrived = [] := rfl
  unfold mainStep at h
  split at h
  · obtain ⟨⟨accepted, program⟩, -, h⟩ := bind_eq_ok.mp h
    dsimp only at h
    split_ifs at h <;> exact jump_steps hasked hnone h rfl rfl rfl
  · split_ifs at h <;> exact jump_steps hasked hnone h rfl rfl rfl
  · exact jump_steps hasked hnone h rfl rfl rfl
  · split_ifs at h <;> exact jump_steps hasked hnone h rfl rfl rfl
  · obtain ⟨⟨answered, s₁⟩, hpower, h⟩ := bind_eq_ok.mp h
    obtain ⟨⟨answered', bus⟩, -, hpower⟩ := bind_eq_ok.mp hpower
    cases hpower
    dsimp only at h
    split_ifs at h <;> exact jump_steps hasked hnone h rfl rfl rfl
  · split at h <;> exact jump_steps hasked hnone h rfl rfl rfl
  · obtain ⟨⟨loaded, host⟩, -, h⟩ := bind_eq_ok.mp h
    dsimp only at h
    split_ifs at h <;> exact jump_steps hasked hnone h rfl rfl rfl
  · split at h
    · rename_i hpc
      split at h
      · rename_i hinbox
        obtain ⟨r, process, hstep, rfl, rfl⟩ := processStep_eq_ok.mp h
        refine .looped .main r _ hasked hnone hstep rfl rfl fun _ =>
          ⟨⟨env, rfl⟩, ?_, fun _ => hinbox⟩
        rw [hpc]
        intro hupdate
        cases hupdate
      · rename_i incoming inbox hinbox
        obtain ⟨r, objects, pc, hexec, rfl, rfl, -⟩ := dispatch_eq_ok h
        exact .handed incoming r _ hasked hnone hpc hinbox hexec rfl
    · exact jump_steps hasked hnone h rfl rfl rfl
    · exact jump_steps hasked hnone h rfl rfl rfl
    · rename_i hdispatch hupdate _
      obtain ⟨r, process, hstep, rfl, rfl⟩ := processStep_eq_ok.mp h
      exact .looped .main r _ hasked hnone hstep rfl rfl
        fun _ => ⟨⟨env, rfl⟩, hupdate, fun hpc => absurd hpc hdispatch⟩
  · rename_i update hpc
    obtain ⟨⟨called, host⟩, -, h⟩ := bind_eq_ok.mp h
    obtain ⟨⟨trace, s₁⟩, hloop, h⟩ := bind_eq_ok.mp h
    obtain ⟨r, process, hstep, rfl, rfl⟩ := processStep_eq_ok.mp hloop
    cases h
    exact .updated update called r _ hasked hnone hpc hstep rfl rfl
  · split at h <;> exact jump_steps hasked hnone h rfl rfl rfl
  · split_ifs at h
    exact jump_steps hasked hnone h rfl rfl rfl
  · cases h
  · cases h

/-- Whatever the event is, what happens is one of these things. -/
theorem steps_of_step (h : event.step s = .ok (t, s')) : s.Steps event t s' := by
  cases event with
  | main env => exact mainStep_steps h
  | call env f args =>
    simp only [SimulatorEvent.step] at h
    split_ifs at h
    obtain ⟨r, objects, hexec, rfl, rfl⟩ := perform_eq_ok.mp h
    exact .called _ r _ rfl rfl hexec rfl rfl
  | osExit status =>
    simp only [SimulatorEvent.step] at h
    split_ifs at h
    exact jump_steps rfl rfl h rfl rfl rfl
  | finalise o =>
    simp only [SimulatorEvent.step] at h
    split_ifs at h
    obtain ⟨r, objects, hexec, rfl, rfl⟩ := perform_eq_ok.mp h
    exact .called _ r _ rfl rfl hexec rfl rfl
  | arrives incoming =>
    simp only [SimulatorEvent.step] at h
    split_ifs at h
    cases h
    exact .moved _ rfl rfl rfl rfl
  | raised signal =>
    simp only [SimulatorEvent.step] at h
    split_ifs at h
    · obtain ⟨r, process, hstep, rfl, rfl⟩ := processStep_eq_ok.mp h
      refine .looped (.raised signal) r _ rfl rfl hstep rfl rfl fun hmain => ?_
      cases hmain
    · exact jump_steps rfl rfl h rfl rfl rfl
  | reuseMemory strings buffers =>
    simp only [SimulatorEvent.step] at h
    split_ifs at h
    obtain ⟨r, objects, hexec, rfl, rfl⟩ := perform_eq_ok.mp h
    exact .called _ r _ rfl rfl hexec rfl rfl

/-! ## The parts -/

/-- The objects are a part: what is done with them are requests. -/
def objectsPart : Component SimulatorEvent.step requestExec where
  view s := s.objects
  did t := t.requests
  project {event s t s'} h := by
    cases steps_of_step h with
    | moved _ _ hobjects => simp [hobjects]
    | called _ r _ _ _ hexec => simp [runAll, hexec]
    | handed _ r _ _ _ _ _ hexec => simp [runAll, hexec]
    | looped _ _ _ _ _ _ hobjects => simp [hobjects]
    | updated _ _ _ _ _ _ _ _ hobjects => simp [hobjects]

/-- The flag of the main loop is a part, with the steps of `Process`. -/
def processPart : Component SimulatorEvent.step ProcessEvent.step where
  view s := s.process
  did t := t.process
  project {event s t s'} h := by
    cases steps_of_step h with
    | moved _ _ _ hprocess => simp [hprocess]
    | called _ _ _ _ _ _ hprocess => simp [hprocess]
    | handed _ _ _ _ _ _ _ _ hprocess => simp [hprocess]
    | looped e r _ _ _ hstep => simp [runAll, hstep]
    | updated _ _ r _ _ _ _ hstep => simp [runAll, hstep]

/-- What the script and Lua ask for hands nothing over. -/
theorem incoming?_of_asked {request : Request} (h : event.asked = [request]) :
    request.incoming? = none := by
  cases event with
  | call | finalise | reuseMemory =>
    cases h
    rfl
  | _ => cases h

/-- The inbox is a queue. -/
theorem inbox_step (h : event.step s = .ok (t, s')) :
    s.inbox ++ event.arrived = t.took ++ s'.inbox := by
  cases steps_of_step h with
  | moved _ _ _ _ hinbox => simp [hinbox, Trace.took]
  | called _ _ _ hasked harrived _ _ hinbox =>
    simp [harrived, hinbox, Trace.took, incoming?_of_asked hasked]
  | handed _ _ _ _ harrived _ hinbox => simp [harrived, hinbox, Trace.took, Request.incoming?]
  | looped _ _ _ _ harrived _ _ hinbox => simp [harrived, hinbox, Trace.took]
  | updated _ _ _ _ _ harrived _ _ _ hinbox => simp [harrived, hinbox, Trace.took]

theorem inbox_run {objects : State} {events : List SimulatorEvent} {ts : List Trace}
    (hrun : runAll SimulatorEvent.step events (start objects) = .ok (ts, s)) :
    events.flatMap SimulatorEvent.arrived = ts.flatMap Trace.took ++ s.inbox :=
  runAll_queue inbox_step hrun

/-- What is asked is done at once. -/
theorem asked_step (h : event.step s = .ok (t, s')) : event.asked = t.own := by
  cases steps_of_step h with
  | moved _ hasked => exact hasked
  | called _ _ _ hasked => simp [hasked, Trace.own, incoming?_of_asked hasked]
  | handed _ _ _ hasked => simp [hasked, Trace.own, Request.incoming?]
  | looped _ _ _ hasked => exact hasked
  | updated _ _ _ _ hasked => exact hasked

theorem asked_run {events : List SimulatorEvent} {ts : List Trace}
    (hrun : runAll SimulatorEvent.step events s = .ok (ts, s')) :
    events.flatMap SimulatorEvent.asked = ts.flatMap Trace.own :=
  runAll_flatMap (fun {_ _ _ _} h => asked_step h) hrun

/-- An event makes one request at most. -/
theorem requests_length (hrun : event.step s = .ok (t, s')) : t.requests.length ≤ 1 := by
  cases steps_of_step hrun <;> simp

theorem steps_length {events : List SimulatorEvent} {ts : List Trace}
    (hrun : runAll SimulatorEvent.step events s = .ok (ts, s')) :
    (objectsPart.steps ts).length ≤ events.length := by
  refine runAll_history (P := fun events ts _ => (objectsPart.steps ts).length ≤ events.length)
    (Nat.le_refl 0) ?_ hrun
  intro events ts s₁ event t s₂ _ hle hstep
  have hone := requests_length hstep
  simp only [Component.steps, List.flatMap_append, List.map_append, List.length_append,
    List.flatMap_singleton, List.length_map, List.length_singleton] at hle ⊢
  exact Nat.add_le_add hle hone

/-- Each request has been asked for, or hands over what has arrived. -/
theorem request_of_run {objects : State} {events : List SimulatorEvent} {ts : List Trace}
    (hrun : runAll SimulatorEvent.step events (start objects) = .ok (ts, s)) {request : Request}
    (hmem : request ∈ objectsPart.steps ts) : ∃ event ∈ events,
      request ∈ event.asked ∨ ∃ incoming ∈ event.arrived, request = .incoming incoming := by
  obtain ⟨p, hp, rfl⟩ := List.mem_map.mp hmem
  obtain ⟨t, ht, hp⟩ := List.mem_flatMap.mp hp
  cases hincoming : p.1.incoming? with
  | none =>
    have hown : p.1 ∈ ts.flatMap Trace.own := by
      refine List.mem_flatMap.mpr ⟨t, ht, List.mem_filter.mpr ⟨List.mem_map_of_mem hp, ?_⟩⟩
      rw [hincoming]
      rfl
    rw [← asked_run hrun] at hown
    obtain ⟨event, hevent, hasked⟩ := List.mem_flatMap.mp hown
    exact ⟨event, hevent, Or.inl hasked⟩
  | some incoming =>
    have htook : incoming ∈ ts.flatMap Trace.took :=
      List.mem_flatMap.mpr ⟨t, ht, List.mem_filterMap.mpr ⟨p, hp, hincoming⟩⟩
    have harrived : incoming ∈ events.flatMap SimulatorEvent.arrived := by
      rw [inbox_run hrun]
      exact List.mem_append_left _ htook
    obtain ⟨event, hevent, harrived⟩ := List.mem_flatMap.mp harrived
    refine ⟨event, hevent, Or.inr ⟨incoming, harrived, ?_⟩⟩
    obtain ⟨request, r⟩ := p
    cases request with
    | incoming i => exact congrArg Request.incoming (Option.some.inj hincoming)
    | _ => cases hincoming

end Simulator

/-! ## What is seen of the program -/

/-- What an event asks of the objects, and what is done with what arrives in it, satisfies a
condition on the steps of `System`. -/
def SimulatorEvent.Satisfies (P : Op → Prop) (event : SimulatorEvent) : Prop :=
  (∀ request ∈ event.asked, request.Satisfies P) ∧
    ∀ incoming ∈ event.arrived, (Request.incoming incoming).Satisfies P

/-- In whatever way messages arrive, signals are raised and the script is run, the program asks the
objects for what the script asks for and hands over all that has arrived except what is still
waiting, each once and in its order; the replies are those of the server, and the objects send what
it sends. -/
theorem simulator_observed {objects : State} (hinit : objects.IsInitial)
    (hfails : objects.buffers.NeverFails) (hmemory : objects.bus.outOfMemory = false)
    {events : List SimulatorEvent} (hevents : ∀ event ∈ events, event.Satisfies Op.Ordinary)
    (hlength : events.length < 2 ^ 32) {ts : List Trace} {s : Simulator}
    (hrun : runAll SimulatorEvent.step events (Simulator.start objects) = .ok (ts, s)) :
    events.flatMap SimulatorEvent.asked = ts.flatMap Trace.own ∧
      events.flatMap SimulatorEvent.arrived = ts.flatMap Trace.took ++ s.inbox ∧
      ∃ t, run requestServer (Simulator.objectsPart.steps ts) Server.empty = some t ∧
        Simulator.objectsPart.replies ts = t.reply ∧ s.objects.bus.sent = t.logged := by
  refine ⟨Simulator.asked_run hrun, Simulator.inbox_run hrun, ?_⟩
  have hsteps : ∀ request ∈ Simulator.objectsPart.steps ts, request.Satisfies Op.Ordinary := by
    intro request hmem
    obtain ⟨event, hevent, hasked | ⟨incoming, harrived, rfl⟩⟩ := Simulator.request_of_run hrun hmem
    · exact (hevents event hevent).1 request hasked
    · exact (hevents event hevent).2 incoming harrived
  have hrepresents := Represents.of_isInitial hinit hfails hmemory
  obtain ⟨_, g, l, -, hsent, -, -, -, hserver⟩ := requestExec_refines.run_related hrepresents
    hrepresents (admits_requests hsteps (Nat.lt_of_le_of_lt (Simulator.steps_length hrun) hlength))
    (Simulator.objectsPart.run hrun)
  refine ⟨_, hserver, rfl, ?_⟩
  rw [hinit.sent, List.nil_append] at hsent
  exact hsent

/-- A kernel, a BlueZ and a script that do what they are asked. -/
def MainEnv.willing : MainEnv :=
  ⟨["ble-sim".toList, "--script".toList, "lamp.lua".toList], true, true, ⟨true, true⟩,
    .chunk .returns, some .returns⟩

/-- The program starts, and its script creates and registers a lamp. -/
def lampStarts : List SimulatorEvent :=
  List.replicate 6 (.main .willing) ++
    [.call .willing .createDevice [.value (.string [76, 97, 109, 112])],
      .call .willing .registerDevice [.userdata (.device 0)]] ++
    List.replicate 6 (.main .willing)

/-- In the first iteration a client asks for the objects of the lamp, and `Update` is called. -/
def lampAnswers : List SimulatorEvent :=
  .arrives (.message ⟨.methodCall, some "/dev0".toList, some dbusInterfaceObjectManager,
    some dbusMethodGetManagedObjects, []⟩) :: List.replicate 4 (.main .willing)

/-- The theorem for this run. -/
theorem simulator_observed_lamp : ∃ ts s t,
    runAll SimulatorEvent.step (lampStarts ++ lampAnswers) (Simulator.start State.empty) =
      .ok (ts, s) ∧
    (lampStarts ++ lampAnswers).flatMap SimulatorEvent.arrived = ts.flatMap Trace.took ++ s.inbox ∧
    run requestServer (Simulator.objectsPart.steps ts) Server.empty = some t ∧
    Simulator.objectsPart.replies ts = t.reply ∧ s.objects.bus.sent = t.logged := by
  have hevents : ∀ event ∈ lampStarts ++ lampAnswers, event.Satisfies Op.Ordinary := by
    simp [lampStarts, lampAnswers, SimulatorEvent.Satisfies, SimulatorEvent.asked,
      SimulatorEvent.arrived, Request.Satisfies, Request.step, ScriptStep.Satisfies, scriptFrontEnd,
      ApiFunction.op?, Op.Ordinary, Message.WellTyped]
  obtain ⟨⟨ts, s⟩, hrun⟩ := exists_of_isOk (show (runAll SimulatorEvent.step
    (lampStarts ++ lampAnswers) (Simulator.start State.empty)).isOk = true by decide +kernel)
  obtain ⟨-, harrived, t, hserver, hreplies, hsent⟩ :=
    simulator_observed State.isInitial_empty (fun _ => rfl) rfl hevents (by decide) hrun
  exact ⟨ts, s, t, hrun, harrived, hserver, hreplies, hsent⟩

end BleSim
