import BleSim.LoopTheorems
import BleSim.SafetyTheorems

/-!
# The whole program stays within defined behaviour

The objects are safe as long as the script and the clients are careful
(`Represents.careful_script`). Around them `main` reads its arguments, asks BlueZ for the adapter,
loads the script and calls `Update`, for which the Lua stack needs a free slot at every call.
Together this keeps an invariant of the whole program (`Simulator.Sound`), by which no event of a
careful run leaves defined behaviour. No userdata is finalised in such a run, so it goes as far as
`lua_close`.
-/

namespace BleSim

open Outcomes WriteOnce

/-! ## Careful events -/

/-- A message that BlueZ or a client may send. -/
def Incoming.Careful : Incoming → Prop
  | .message m => m.WellTyped ∧ m.interface ≠ none ∧ m.WritesArray
  | .applicationReply _ _ | .advertReply _ _ | .disconnected => True

/-- What the script, the clients and the caller of the program keep to. -/
def SimulatorEvent.Careful (event : SimulatorEvent) (s : Simulator) : Prop :=
  match event with
  | .main env => env.argv ≠ []
  | .call env f args => (ScriptStep.call env f args).Careful s.objects
  | .finalise _ => False
  | .arrives incoming => incoming.Careful
  | .osExit _ | .raised _ | .reuseMemory _ _ => True

/-- Whether a call of `Update` fails if an event makes one. -/
def SimulatorEvent.failsUpdate : SimulatorEvent → Bool
  | .main env => env.update.Fails
  | _ => false

/-- What a request makes the objects do is careful. -/
def Request.Careful (request : Request) (σ : State) : Prop :=
  ∀ step, request.step σ.bus.registered = some step → step.Careful σ

theorem ScriptStep.careful_other {op : Op} {σ : State} (h : op.Careful σ) :
    (ScriptStep.other op).Careful σ := by
  rintro _ ⟨⟩
  exact h

theorem Incoming.Careful.request {incoming : Incoming} (h : incoming.Careful) (σ : State) :
    (Request.incoming incoming).Careful σ := by
  intro step hstep
  cases incoming with
  | message m =>
    obtain ⟨o, -, rfl⟩ := Option.map_eq_some_iff.mp hstep
    obtain ⟨htyped, hinterface, harray⟩ := h
    exact ScriptStep.careful_other ⟨htyped, hinterface, fun _ => harray⟩
  | applicationReply | advertReply =>
    cases hstep
    exact ScriptStep.careful_other trivial
  | disconnected => cases hstep

/-! ## Parts of `main` -/

/-- Whatever the arguments are, they are read below `argc` only. -/
theorem exists_parseArgs {argv : List CStr} (hargv : argv ≠ []) (program : Program) :
    ∃ accepted program', parseArgs argv program = .ok (accepted, program') := by
  cases argv with
  | nil => exact absurd rfl hargv
  | cons filename arguments =>
    have hname : readArg (filename :: arguments) 0 = .ok filename := rfl
    rw [parseArgs, hname, ok_bind]
    split_ifs
    · exact ⟨_, _, rfl⟩
    · obtain ⟨accepted, program', hrun, -⟩ := parseArgsLoop_ends (i := 1) filename program
        (Nat.le_add_left (filename :: arguments).length 1)
      exact ⟨accepted, program', hrun⟩

/-- Loading a script needs no more slots than there are. -/
theorem exists_luaiLoadScript (script : Script) (host : LuaHost) :
    ∃ loaded host', luaiLoadScript script host = .ok (loaded, host') := by
  have hapi : luaiSetupLuaSimApi [] = .ok [] := rfl
  have htables : luaiSetupObjectMetatables [] = .ok [.table, .table, .table, .table] := rfl
  unfold luaiLoadScript
  rw [hapi, ok_bind, htables, ok_bind]
  cases script with
  | invalid message => exact ⟨_, _, rfl⟩
  | chunk call =>
    cases call with
    | returns => exact ⟨_, _, rfl⟩
    | raises error => cases error <;> exact ⟨_, _, rfl⟩

namespace Simulator

variable {s : Simulator} {event : SimulatorEvent}

/-- The request for the adapter can be built. -/
theorem exists_powerDefaultController (env : PropertyEnv) (s : Simulator) :
    ∃ answered sent, s.powerDefaultController env = .ok (answered, { s with sent }) := by
  have hvalid : isObjectPath defaultAdapterPath = true := by
    rw [← adapterPath_zero]
    exact (validObjectPath_adapterPath 0).isObjectPath
  have hpath : libraryPath (s.objects.strings.alloc defaultAdapterPath).2
      (s.objects.strings.alloc defaultAdapterPath).1 = .ok defaultAdapterPath :=
    libraryPath_eq_ok.mpr ⟨Heap.alloc_pointsTo _ _, hvalid⟩
  unfold powerDefaultController
  dsimp only
  rw [dbusutilsSetPropertyBasic_boolean hpath (by decide) (by decide)]
  split_ifs <;> exact ⟨_, _, rfl⟩

/-! ## The invariant -/

/-- There is a slot on the Lua stack for every call of `Update` that may still fail, and one for the
next. -/
def Slots (failures : ℕ) (s : Simulator) : Prop :=
  match s.pc with
  | .mainloop => ∃ stack, s.luaiState = some stack ∧ stack.length + failures < luaMinstack
  | .runUpdate update => ∃ stack, s.luaiState = some stack ∧
      stack.length + (if update.Fails then 1 else 0) + failures < luaMinstack
  | _ => True

/-- The program is within defined behaviour, with so many steps and failures of `Update` to come. -/
structure Sound (steps failures : ℕ) (s : Simulator) : Prop where
  objects : StaysSafe steps s.objects
  inbox : ∀ incoming ∈ s.inbox, incoming.Careful
  few : failures < 16
  slots : s.Slots failures

end Simulator

/-- What a step comes to is no fault, and is within defined behaviour. -/
def Ran.Sound (steps failures : ℕ) : Ran → Prop
  | .ok (_, s) => s.Sound steps failures
  | .error halt => halt = .blocked

namespace Simulator

variable {s : Simulator} {event : SimulatorEvent} {steps failures : ℕ}

/-! ## Steps -/

/-- Room for more is room for less. -/
theorem Sound.fewer (h : s.Sound (steps + 1) failures) : s.Sound steps failures :=
  ⟨h.objects.fewer, h.inbox, h.few, h.slots⟩

theorem Sound.processStep (h : s.Sound steps failures) (e : ProcessEvent) :
    Ran.Sound steps failures (s.processStep e) := by
  unfold Simulator.processStep
  split
  · rfl
  · exact ⟨h.objects, h.inbox, h.few, h.slots⟩

theorem Sound.perform (h : s.Sound (steps + 1) failures) {request : Request}
    (hcareful : request.Careful s.objects) : Ran.Sound steps failures (s.perform request) := by
  unfold Simulator.perform requestExec
  cases hstep : request.step s.objects.bus.registered with
  | none => exact h.fewer
  | some step =>
    obtain ⟨r, objects, hexec, hobjects⟩ := h.objects.step (hcareful step hstep)
    simp only [hexec, ok_bind]
    exact ⟨hobjects, h.inbox, h.few, h.slots⟩

theorem Sound.dispatch {incoming : Incoming} (h : s.Sound (steps + 1) failures)
    (hcareful : incoming.Careful) : Ran.Sound steps failures (dispatch incoming s) := by
  cases incoming with
  | disconnected =>
    -- the process ends, and has no use for the Lua stack
    have hended : ({ s with pc := .ended .disconnected } : Simulator).Sound (steps + 1) failures :=
      ⟨h.objects, h.inbox, h.few, trivial⟩
    exact hended.perform (hcareful.request _)
  | message | applicationReply | advertReply => exact h.perform (hcareful.request _)

/-- Fewer failures need fewer slots. -/
theorem Sound.mono {n : ℕ} (h : s.Sound steps n) (hle : failures ≤ n) : s.Sound steps failures := by
  refine ⟨h.objects, h.inbox, Nat.lt_of_le_of_lt hle h.few, ?_⟩
  have hslots := h.slots
  cases hpc : s.pc with
  | mainloop | runUpdate update =>
    simp only [Slots, hpc] at hslots ⊢
    obtain ⟨stack, hstate, hfree⟩ := hslots
    exact ⟨stack, hstate, by omega⟩
  | _ =>
    simp only [Slots, hpc]

/-- The main thread goes on. -/
theorem Sound.mainStep {env : MainEnv} (hargv : env.argv ≠ [])
    (h : s.Sound (steps + 1)
      (failures + if (SimulatorEvent.main env).failsUpdate then 1 else 0)) :
    Ran.Sound steps failures (s.mainStep env) := by
  have hrest : s.Sound steps failures := h.fewer.mono (Nat.le_add_right _ _)
  unfold Simulator.mainStep
  split
  · obtain ⟨accepted, program, hparse⟩ := exists_parseArgs hargv s.program
    rw [hparse]
    cases accepted <;> exact ⟨hrest.objects, hrest.inbox, hrest.few, trivial⟩
  · split_ifs <;> exact ⟨hrest.objects, hrest.inbox, hrest.few, trivial⟩
  · exact ⟨hrest.objects, hrest.inbox, hrest.few, trivial⟩
  · split_ifs <;> exact ⟨hrest.objects, hrest.inbox, hrest.few, trivial⟩
  · obtain ⟨answered, sent, hpower⟩ := exists_powerDefaultController env.power s
    rw [hpower]
    cases answered <;> exact ⟨hrest.objects, hrest.inbox, hrest.few, trivial⟩
  · split <;> exact ⟨hrest.objects, hrest.inbox, hrest.few, trivial⟩
  · rename_i script hpc
    obtain ⟨loaded, host, hload⟩ := exists_luaiLoadScript script s.host
    rw [hload]
    cases loaded with
    | false => exact ⟨hrest.objects, hrest.inbox, hrest.few, trivial⟩
    | true =>
      obtain ⟨stack, hstate, hheight⟩ := luaiLoadScript_height hload
      have hfew := hrest.few
      refine ⟨hrest.objects, hrest.inbox, hrest.few, stack, hstate, ?_⟩
      rw [hheight, luaMinstack]
      omega
  · rename_i hpc
    have hslots := h.slots
    simp only [Slots, hpc] at hslots
    obtain ⟨stack, hstate, hfree⟩ := hslots
    split
    · split
      · exact hrest.processStep .main
      · rename_i incoming inbox hinbox
        have hmem := h.inbox
        rw [hinbox, List.forall_mem_cons] at hmem
        have htail : ({ s with inbox } : Simulator).Sound (steps + 1) failures :=
          ⟨h.objects, hmem.2, hrest.few, hrest.slots⟩
        exact htail.dispatch hmem.1
    · refine ⟨hrest.objects, hrest.inbox, hrest.few, stack, hstate, ?_⟩
      simp only [SimulatorEvent.failsUpdate, decide_eq_true_eq] at hfree
      omega
    · exact ⟨hrest.objects, hrest.inbox, hrest.few, trivial⟩
    · exact hrest.processStep .main
  · rename_i update hpc
    have hslots := hrest.slots
    simp only [Slots, hpc] at hslots
    obtain ⟨stack, hstate, hfree⟩ := hslots
    have hheight : s.host.HasHeight stack.length := ⟨stack, hstate, rfl⟩
    obtain ⟨⟨called, host⟩, hcall⟩ := exists_of_isOk ((hheight.isOk_iff update).mpr (by omega))
    obtain ⟨stack', hstate', hheight'⟩ := hheight.step hcall
    rw [hcall]
    cases hloop : (s.setHost host).processStep .main with
    | error halt =>
      have hblocked : halt = .blocked := by
        unfold Simulator.processStep at hloop
        split at hloop <;> cases hloop
        rfl
      simp only [orHalt, Except.mapError, ok_bind, hloop, error_bind]
      exact hblocked
    | ok r =>
      obtain ⟨trace, s₁⟩ := r
      obtain ⟨r, process, -, rfl, rfl⟩ := processStep_eq_ok.mp hloop
      simp only [orHalt, Except.mapError, ok_bind, hloop]
      exact ⟨hrest.objects, hrest.inbox, hrest.few, stack', hstate', by omega⟩
  · split <;> exact ⟨hrest.objects, hrest.inbox, hrest.few, trivial⟩
  · split_ifs
    · exact ⟨hrest.objects, hrest.inbox, hrest.few, trivial⟩
    · rfl
  · rfl
  · rfl

/-- A careful event keeps the program within defined behaviour. -/
theorem Sound.step (hcareful : event.Careful s)
    (h : s.Sound (steps + 1) (failures + if event.failsUpdate then 1 else 0)) :
    Ran.Sound steps failures (event.step s) := by
  cases event with
  | main env => exact h.mainStep hcareful
  | call env f args =>
    simp only [SimulatorEvent.step]
    split_ifs
    · refine h.perform ?_
      rintro _ ⟨⟩
      exact hcareful
    · rfl
  | osExit status =>
    simp only [SimulatorEvent.step]
    split_ifs
    · exact ⟨h.fewer.objects, h.inbox, h.few, trivial⟩
    · rfl
  | finalise o => exact absurd hcareful id
  | arrives incoming =>
    simp only [SimulatorEvent.step]
    split_ifs
    · refine ⟨h.fewer.objects, ?_, h.few, h.slots⟩
      intro incoming' hmem
      rcases List.mem_append.mp hmem with hold | hnew
      · exact h.inbox incoming' hold
      · rw [List.mem_singleton.mp hnew]
        exact hcareful
    · rfl
  | raised signal =>
    simp only [SimulatorEvent.step]
    split_ifs
    · rfl
    · have hlogged : (s.log (logInfo "Stopping simulator...".toList)).Sound steps failures :=
        ⟨h.fewer.objects, h.inbox, h.few, h.slots⟩
      exact hlogged.processStep _
    · exact ⟨h.fewer.objects, h.inbox, h.few, trivial⟩
  | reuseMemory strings buffers =>
    simp only [SimulatorEvent.step]
    split_ifs
    · refine h.perform ?_
      rintro _ ⟨⟩
      exact ScriptStep.careful_other trivial
    · rfl

/-- A careful run comes to no fault, and the state it ends in is within defined behaviour. -/
theorem Sound.run {events : List SimulatorEvent} : ∀ {s : Simulator},
    s.Sound events.length (events.countP SimulatorEvent.failsUpdate) →
    AllSteps SimulatorEvent.step SimulatorEvent.Careful events s →
    (∀ fault, runAll SimulatorEvent.step events s ≠ .error (.fault fault)) ∧
      ∀ ts s', runAll SimulatorEvent.step events s = .ok (ts, s') → s'.Sound 0 0 := by
  induction events with
  | nil =>
    intro s h _
    constructor
    · intro fault hrun
      cases hrun
    · intro ts s' hrun
      cases hrun
      exact h
  | cons event events ih =>
    intro s h hall
    rw [List.countP_cons, List.length_cons] at h
    have hsound := h.step hall.1
    have hrest := hall.2
    cases hstep : event.step s with
    | error halt =>
      rw [hstep] at hsound
      obtain rfl : halt = .blocked := hsound
      rw [runAll, hstep]
      constructor
      · intro fault hrun
        cases hrun
      · intro ts s' hrun
        cases hrun
    | ok r =>
      obtain ⟨t, s₁⟩ := r
      rw [hstep] at hsound hrest
      obtain ⟨hfaults, hends⟩ := ih hsound hrest
      constructor
      · intro fault
        rw [runAll, hstep, ok_bind]
        refine bind_ne_error (hfaults fault) fun _ _ hfault => ?_
        cases hfault
      · intro ts s' hrun
        obtain ⟨t', s₂, ts', hfirst, hlater, rfl⟩ := runAll_cons_eq_ok.mp hrun
        cases hstep.symm.trans hfirst
        exact hends ts' s' hlater

end Simulator

end BleSim
