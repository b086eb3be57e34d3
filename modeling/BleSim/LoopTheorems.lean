import BleSim.SimulatorTheorems

/-!
# The program around its main loop

Where `main` is and where its loop is go together (`SimulatorPc.Agrees`). From this it follows that
every message that the library reads is handed over once, in the order of arrival and before the
next call of `Update`, that each iteration makes one such call, how the program exits, and that a
request to stop is served as soon as the messages that are waiting have been handed over.
-/

namespace BleSim

open Outcomes WriteOnce

/-! ## Where the main thread is -/

/-- Where the main thread can be in the main loop, by where it is in `main`. -/
def SimulatorPc.Agrees (p : Process) : SimulatorPc → Prop
  | .mainloop => True
  | .runUpdate _ => p.pc = .update
  | .cleanupSimulator status | .closeLua status | .exited status =>
    (status = 1 ∧ p = Process.start) ∨ (status = 0 ∧ p.pc = .cleanup)
  | .ended _ => True
  | _ => p = Process.start

/-- What ends the process other than `main`: the library comes to the end of the connection, which
it has read before, the script calls `os.exit`, or a signal is raised for which there is no
handler. -/
def Ending.CausedBy (event : SimulatorEvent) (s : Simulator) : Ending → Prop
  | .disconnected => (∃ env, event = .main env) ∧ s.process.pc = .dispatch ∧
    s.inbox.head? = some .disconnected
  | .osExit status => event = .osExit status ∧ s.runsLua = true
  | .killed signal => event = .raised signal ∧ s.process.pc.handles signal = false

/-- What the flag and the counters of the main loop say. -/
structure Process.Counted (p : Process) : Prop where
  stopped : p.pc.InLoop → p.mainloopRunning = false → 0 < p.stops
  ended : p.pc = .cleanup → 0 < p.stops
  iterating : p.pc = .dispatch ∨ p.pc = .update ∨ p.pc = .msleep → 0 < p.iterations

/-- A signal is raised to a handler. -/
theorem Process.of_raised {p q : Process} {signal : StopSignal} {r : Unit}
    (hstep : (ProcessEvent.raised signal).step p = .ok (r, q)) :
    p.pc.handles signal = true ∧ q = stopSimulator p := by
  simp only [ProcessEvent.step, ite_eq_ok] at hstep
  obtain ⟨hhandles, hstep⟩ | ⟨-, hstep⟩ := hstep
  · cases hstep
    exact ⟨hhandles, rfl⟩
  · cases hstep

theorem Process.counted_start : Process.start.Counted := by
  constructor
  · exact fun h => absurd h id
  · exact fun h => by cases h
  · rintro (h | h | h) <;> cases h

theorem Process.Counted.step {p q : Process} (h : p.Counted) {e : ProcessEvent} {r : Unit}
    (hstep : e.step p = .ok (r, q)) : q.Counted := by
  cases e with
  | main =>
    obtain ⟨q', hmain, hstep⟩ := bind_eq_ok.mp hstep
    cases hstep
    obtain ⟨pc, running, iterations, stops⟩ := p
    cases pc with
    | install signal =>
      cases signal <;> cases hmain <;>
        exact ⟨fun h => absurd h id, fun h => (by cases h), by rintro (h | h | h) <;> cases h⟩
    | setRunning =>
      cases hmain
      exact ⟨fun _ h => (by cases h), fun h => (by cases h), by rintro (h | h | h) <;> cases h⟩
    | testRunning =>
      cases running with
      | true =>
        cases hmain
        exact ⟨fun _ h => (by cases h), fun h => (by cases h), fun _ => Nat.succ_pos _⟩
      | false =>
        cases hmain
        have hstops := h.stopped trivial rfl
        exact ⟨fun _ _ => hstops, fun _ => hstops, by rintro (h | h | h) <;> cases h⟩
    | dispatch =>
      cases hmain
      exact ⟨fun _ hflag => h.stopped trivial hflag, fun h => (by cases h),
        fun _ => h.iterating (Or.inl rfl)⟩
    | update =>
      cases hmain
      exact ⟨fun _ hflag => h.stopped trivial hflag, fun h => (by cases h),
        fun _ => h.iterating (Or.inr (Or.inl rfl))⟩
    | msleep =>
      cases hmain
      exact ⟨fun _ hflag => h.stopped trivial hflag, fun h => (by cases h),
        by rintro (h | h | h) <;> cases h⟩
    | cleanup => cases hmain
  | raised signal =>
    obtain ⟨-, rfl⟩ := Process.of_raised hstep
    exact ⟨fun _ _ => Nat.succ_pos _, fun _ => Nat.succ_pos _, h.iterating⟩

/-- A signal changes neither. -/
theorem SimulatorPc.Agrees.stop {pc : SimulatorPc} {p q : Process} {signal : StopSignal} {r : Unit}
    (h : pc.Agrees p) (hstep : (ProcessEvent.raised signal).step p = .ok (r, q)) :
    pc.Agrees q := by
  obtain ⟨hhandles, rfl⟩ := Process.of_raised hstep
  have hstart : p ≠ Process.start := by
    rintro rfl
    cases signal <;> cases hhandles
  cases pc with
  | mainloop | ended ending => trivial
  | runUpdate update => exact h
  | cleanupSimulator status | closeLua status | exited status =>
    rcases h with ⟨-, hp⟩ | ⟨hstatus, hp⟩
    · exact absurd hp hstart
    · exact Or.inr ⟨hstatus, hp⟩
  | _ => exact absurd h hstart

/-- `Update` is followed by `msleep`. -/
theorem Process.msleep_of_update {p q : Process} {r : Unit}
    (hstep : ProcessEvent.main.step p = .ok (r, q)) (hupdate : p.pc = .update) :
    q = { p with pc := .msleep } := by
  obtain ⟨q', hmain, hstep⟩ := bind_eq_ok.mp hstep
  cases hstep
  rw [mainStep, hupdate] at hmain
  exact (Except.ok.inj hmain).symm

/-- One more iteration than calls of `Update` that have ended has begun, or none. -/
def Process.pending (p : Process) : ℕ := if p.pc = .dispatch ∨ p.pc = .update then 1 else 0

/-- A step of the main loop that is not a call of `Update`. -/
theorem Process.pending_step {e : ProcessEvent} {p q : Process} {r : Unit}
    (hstep : e.step p = .ok (r, q)) (hother : e = .main → p.pc ≠ .update) :
    q.pending + p.iterations = q.iterations + p.pending := by
  cases e with
  | main =>
    obtain ⟨q', hmain, hstep⟩ := bind_eq_ok.mp hstep
    cases hstep
    obtain ⟨pc, running, iterations, stops⟩ := p
    cases pc with
    | install signal =>
      cases signal <;>
        cases hmain <;>
          exact Nat.add_comm _ _
    | testRunning =>
      cases running <;>
        cases hmain
      · exact Nat.add_comm _ _
      · exact (Nat.add_comm _ _).trans (Nat.add_zero _).symm
    | update => exact absurd rfl (hother rfl)
    | cleanup => cases hmain
    | _ =>
      cases hmain
      exact Nat.add_comm _ _
  | raised signal =>
    obtain ⟨-, rfl⟩ := Process.of_raised hstep
    exact Nat.add_comm _ _

/-- No iteration is taken back. -/
theorem Process.iterations_le {events : List ProcessEvent} {p q : Process} {replies : List Unit}
    (hrun : runAll ProcessEvent.step events p = .ok (replies, q)) :
    p.iterations ≤ q.iterations := by
  refine runAll_history (P := fun _ _ q => p.iterations ≤ q.iterations) (Nat.le_refl _)
    (fun _ _ _ e _ _ _ hle hstep => hle.trans ?_) hrun
  cases e with
  | main =>
    obtain ⟨q', hmain, hstep⟩ := bind_eq_ok.mp hstep
    cases hstep
    unfold mainStep at hmain
    split at hmain
    case h_5 =>
      split_ifs at hmain <;>
        cases hmain <;>
          simp
    all_goals cases hmain <;> exact Nat.le_refl _
  | raised signal =>
    obtain ⟨-, rfl⟩ := Process.of_raised hstep
    exact Nat.le_refl _

/-- The main loop comes to `Update` from `dispatch` only. -/
theorem Process.dispatch_of_update {p q : Process} {r : Unit}
    (hstep : ProcessEvent.main.step p = .ok (r, q)) (hupdate : q.pc = .update) :
    p.pc = .dispatch ∧ q.iterations = p.iterations := by
  obtain ⟨q', hmain, hstep⟩ := bind_eq_ok.mp hstep
  cases hstep
  obtain ⟨pc, running, iterations, stops⟩ := p
  cases pc with
  | install signal => cases signal <;> cases hmain <;> cases hupdate
  | testRunning => cases running <;> cases hmain <;> cases hupdate
  | dispatch =>
    cases hmain
    exact ⟨rfl, rfl⟩
  | cleanup => cases hmain
  | _ =>
    cases hmain
    cases hupdate

namespace Simulator

variable {s s' : Simulator} {event : SimulatorEvent} {t : Trace}

/-- The main thread goes on. -/
theorem agrees_mainStep {env : MainEnv} (h : s.pc.Agrees s.process)
    (hstep : s.mainStep env = .ok (t, s')) : s'.pc.Agrees s'.process := by
  unfold mainStep at hstep
  split at hstep <;> rename_i hpc <;> rw [hpc] at h
  · obtain ⟨⟨accepted, program⟩, -, hstep⟩ := bind_eq_ok.mp hstep
    dsimp only at hstep
    split_ifs at hstep <;> cases hstep
    · exact h
    · exact Or.inl ⟨rfl, h⟩
  · split_ifs at hstep <;> cases hstep
    · exact h
    · exact Or.inl ⟨rfl, h⟩
  · cases hstep
    exact h
  · split_ifs at hstep <;> cases hstep
    · exact h
    · exact Or.inl ⟨rfl, h⟩
  · obtain ⟨⟨answered, s₁⟩, hpower, hstep⟩ := bind_eq_ok.mp hstep
    obtain ⟨⟨answered', bus⟩, -, hpower⟩ := bind_eq_ok.mp hpower
    cases hpower
    dsimp only at hstep
    split_ifs at hstep <;> cases hstep
    · exact h
    · exact Or.inl ⟨rfl, h⟩
  · split at hstep <;> cases hstep
    · exact Or.inl ⟨rfl, h⟩
    · exact h
  · obtain ⟨⟨loaded, host⟩, -, hstep⟩ := bind_eq_ok.mp hstep
    dsimp only at hstep
    split_ifs at hstep <;> cases hstep
    · trivial
    · exact Or.inl ⟨rfl, h⟩
  · split at hstep
    · split at hstep
      · obtain ⟨r, process, -, rfl, rfl⟩ := processStep_eq_ok.mp hstep
        rw [hpc]
        trivial
      · obtain ⟨r, objects, pc, -, -, rfl, rfl | ⟨-, rfl⟩⟩ := dispatch_eq_ok hstep
        · rw [hpc]
          trivial
        · trivial
    · rename_i hupdate
      cases hstep
      exact hupdate
    · rename_i hcleanup
      cases hstep
      exact Or.inr ⟨rfl, hcleanup⟩
    · obtain ⟨r, process, -, rfl, rfl⟩ := processStep_eq_ok.mp hstep
      rw [hpc]
      trivial
  · obtain ⟨⟨called, host⟩, -, hstep⟩ := bind_eq_ok.mp hstep
    obtain ⟨⟨trace, s₁⟩, -, hstep⟩ := bind_eq_ok.mp hstep
    cases hstep
    trivial
  · split at hstep <;> cases hstep <;> exact h
  · split_ifs at hstep
    cases hstep
    exact h
  · cases hstep
  · cases hstep

/-- An event that is no step of the main thread leaves it where it is, with its flag set if there is
a handler for a signal, or ends the process. -/
inductive Aside (s : Simulator) (event : SimulatorEvent) (s' : Simulator) : Prop where
  | stays (hpc : s'.pc = s.pc) (hprocess : s'.process = s.process)
    (hinbox : s'.inbox = s.inbox ++ event.arrived)
  | stopped (signal : StopSignal) (r : Unit) (hpc : s'.pc = s.pc) (hinbox : s'.inbox = s.inbox)
    (hstep : (ProcessEvent.raised signal).step s.process = .ok (r, s'.process))
  | ended (ending : Ending) (hpc : s'.pc = .ended ending) (hprocess : s'.process = s.process)
    (hcaused : ending.CausedBy event s)

theorem aside_of_step (hmain : ∀ env, event ≠ .main env) (hstep : event.step s = .ok (t, s')) :
    s.Aside event s' := by
  cases event with
  | main env => exact absurd rfl (hmain env)
  | call env f args =>
    simp only [SimulatorEvent.step] at hstep
    split_ifs at hstep
    obtain ⟨r, objects, -, rfl, rfl⟩ := perform_eq_ok.mp hstep
    exact .stays rfl rfl (List.append_nil _).symm
  | osExit status =>
    simp only [SimulatorEvent.step] at hstep
    split_ifs at hstep with hruns
    cases hstep
    exact .ended _ rfl rfl ⟨rfl, hruns⟩
  | finalise o =>
    simp only [SimulatorEvent.step] at hstep
    split_ifs at hstep
    obtain ⟨r, objects, -, rfl, rfl⟩ := perform_eq_ok.mp hstep
    exact .stays rfl rfl (List.append_nil _).symm
  | arrives incoming =>
    simp only [SimulatorEvent.step] at hstep
    split_ifs at hstep
    cases hstep
    exact .stays rfl rfl rfl
  | raised signal =>
    simp only [SimulatorEvent.step] at hstep
    split_ifs at hstep with hruns hhandles
    · obtain ⟨r, process, hraised, rfl, rfl⟩ := processStep_eq_ok.mp hstep
      exact .stopped signal r rfl rfl hraised
    · cases hstep
      exact .ended _ rfl rfl ⟨rfl, Bool.eq_false_iff.mpr hhandles⟩
  | reuseMemory strings buffers =>
    simp only [SimulatorEvent.step] at hstep
    split_ifs at hstep
    obtain ⟨r, objects, -, rfl, rfl⟩ := perform_eq_ok.mp hstep
    exact .stays rfl rfl (List.append_nil _).symm

theorem agrees_step (h : s.pc.Agrees s.process) (hstep : event.step s = .ok (t, s')) :
    s'.pc.Agrees s'.process := by
  by_cases hmain : ∃ env, event = .main env
  · obtain ⟨env, rfl⟩ := hmain
    exact agrees_mainStep h hstep
  · cases aside_of_step (not_exists.mp hmain) hstep with
    | stays hpc hprocess =>
      rw [hpc, hprocess]
      exact h
    | stopped signal r hpc _ hraised =>
      rw [hpc]
      exact h.stop hraised
    | ended ending hpc =>
      rw [hpc]
      trivial

/-- In every state of a run. -/
theorem agrees_run {events : List SimulatorEvent} {objects : State} {ts : List Trace}
    (hrun : runAll SimulatorEvent.step events (Simulator.start objects) = .ok (ts, s)) :
    s.pc.Agrees s.process := by
  have hall : ∀ event ∈ events, True := fun _ _ => trivial
  have hstart : (start objects).pc.Agrees (start objects).process := rfl
  exact runAll_invariant (fun _ _ _ _ _ h hstep => agrees_step h hstep) hall hstart hrun

/-! ## Messages and `Update` -/

/-- `Update` is called when the loop of `dispatch` has found nothing more to hand over. -/
theorem update_of_step (h : s.pc.Agrees s.process) (hstep : event.step s = .ok (t, s'))
    (hupdate : s'.process.pc = .update) :
    s'.process.iterations = s.process.iterations ∧ t.took = [] ∧
      (s.process.pc = .update ∨
        (∃ env, event = .main env) ∧ s.process.pc = .dispatch ∧ s.inbox = []) := by
  cases steps_of_step hstep with
  | moved _ _ _ hprocess =>
    rw [hprocess] at hupdate ⊢
    exact ⟨rfl, rfl, Or.inl hupdate⟩
  | called _ _ _ hasked _ _ hprocess =>
    rw [hprocess] at hupdate ⊢
    exact ⟨rfl, by simp [Trace.took, incoming?_of_asked hasked], Or.inl hupdate⟩
  | handed _ _ _ _ _ hpc _ _ hprocess =>
    rw [hprocess, hpc] at hupdate
    cases hupdate
  | looped e r _ _ _ hloop _ _ hidle =>
    cases e with
    | main =>
      obtain ⟨hpc, hiterations⟩ := Process.dispatch_of_update hloop hupdate
      obtain ⟨hmain, -, hinbox⟩ := hidle rfl
      exact ⟨hiterations, rfl, Or.inr ⟨hmain, hpc, hinbox hpc⟩⟩
    | raised signal =>
      rw [(Process.of_raised hloop).2] at hupdate ⊢
      exact ⟨rfl, rfl, Or.inl hupdate⟩
  | updated update _ _ _ _ _ hpc hloop =>
    rw [hpc] at h
    have hdispatch := (Process.dispatch_of_update hloop hupdate).1
    exact absurd (hdispatch.symm.trans h) (by decide)

/-- Each iteration makes one call of `Update`. -/
theorem updates_step (h : s.pc.Agrees s.process) (hstep : event.step s = .ok (t, s')) :
    t.updates.length + s'.process.pending + s.process.iterations =
      s'.process.iterations + s.process.pending := by
  cases steps_of_step hstep with
  | moved _ _ _ hprocess =>
    rw [hprocess]
    simp [Nat.add_comm]
  | called _ _ _ _ _ _ hprocess =>
    rw [hprocess]
    simp [Nat.add_comm]
  | handed _ _ _ _ _ _ _ _ hprocess =>
    rw [hprocess]
    simp [Nat.add_comm]
  | looped e r _ _ _ hloop _ _ hidle =>
    rw [List.length_nil, Nat.zero_add]
    exact Process.pending_step hloop fun he => (hidle he).2.1
  | updated update called r _ _ _ hpc hloop =>
    rw [hpc] at h
    rw [Process.msleep_of_update hloop h, show s.process.pending = 1 from if_pos (Or.inr h)]
    exact Nat.add_comm _ _

theorem updates_run {objects : State} {events : List SimulatorEvent} {ts : List Trace}
    (hrun : runAll SimulatorEvent.step events (start objects) = .ok (ts, s)) :
    (ts.flatMap Trace.updates).length + s.process.pending = s.process.iterations := by
  refine runAll_history (P := fun _ ts s =>
    (ts.flatMap Trace.updates).length + s.process.pending = s.process.iterations) rfl ?_ hrun
  intro events ts s₁ event t s₂ hbefore hcount hstep
  have hupdates := updates_step (agrees_run hbefore) hstep
  rw [List.flatMap_append, List.length_append, List.flatMap_singleton]
  omega

theorem counted_run {objects : State} {events : List SimulatorEvent} {ts : List Trace}
    (hrun : runAll SimulatorEvent.step events (start objects) = .ok (ts, s)) :
    s.process.Counted := by
  have hall : ∀ e ∈ processPart.steps ts, True := fun _ _ => trivial
  exact runAll_invariant (fun _ _ _ _ _ h hstep => h.step hstep) hall Process.counted_start
    (processPart.run hrun)

/-- Nothing is handed over before the first iteration. -/
theorem took_eq_nil {objects : State} {events : List SimulatorEvent} {ts : List Trace}
    (hrun : runAll SimulatorEvent.step events (start objects) = .ok (ts, s))
    (hnone : s.process.iterations = 0) : ts.flatMap Trace.took = [] := by
  refine runAll_history (P := fun _ ts s => s.process.iterations = 0 → ts.flatMap Trace.took = [])
    (fun _ => rfl) ?_ hrun hnone
  intro events ts s₁ event t s₂ hbefore hnil hstep hnone
  have hle : s₁.process.iterations ≤ s₂.process.iterations := by
    have hrun := processPart.project hstep
    exact Process.iterations_le hrun
  have hfirst : s₁.process.iterations = 0 := by omega
  have htook : t.took = [] := by
    cases steps_of_step hstep with
    | called _ _ _ hasked => simp [Trace.took, incoming?_of_asked hasked]
    | handed _ _ _ _ _ hpc =>
      -- in `dispatch` an iteration has begun
      have hbegun := (counted_run hbefore).iterating (Or.inl hpc)
      omega
    | _ => rfl
  rw [List.flatMap_append, List.flatMap_singleton, hnil hfirst, htook, List.append_nil]

end Simulator

/-- The step of the main thread that ended the loop of `dispatch` in the current iteration has found
nothing that was waiting: all that had been read before had been handed over, and nothing has been
handed over since. -/
def Drained (objects : State) (events : List SimulatorEvent) (ts : List Trace) (s : Simulator) :
    Prop :=
  ∃ before env during ts₀ t ts₁ s₀ s₁, events = before ++ .main env :: during ∧
    ts = ts₀ ++ t :: ts₁ ∧
    runAll SimulatorEvent.step before (Simulator.start objects) = .ok (ts₀, s₀) ∧
    (SimulatorEvent.main env).step s₀ = .ok (t, s₁) ∧
    s₀.process.pc = .dispatch ∧ s₀.inbox = [] ∧ s₁.process.pc = .update ∧
    s₁.process.iterations = s.process.iterations ∧
    ts₀.flatMap Trace.took = before.flatMap SimulatorEvent.arrived ∧
    (t :: ts₁).flatMap Trace.took = []

/-- In whatever way messages arrive, signals are raised and the script is run, everything that has
been read is handed over exactly once, in the order of arrival, and what becomes of the objects is
what they do with this and with what the script and Lua ask for; and `Update` is called after all
that was read before the loop of `dispatch` ended. -/
theorem simulator_hands_over {objects : State} {events : List SimulatorEvent} {ts : List Trace}
    {s : Simulator}
    (hrun : runAll SimulatorEvent.step events (Simulator.start objects) = .ok (ts, s)) :
    events.flatMap SimulatorEvent.arrived = ts.flatMap Trace.took ++ s.inbox ∧
      runAll requestExec (Simulator.objectsPart.steps ts) objects =
        .ok (Simulator.objectsPart.replies ts, s.objects) ∧
      (s.process.pc = .update → Drained objects events ts s) := by
  refine ⟨Simulator.inbox_run hrun, Simulator.objectsPart.run hrun, runAll_history
    (P := fun events ts s => s.process.pc = .update → Drained objects events ts s)
    (fun hpc => by cases hpc) ?_ hrun⟩
  intro events ts s event t s' hbefore hearlier hstep hupdate
  obtain ⟨hiterations, htook, hold | ⟨⟨env, rfl⟩, hdispatch, hinbox⟩⟩ :=
    Simulator.update_of_step (Simulator.agrees_run hbefore) hstep hupdate
  · -- `Update` was called before this event
    obtain ⟨before, env, during, ts₀, t₁, ts₁, s₀, s₁, rfl, rfl, hrun₀, hstep₁, hpc, hempty, hpc₁,
      hsame, hall, hnone⟩ := hearlier hold
    refine ⟨before, env, during ++ [event], ts₀, t₁, ts₁ ++ [t], s₀, s₁, ?_, ?_, hrun₀, hstep₁, hpc,
      hempty, hpc₁, ?_, hall, ?_⟩
    · rw [List.append_assoc, List.cons_append]
    · rw [List.append_assoc, List.cons_append]
    · rw [hsame, hiterations]
    · rw [← List.cons_append, List.flatMap_append, hnone, List.flatMap_singleton, htook,
        List.append_nil]
  · refine ⟨events, env, [], ts, t, [], s, s', rfl, rfl, hbefore, hstep, hdispatch, hinbox, hupdate,
      rfl, ?_, ?_⟩
    · have hall := Simulator.inbox_run hbefore
      rw [hinbox, List.append_nil] at hall
      exact hall.symm
    · rw [List.flatMap_singleton, htook]

/-- The theorem when `Update` is about to be called, after the question of a client. -/
theorem simulator_hands_over_lamp : ∃ ts s,
    runAll SimulatorEvent.step (lampStarts ++ lampAnswers.take 3) (Simulator.start State.empty) =
      .ok (ts, s) ∧
    (lampStarts ++ lampAnswers.take 3).flatMap SimulatorEvent.arrived =
      ts.flatMap Trace.took ++ s.inbox ∧
    Drained State.empty (lampStarts ++ lampAnswers.take 3) ts s := by
  obtain ⟨⟨ts, s⟩, hrun, hpc⟩ := exists_of_toOption_map (show (runAll SimulatorEvent.step
    (lampStarts ++ lampAnswers.take 3) (Simulator.start State.empty)).toOption.map
      (fun r => r.2.process.pc) = some .update by decide +kernel)
  obtain ⟨hqueue, -, hdrained⟩ := simulator_hands_over hrun
  exact ⟨ts, s, hrun, hqueue, hdrained hpc⟩

/-! ## Exits -/

namespace Simulator

variable {s s' : Simulator} {event : SimulatorEvent} {t : Trace}

/-- `main` itself ends the process at the end of the connection only. -/
theorem ended_of_mainStep {env : MainEnv} {ending : Ending} (hstep : s.mainStep env = .ok (t, s'))
    (hended : s'.pc = .ended ending) : ending.CausedBy (.main env) s := by
  unfold mainStep at hstep
  split at hstep <;> rename_i hpc
  case h_8 =>
    split at hstep
    · rename_i hdispatch
      split at hstep
      · obtain ⟨r, process, -, rfl, rfl⟩ := processStep_eq_ok.mp hstep
        rw [hpc] at hended
        cases hended
      · rename_i incoming inbox hinbox
        obtain ⟨r, objects, pc, -, -, rfl, rfl | ⟨rfl, rfl⟩⟩ := dispatch_eq_ok hstep
        · rw [hpc] at hended
          cases hended
        · cases hended
          exact ⟨⟨env, rfl⟩, hdispatch, by rw [hinbox]; rfl⟩
    · cases hstep
      cases hended
    · cases hstep
      cases hended
    · obtain ⟨r, process, -, rfl, rfl⟩ := processStep_eq_ok.mp hstep
      rw [hpc] at hended
      cases hended
  case h_1 | h_5 | h_7 =>
    obtain ⟨⟨_, _⟩, -, hstep⟩ := bind_eq_ok.mp hstep
    dsimp only at hstep
    split_ifs at hstep <;> cases hstep <;> cases hended
  case h_9 =>
    obtain ⟨⟨_, _⟩, -, hstep⟩ := bind_eq_ok.mp hstep
    obtain ⟨⟨_, _⟩, -, hstep⟩ := bind_eq_ok.mp hstep
    cases hstep
    cases hended
  case h_6 | h_10 => split at hstep <;> cases hstep <;> cases hended
  case h_2 | h_4 | h_11 => split_ifs at hstep <;> cases hstep <;> cases hended
  case h_3 =>
    cases hstep
    cases hended
  case h_12 | h_13 => cases hstep

/-- Nothing happens any more when the process has ended. -/
theorem not_ended_of_step {ending : Ending} (hstep : event.step s = .ok (t, s')) :
    s.pc ≠ .ended ending := by
  intro hpc
  cases event with
  | main env =>
    simp only [SimulatorEvent.step, mainStep, hpc] at hstep
    cases hstep
  | _ =>
    simp [SimulatorEvent.step, runsLua, finalises, reads, runs, hpc] at hstep

theorem ended_of_step {ending : Ending} (hstep : event.step s = .ok (t, s'))
    (hended : s'.pc = .ended ending) : ending.CausedBy event s := by
  by_cases hmain : ∃ env, event = .main env
  · obtain ⟨env, rfl⟩ := hmain
    exact ended_of_mainStep hstep hended
  · cases aside_of_step (not_exists.mp hmain) hstep with
    | stays hpc => exact absurd (hpc.symm.trans hended) (not_ended_of_step hstep)
    | stopped signal r hpc => exact absurd (hpc.symm.trans hended) (not_ended_of_step hstep)
    | ended ending' hpc _ hcaused =>
      obtain rfl := SimulatorPc.ended.inj (hpc.symm.trans hended)
      exact hcaused

end Simulator

/-- If `main` ends the program, it is with status 0 when it has been asked to stop, each iteration
having called `Update` once, or with status 1 when it has not come to its main loop: then nothing
has been handed over, and `Update` has not been called. Anything else that ends the program is the
end of the connection that the library has read, a call of `os.exit`, or a signal without a
handler. -/
theorem simulator_exits {objects : State} {events : List SimulatorEvent} {ts : List Trace}
    {s : Simulator}
    (hrun : runAll SimulatorEvent.step events (Simulator.start objects) = .ok (ts, s)) :
    (∀ status, s.pc = .exited status →
      (status = 0 ∧ 0 < s.process.stops ∧
        (ts.flatMap Trace.updates).length = s.process.iterations) ∨
      (status = 1 ∧ s.process = Process.start ∧ ts.flatMap Trace.took = [] ∧
        ts.flatMap Trace.updates = [])) ∧
    ∀ ending, s.pc = .ended ending → ∃ before event ts₀ t s₀, events = before ++ [event] ∧
      ts = ts₀ ++ [t] ∧
      runAll SimulatorEvent.step before (Simulator.start objects) = .ok (ts₀, s₀) ∧
      event.step s₀ = .ok (t, s) ∧ ending.CausedBy event s₀ := by
  constructor
  · intro status hexit
    have hagrees := Simulator.agrees_run hrun
    rw [hexit] at hagrees
    have hupdates := Simulator.updates_run hrun
    rcases hagrees with ⟨hstatus, hprocess⟩ | ⟨hstatus, hpc⟩
    · refine Or.inr ⟨hstatus, hprocess, ?_, ?_⟩
      · exact Simulator.took_eq_nil hrun (by rw [hprocess]; rfl)
      · rw [hprocess] at hupdates
        exact List.eq_nil_of_length_eq_zero hupdates
    · refine Or.inl ⟨hstatus, (Simulator.counted_run hrun).ended hpc, ?_⟩
      have hpending : s.process.pending = 0 := by
        rw [Process.pending, hpc]
        rfl
      rw [hpending] at hupdates
      exact hupdates
  · refine runAll_history (P := fun events ts s => ∀ ending, s.pc = .ended ending →
      ∃ before event ts₀ t s₀, events = before ++ [event] ∧ ts = ts₀ ++ [t] ∧
        runAll SimulatorEvent.step before (Simulator.start objects) = .ok (ts₀, s₀) ∧
        event.step s₀ = .ok (t, s) ∧ ending.CausedBy event s₀) ?_ ?_ hrun
    · intro ending hpc
      cases hpc
    intro events ts s₁ event t s₂ hbefore _ hstep ending hended
    exact ⟨events, event, ts, t, s₁, rfl, rfl, hbefore, hstep,
      Simulator.ended_of_step hstep hended⟩

/-- A signal comes in the first iteration, and the main thread comes to `lua_close`. -/
def lampStops : List SimulatorEvent := .raised .sigterm :: List.replicate 4 (.main .willing)

/-- `lua_close` finalises the lamp, and the program exits. -/
def lampCloses : List SimulatorEvent := [.finalise (.device 0), .main .willing]

/-- The theorem for the run that ends so. -/
theorem simulator_exits_lamp : ∃ ts s,
    runAll SimulatorEvent.step (lampStarts ++ lampAnswers ++ lampStops ++ lampCloses)
      (Simulator.start State.empty) = .ok (ts, s) ∧
    0 < s.process.stops ∧ (ts.flatMap Trace.updates).length = s.process.iterations := by
  obtain ⟨⟨ts, s⟩, hrun, hpc⟩ := exists_of_toOption_map (show (runAll SimulatorEvent.step
    (lampStarts ++ lampAnswers ++ lampStops ++ lampCloses)
      (Simulator.start State.empty)).toOption.map (fun r => r.2.pc) = some (.exited 0) by
      decide +kernel)
  rcases (simulator_exits hrun).1 0 hpc with ⟨-, hstops, hupdates⟩ | ⟨hstatus, -⟩
  · exact ⟨ts, s, hrun, hstops, hupdates⟩
  · cases hstatus

/-! ## Requests to stop -/

/-- The loop goes on until it has ended. -/
theorem Process.exists_mainStep {p : Process} (h : p.pc ≠ .cleanup) :
    ∃ q, mainStep p = .ok q := by
  obtain ⟨pc, running, iterations, stops⟩ := p
  cases pc with
  | install signal => cases signal <;> exact ⟨_, rfl⟩
  | testRunning => cases running <;> exact ⟨_, rfl⟩
  | cleanup => exact absurd rfl h
  | _ => exact ⟨_, rfl⟩

/-- How many steps the main thread has left at most, once the loop has been stopped. -/
def Simulator.stepsLeft (s : Simulator) : ℕ :=
  match s.pc with
  | .exited _ | .ended _ => 0
  | .closeLua _ => 1
  | .cleanupSimulator _ => 2
  | .runUpdate _ => 6
  | _ =>
    match s.process.pc with
    | .cleanup => 3
    | .testRunning => 4
    | .msleep => 5
    | .update => 7
    | _ => s.inbox.length + 8

/-- The main thread has nothing left to do, or waits for `lua_close`. -/
def Simulator.Waits (s : Simulator) : Prop :=
  match s.pc with
  | .exited _ | .ended _ => True
  | .closeLua _ => ¬ s.objects.userdata ⊆ s.collected
  | _ => False

/-- Whether an event is a step of the main thread. -/
def SimulatorEvent.isMain : SimulatorEvent → Bool
  | .main _ => true
  | _ => false

namespace Simulator

variable {s s' : Simulator} {event : SimulatorEvent} {t : Trace}

theorem orHalt_ne_blocked {α : Type} (x : Outcome α) : orHalt x ≠ .error .blocked := by
  cases x <;> exact nofun

theorem perform_ne_blocked {request : Request} : s.perform request ≠ .error .blocked :=
  bind_ne_error (orHalt_ne_blocked _) fun _ _ h => by cases h

theorem dispatch_ne_blocked {incoming : Incoming} : dispatch incoming s ≠ .error .blocked := by
  cases incoming <;> exact perform_ne_blocked

theorem processStep_ne_blocked (h : s.process.pc ≠ .cleanup) :
    s.processStep .main ≠ .error .blocked := by
  obtain ⟨q, hmain⟩ := Process.exists_mainStep h
  simp only [processStep, ProcessEvent.step, hmain, ok_bind]
  intro hblocked
  cases hblocked

/-- Until then the main thread can go on. -/
theorem mainStep_ne_blocked {env : MainEnv} (h : s.pc.Agrees s.process) (hgoes : ¬ s.Waits) :
    s.mainStep env ≠ .error .blocked := by
  have hjump : ∀ pc s₁, jump pc s₁ ≠ .error .blocked := fun _ _ h => by cases h
  unfold Waits at hgoes
  unfold mainStep
  split <;> rename_i heq <;> rw [heq] at h hgoes
  · refine bind_ne_error (orHalt_ne_blocked _) fun ⟨accepted, program⟩ _ => ?_
    dsimp only
    split_ifs <;> exact hjump _ _
  · split_ifs <;> exact hjump _ _
  · exact hjump _ _
  · split_ifs <;> exact hjump _ _
  · refine bind_ne_error ?_ fun ⟨answered, s₁⟩ _ => ?_
    · exact bind_ne_error (orHalt_ne_blocked _) fun _ _ h => by cases h
    · dsimp only
      split_ifs <;> exact hjump _ _
  · split <;> exact hjump _ _
  · refine bind_ne_error (orHalt_ne_blocked _) fun ⟨loaded, host⟩ _ => ?_
    dsimp only
    split_ifs <;> exact hjump _ _
  · split
    · rename_i hdispatch
      split
      · exact processStep_ne_blocked (by rw [hdispatch]; decide)
      · exact dispatch_ne_blocked
    · exact hjump _ _
    · exact hjump _ _
    · rename_i hcleanup
      exact processStep_ne_blocked hcleanup
  · refine bind_ne_error (orHalt_ne_blocked _) fun ⟨called, host⟩ _ => ?_
    refine bind_ne_error (processStep_ne_blocked ?_) fun _ _ h => by cases h
    have hupdate : s.process.pc = .update := h
    exact fun hcleanup => absurd (hcleanup.symm.trans hupdate) (by decide)
  · split <;> exact hjump _ _
  · rw [if_pos (not_not.mp hgoes)]
    exact hjump _ _
  · exact absurd trivial hgoes
  · exact absurd trivial hgoes

/-- A step of the main thread is one less that is left. -/
theorem stepsLeft_mainStep {env : MainEnv} {n : ℕ} (h : s.pc.Agrees s.process)
    (hstopped : StoppedAt n s.process) (hstep : s.mainStep env = .ok (t, s')) :
    s'.stepsLeft + 1 ≤ s.stepsLeft := by
  obtain ⟨hloop, hflag, -⟩ := hstopped
  have hstarted : s.process ≠ Process.start := by
    intro hstart
    rw [hstart] at hloop
    exact hloop
  unfold mainStep at hstep
  split at hstep <;> rename_i hpc <;> rw [hpc] at h
  case h_8 =>
    split at hstep
    · rename_i hdispatch
      split at hstep
      · rename_i hinbox
        obtain ⟨r, process, hmain, rfl, rfl⟩ := processStep_eq_ok.mp hstep
        simp only [ProcessEvent.step, BleSim.mainStep, hdispatch, ok_bind] at hmain
        cases hmain
        simp [stepsLeft, hpc, hdispatch, hinbox]
      · rename_i hinbox
        obtain ⟨r, objects, pc, -, -, rfl, rfl | ⟨-, rfl⟩⟩ := dispatch_eq_ok hstep <;>
          simp only [stepsLeft, hpc, hdispatch, hinbox, List.length_cons] <;>
          omega
    · rename_i hupdate
      cases hstep
      simp [stepsLeft, hpc, hupdate]
    · rename_i hcleanup
      cases hstep
      simp [stepsLeft, hpc, hcleanup]
    · obtain ⟨r, process, hmain, rfl, rfl⟩ := processStep_eq_ok.mp hstep
      cases hlast : s.process.pc with
      | install | setRunning => exact absurd hloop (by rw [hlast]; exact id)
      | testRunning =>
        -- the flag is false
        simp only [ProcessEvent.step, BleSim.mainStep, hlast, hflag, Bool.false_eq_true, if_false,
          ok_bind] at hmain
        cases hmain
        simp [stepsLeft, hpc, hlast]
      | msleep =>
        simp only [ProcessEvent.step, BleSim.mainStep, hlast, ok_bind] at hmain
        cases hmain
        simp [stepsLeft, hpc, hlast]
      | dispatch | update | cleanup => contradiction
  case h_9 =>
    obtain ⟨⟨called, host⟩, -, hstep⟩ := bind_eq_ok.mp hstep
    obtain ⟨⟨trace, s₁⟩, hrun, hstep⟩ := bind_eq_ok.mp hstep
    obtain ⟨r, process, hmain, rfl, rfl⟩ := processStep_eq_ok.mp hrun
    cases hstep
    simp [stepsLeft, hpc, Process.msleep_of_update hmain h]
  case h_10 =>
    split at hstep <;> cases hstep <;> simp [stepsLeft, hpc]
  case h_11 =>
    split_ifs at hstep
    cases hstep
    simp [stepsLeft, hpc]
  case h_12 | h_13 => cases hstep
  all_goals exact absurd h hstarted

/-- Only what arrives makes more steps. -/
theorem stepsLeft_step {n : ℕ} (h : s.pc.Agrees s.process) (hstopped : StoppedAt n s.process)
    (hstep : event.step s = .ok (t, s')) :
    [event].countP SimulatorEvent.isMain + s'.stepsLeft ≤ s.stepsLeft + event.arrived.length := by
  by_cases hmain : ∃ env, event = .main env
  · obtain ⟨env, rfl⟩ := hmain
    have hleft := stepsLeft_mainStep h hstopped hstep
    rw [show [SimulatorEvent.main env].countP SimulatorEvent.isMain = 1 from rfl, Nat.add_comm]
    exact hleft
  · have hnone : [event].countP SimulatorEvent.isMain = 0 := by
      cases event with
      | main env => exact absurd ⟨env, rfl⟩ hmain
      | _ => rfl
    rw [hnone, Nat.zero_add]
    cases aside_of_step (not_exists.mp hmain) hstep with
    | stays hpc hprocess hinbox =>
      simp only [stepsLeft, hpc, hprocess, hinbox, List.length_append]
      split <;>
        first
          | omega
          | split <;> omega
    | stopped signal r hpc hinbox hraised =>
      obtain ⟨-, hprocess⟩ := Process.of_raised hraised
      simp only [stepsLeft, hpc, hinbox, hprocess, stopSimulator]
      exact Nat.le_add_right _ _
    | ended ending hpc =>
      simp only [stepsLeft, hpc]
      exact Nat.zero_le _

theorem stepsLeft_le : s.stepsLeft ≤ s.inbox.length + 8 := by
  unfold stepsLeft
  split <;>
    first
      | omega
      | split <;> omega

/-- What holds of the main thread while the loop is stopped. -/
def Stopping (n : ℕ) (s : Simulator) : Prop := s.pc.Agrees s.process ∧ StoppedAt n s.process

theorem Stopping.step {n : ℕ} (h : s.Stopping n) (hstep : event.step s = .ok (t, s')) :
    s'.Stopping n := by
  refine ⟨agrees_step h.1 hstep, ?_⟩
  have hall : ∀ e ∈ t.process.map Prod.fst, True := fun _ _ => trivial
  exact runAll_invariant (fun _ _ _ _ _ hp hq => StoppedAt.step hp hq) hall h.2
    (processPart.project hstep)

theorem Stopping.run {n : ℕ} {events : List SimulatorEvent} {ts : List Trace} (h : s.Stopping n)
    (hrun : runAll SimulatorEvent.step events s = .ok (ts, s')) :
    s'.Stopping n ∧ events.countP SimulatorEvent.isMain + s'.stepsLeft ≤
      s.stepsLeft + (events.flatMap SimulatorEvent.arrived).length := by
  refine runAll_history (P := fun events _ s' => s'.Stopping n ∧
    events.countP SimulatorEvent.isMain + s'.stepsLeft ≤
      s.stepsLeft + (events.flatMap SimulatorEvent.arrived).length) ⟨h, ?_⟩ ?_ hrun
  · exact Nat.le_of_eq (Nat.zero_add _)
  · intro events ts s₁ event t s₂ _ ⟨hstopping, hle⟩ hstep
    have hnext := stepsLeft_step hstopping.1 hstopping.2 hstep
    rw [List.countP_append, List.flatMap_append, List.length_append, List.flatMap_singleton]
    exact ⟨hstopping.step hstep, by omega⟩

/-- A loop that has begun has its handlers. -/
theorem handled_of_inLoop {signal : StopSignal} (hloop : s.process.pc.InLoop)
    (hstep : (SimulatorEvent.raised signal).step s = .ok (t, s')) :
    s'.pc = s.pc ∧ s'.inbox = s.inbox ∧ s'.process = stopSimulator s.process := by
  have hhandles : s.process.pc.handles signal = true := by
    cases hpc : s.process.pc with
    | install signal' =>
      rw [hpc] at hloop
      exact absurd hloop id
    | _ => rfl
  simp only [SimulatorEvent.step, hhandles, if_true] at hstep
  split_ifs at hstep
  obtain ⟨r, process, hraised, rfl, rfl⟩ := processStep_eq_ok.mp hstep
  exact ⟨rfl, rfl, (Process.of_raised hraised).2⟩

end Simulator

/-- A request to stop that comes while the loop runs is served: no iteration begins any more, and
the main thread takes at most one step for each message that is waiting or arrives and eight others.
It is stuck only when it has exited with status 0, when something else has ended the process, or as
long as `lua_close` has userdata left to finalise. (What Lua code does before it returns is no step
of the main thread.) -/
theorem simulator_stops {objects : State} {before after : List SimulatorEvent} {signal : StopSignal}
    {ts ts' : List Trace} {s s' : Simulator}
    (hbefore : runAll SimulatorEvent.step before (Simulator.start objects) = .ok (ts, s))
    (hloop : s.process.pc.InLoop)
    (hafter : runAll SimulatorEvent.step (.raised signal :: after) s = .ok (ts', s')) :
    s'.process.iterations = s.process.iterations ∧
      after.countP SimulatorEvent.isMain ≤
        s.inbox.length + (after.flatMap SimulatorEvent.arrived).length + 8 ∧
      ∀ env, s'.mainStep env = .error .blocked → s'.pc = .exited 0 ∨
        (∃ ending, s'.pc = .ended ending) ∨
        s'.pc = .closeLua 0 ∧ ¬ s'.objects.userdata ⊆ s'.collected := by
  obtain ⟨t, s₁, ts₁, hraised, hrun, rfl⟩ := runAll_cons_eq_ok.mp hafter
  obtain ⟨hpc, hinbox, hprocess⟩ := Simulator.handled_of_inLoop hloop hraised
  have hstopping : s₁.Stopping s.process.iterations := by
    refine ⟨Simulator.agrees_step (Simulator.agrees_run hbefore) hraised, ?_⟩
    rw [hprocess]
    exact ⟨hloop, rfl, rfl⟩
  obtain ⟨⟨hagrees', hstopped⟩, hle⟩ := hstopping.run hrun
  refine ⟨hstopped.2.2, ?_, fun env hblocked => ?_⟩
  · have hleft : s₁.stepsLeft ≤ s₁.inbox.length + 8 := Simulator.stepsLeft_le
    rw [hinbox] at hleft
    omega
  · have hwaits : s'.Waits := by
      by_contra hgoes
      exact Simulator.mainStep_ne_blocked hagrees' hgoes hblocked
    -- a loop that has begun ends with status 0
    have hzero : ∀ status, (status = 1 ∧ s'.process = Process.start) ∨
        (status = 0 ∧ s'.process.pc = .cleanup) → status = 0 := by
      rintro status (⟨-, hstart⟩ | ⟨hstatus, -⟩)
      · have hloop' := hstopped.1
        rw [hstart] at hloop'
        exact absurd hloop' id
      · exact hstatus
    unfold Simulator.Waits at hwaits
    split at hwaits
    · rename_i status hexited
      rw [hexited] at hagrees'
      rw [hexited, hzero status hagrees']
      exact Or.inl rfl
    · rename_i ending hended
      exact Or.inr (Or.inl ⟨ending, hended⟩)
    · rename_i status hcloses
      rw [hcloses] at hagrees'
      rw [hcloses, hzero status hagrees']
      exact Or.inr (Or.inr ⟨rfl, hwaits⟩)
    · exact absurd hwaits id

/-- The theorem for a signal in the first iteration. -/
theorem simulator_stops_lamp : ∃ ts s ts' s',
    runAll SimulatorEvent.step (lampStarts ++ lampAnswers) (Simulator.start State.empty) =
      .ok (ts, s) ∧
    runAll SimulatorEvent.step (lampStops ++ lampCloses) s = .ok (ts', s') ∧
    s'.process.iterations = s.process.iterations ∧ 5 ≤ s.inbox.length + 0 + 8 := by
  obtain ⟨⟨ts'', s'⟩, hrun⟩ := exists_of_isOk (show (runAll SimulatorEvent.step
    ((lampStarts ++ lampAnswers) ++ (lampStops ++ lampCloses)) (Simulator.start State.empty)).isOk =
      true by decide +kernel)
  obtain ⟨ts, s, ts', hbefore, hafter, -⟩ := runAll_append_eq_ok.mp hrun
  have hloop : s.process.pc.InLoop := by
    obtain ⟨⟨_, _⟩, hrun', hpc⟩ := exists_of_toOption_map (show (runAll SimulatorEvent.step
      (lampStarts ++ lampAnswers) (Simulator.start State.empty)).toOption.map
        (fun r => r.2.process.pc) = some .msleep by decide +kernel)
    cases hbefore.symm.trans hrun'
    rw [hpc]
    trivial
  obtain ⟨hsame, hbound, -⟩ := simulator_stops hbefore hloop hafter
  exact ⟨ts, s, ts', s', hbefore, hafter, hsame, hbound⟩

end BleSim
