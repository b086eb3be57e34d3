import BleSim.Lib.Outcome

/-!
# The main loop and its signals (`main.c`, `dbusutils.c`)

`main` from the point where it installs `stop_simulator` as the handler of three signals, and
`dbusutils_mainloop_run`. A handler can run between any two steps of the main thread, any number
of times; it and the main thread write the same flag.
-/

namespace BleSim

open Outcomes

/-- The signals `main` installs a handler for, in this order. -/
inductive StopSignal where
  | sigint
  | sigquit
  | sigterm
deriving DecidableEq, Repr

/-- What the main thread does next: install a handler, or a line of `dbusutils_mainloop_run`. -/
inductive MainPc where
  | install (signal : StopSignal)
  | setRunning
  | testRunning
  | dispatch
  | update
  | msleep
  | cleanup
deriving DecidableEq, Repr

/-- The main thread, the flag `dbusutils_mainloop_running`, how many iterations of the loop have
begun, and how often `stop_simulator` has run. -/
structure Process where
  pc : MainPc
  mainloopRunning : Bool
  iterations : ℕ
  stops : ℕ
deriving DecidableEq, Repr

/-- The process when `main` comes to its first `signal`. -/
def Process.start : Process := ⟨.install .sigint, false, 0, 0⟩

/-- Why an event cannot happen. -/
inductive Blocked where
  | returned
  | noHandler
deriving DecidableEq, Repr

/-- One step of the main thread. The loop ends with a step to `cleanup_simulator`. -/
def mainStep (p : Process) : Except Blocked Process :=
  match p.pc with
  | .install .sigint => .ok { p with pc := .install .sigquit }
  | .install .sigquit => .ok { p with pc := .install .sigterm }
  | .install .sigterm => .ok { p with pc := .setRunning }
  | .setRunning => .ok { p with mainloopRunning := true, pc := .testRunning }
  | .testRunning =>
    if p.mainloopRunning then .ok { p with iterations := p.iterations + 1, pc := .dispatch }
    else .ok { p with pc := .cleanup }
  | .dispatch => .ok { p with pc := .update }
  | .update => .ok { p with pc := .msleep }
  | .msleep => .ok { p with pc := .testRunning }
  | .cleanup => .error .returned

/-- `stop_simulator`. -/
def stopSimulator (p : Process) : Process :=
  { p with mainloopRunning := false, stops := p.stops + 1 }

/-- Whether the handler of a signal has been installed. -/
def MainPc.handles (signal : StopSignal) : MainPc → Bool
  | .install .sigint => false
  | .install .sigquit => signal == .sigint
  | .install .sigterm => signal != .sigterm
  | _ => true

/-- What can happen: the main thread goes on, or a signal arrives. -/
inductive ProcessEvent where
  | main
  | raised (signal : StopSignal)
deriving DecidableEq, Repr

/-- The process after an event. -/
def ProcessEvent.step (event : ProcessEvent) (p : Process) : Except Blocked (Unit × Process) :=
  match event with
  | .main => do
    let p ← mainStep p
    .ok ((), p)
  | .raised signal => if p.pc.handles signal then .ok ((), stopSimulator p) else .error .noHandler

/-- The events lead from one state of the process to another. -/
def Leads (p : Process) (events : List ProcessEvent) (q : Process) : Prop :=
  ∃ replies, runAll ProcessEvent.step events p = .ok (replies, q)

/-! ## Stop requests -/

/-- The main thread has begun to run the loop. -/
def MainPc.InLoop : MainPc → Prop
  | .install _ | .setRunning => False
  | _ => True

/-- A stop request has not been lost: if there was one, the flag is false, and no iteration of the
loop begins any more. -/
def StopKept (p : Process) : Prop :=
  0 < p.stops →
    p.mainloopRunning = false ∧ ∀ events q, Leads p events q → q.iterations = p.iterations

/-- The loop has begun, its flag is false, and this many iterations have begun. -/
def StoppedAt (iterations : ℕ) (p : Process) : Prop :=
  p.pc.InLoop ∧ p.mainloopRunning = false ∧ p.iterations = iterations

/-- When the loop has begun, nothing sets the flag. -/
theorem StoppedAt.step {n : ℕ} {p q : Process} {event : ProcessEvent} {r : Unit} (h : StoppedAt n p)
    (hstep : event.step p = .ok (r, q)) : StoppedAt n q := by
  obtain ⟨hloop, hstopped, hcount⟩ := h
  cases event with
  | main =>
    obtain ⟨q', hmain, hstep⟩ := bind_eq_ok.mp hstep
    cases hstep
    obtain ⟨pc, running, iterations, stops⟩ := p
    -- the steps before the loop are excluded, and the last one ends it
    cases pc with
    | install signal => exact hloop.elim
    | setRunning => exact hloop.elim
    | testRunning =>
      cases hstopped
      cases hmain
      exact ⟨trivial, rfl, hcount⟩
    | dispatch | update | msleep =>
      cases hmain
      exact ⟨trivial, hstopped, hcount⟩
    | cleanup => cases hmain
  | raised signal =>
    simp only [ProcessEvent.step, ite_eq_ok] at hstep
    obtain ⟨-, hstep⟩ | ⟨-, hstep⟩ := hstep
    · cases hstep
      exact ⟨hloop, rfl, hcount⟩
    · cases hstep

/-- A request made while the loop runs is kept. -/
theorem StoppedAt.stopKept {n : ℕ} {p : Process} (h : StoppedAt n p) : StopKept p := by
  refine fun _ => ⟨h.2.1, fun events q ⟨replies, hrun⟩ => ?_⟩
  have hall : AllSteps ProcessEvent.step (fun _ _ => True) events p :=
    allSteps_of_forall (fun _ _ => trivial) p
  have hstopped : StoppedAt n q :=
    AllSteps.invariant (fun _ _ _ _ _ hp hstep => StoppedAt.step hp hstep) hall h hrun
  exact hstopped.2.2.trans h.2.2.symm

/-- Left alone, the main thread comes to the loop, sets the flag and begins an iteration. -/
theorem leads_to_iteration {p : Process} (hearly : ¬ p.pc.InLoop) :
    ∃ events q, Leads p events q ∧ q.iterations = p.iterations + 1 := by
  obtain ⟨pc, running, iterations, stops⟩ := p
  cases pc with
  | install signal =>
    cases signal with
    | sigint => exact ⟨[.main, .main, .main, .main, .main], _, ⟨_, rfl⟩, rfl⟩
    | sigquit => exact ⟨[.main, .main, .main, .main], _, ⟨_, rfl⟩, rfl⟩
    | sigterm => exact ⟨[.main, .main, .main], _, ⟨_, rfl⟩, rfl⟩
  | setRunning => exact ⟨[.main, .main], _, ⟨_, rfl⟩, rfl⟩
  | _ => exact absurd trivial hearly

/-- A request made before the loop has begun is lost. -/
theorem not_stopKept_of_early {p : Process} (hearly : ¬ p.pc.InLoop) (hstops : 0 < p.stops) :
    ¬ StopKept p := by
  intro h
  obtain ⟨events, q, hleads, hcount⟩ := leads_to_iteration hearly
  have hsame := (h hstops).2 events q hleads
  omega

/-- The condition on an event: no signal arrives before the loop has begun. -/
def ProcessEvent.Late : ProcessEvent → Process → Prop
  | .main, _ => True
  | .raised _, p => p.pc.InLoop

/-- Either there was no request yet, or the loop has begun and the flag is false. -/
def NoneLost (p : Process) : Prop := p.stops = 0 ∨ StoppedAt p.iterations p

/-- Late events lose no request. -/
theorem NoneLost.step {event : ProcessEvent} {p q : Process} {r : Unit} (h : NoneLost p)
    (hlate : event.Late p) (hstep : event.step p = .ok (r, q)) : NoneLost q := by
  rcases h with hnone | hstopped
  · cases event with
    | main =>
      obtain ⟨q', hmain, hstep⟩ := bind_eq_ok.mp hstep
      cases hstep
      refine Or.inl (Eq.trans ?_ hnone)
      unfold mainStep at hmain
      split at hmain
      case h_5 => split_ifs at hmain <;> cases hmain <;> rfl
      all_goals cases hmain <;> rfl
    | raised signal =>
      simp only [ProcessEvent.step, ite_eq_ok] at hstep
      obtain ⟨-, hstep⟩ | ⟨-, hstep⟩ := hstep
      · cases hstep
        exact Or.inr ⟨hlate, rfl, rfl⟩
      · cases hstep
  · obtain ⟨hloop, hflag, -⟩ := hstopped.step hstep
    exact Or.inr ⟨hloop, hflag, rfl⟩

theorem NoneLost.stopKept {p : Process} (h : NoneLost p) : StopKept p := by
  rcases h with hnone | hstopped
  · intro hstops
    omega
  · exact hstopped.stopKept

/-- In a run of the process from the point where it installs its handlers, no stop request is lost
in any state exactly when no signal arrives before the loop has begun. -/
theorem stopKept_iff {events : List ProcessEvent}
    (hrun : (runAll ProcessEvent.step events Process.start).isOk = true) :
    (∀ before p, before <+: events → Leads Process.start before p → StopKept p) ↔
      AllSteps ProcessEvent.step ProcessEvent.Late events Process.start := by
  constructor
  · intro h
    refine allSteps_iff.mpr fun before event after replies p hsplit hbefore => ?_
    cases event with
    | main => trivial
    | raised signal =>
      by_contra hearly
      -- the state after the early signal is one of the states of the run
      obtain ⟨⟨replies', q⟩, hok⟩ := exists_of_isOk hrun
      rw [hsplit] at hok
      obtain ⟨r₁, p', r₂, hbefore', hafter, -⟩ := runAll_append_eq_ok.mp hok
      have hsame : p = p' := congrArg Prod.snd (Except.ok.inj (hbefore.symm.trans hbefore'))
      subst hsame
      obtain ⟨r, p₁, rs, hstep, -, -⟩ := runAll_cons_eq_ok.mp hafter
      have hleads : Leads Process.start (before ++ [.raised signal]) p₁ :=
        ⟨_, runAll_append_eq_ok.mpr ⟨r₁, _, [r], hbefore', runAll_cons_eq_ok.mpr
          ⟨r, p₁, [], hstep, rfl, rfl⟩, rfl⟩⟩
      have hinitial : before ++ [.raised signal] <+: events :=
        ⟨after, by rw [hsplit, List.append_assoc]; rfl⟩
      simp only [ProcessEvent.step, ite_eq_ok] at hstep
      obtain ⟨-, hstep⟩ | ⟨-, hstep⟩ := hstep
      · cases hstep
        exact not_stopKept_of_early (show ¬ (stopSimulator p).pc.InLoop from hearly)
          (Nat.succ_pos _) (h _ _ hinitial hleads)
      · cases hstep
  · intro h before p ⟨after, hsplit⟩ ⟨replies, hbefore⟩
    have hlate : AllSteps ProcessEvent.step ProcessEvent.Late before Process.start := by
      refine allSteps_iff.mpr fun b event a rs q hb hrun' => ?_
      exact allSteps_iff.mp h b event (a ++ after) rs q
        (by rw [← hsplit, hb, List.append_assoc]; rfl) hrun'
    have hinv : NoneLost p := AllSteps.invariant
      (fun event p r q hevent hp hstep => NoneLost.step hp hevent hstep) hlate (Or.inl rfl) hbefore
    exact hinv.stopKept

/-- A run in which a signal arrives in the first iteration. -/
def stoppedAtOnce : List ProcessEvent :=
  [.main, .main, .main, .main, .main, .main, .raised .sigterm, .main, .main, .main]

/-- The theorem for this run. -/
theorem stopKept_iff_first_iteration : ∃ p, Leads Process.start stoppedAtOnce p ∧
    0 < p.stops ∧ StopKept p := by
  have hok : (runAll ProcessEvent.step stoppedAtOnce Process.start).isOk = true := by decide
  have hlate : AllSteps ProcessEvent.step ProcessEvent.Late stoppedAtOnce Process.start := by
    simp [stoppedAtOnce, AllSteps, ProcessEvent.Late, ProcessEvent.step, mainStep, stopSimulator,
      Process.start, MainPc.InLoop, MainPc.handles]
  have hkept := (stopKept_iff hok).mpr hlate
  exact ⟨_, ⟨_, rfl⟩, by decide, hkept _ _ List.prefix_rfl ⟨_, rfl⟩⟩

/-- A signal that arrives when the handlers have been installed, but the loop has not begun, does
not stop the simulator. -/
theorem not_stopKept_early : ¬ ∀ events p, Leads Process.start events p → StopKept p := by
  intro h
  have hlost := h [.main, .main, .main, .raised .sigterm, .main] _ ⟨_, rfl⟩ (by decide)
  exact absurd hlost.1 (by decide)

end BleSim
