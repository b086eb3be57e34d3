import BleSim.Lib.Outcome

/-!
# Refinement between two machines

The concrete machine returns a reply or fails, and keeps a log. The abstract machine says what the
reply is and what is added to the log, and is undefined where the concrete one is to fail. If the
two agree step by step in related states (`Refines`), they agree on whole runs, and what can be
said of runs of the abstract machine (that two steps commute, that a view is left alone) holds
of the concrete one.
-/

namespace Refinement

open Outcomes

variable {α β σ γ ρ ω ε : Type}

/-- What a step of the abstract machine comes to. -/
structure Taken (ρ ω γ : Type) where
  reply : ρ
  logged : List ω
  next : γ

/-- An abstract machine: what it does with a label, if that is defined. -/
abbrev Machine (α γ ρ ω : Type) := α → γ → Option (Taken ρ ω γ)

/-- The abstract run: the replies, everything logged and the last state. -/
def run (spec : Machine α γ ρ ω) : List α → γ → Option (Taken (List ρ) ω γ)
  | [], g => some ⟨[], [], g⟩
  | a :: as, g => do
    let t ← spec a g
    let u ← run spec as t.next
    some ⟨t.reply :: u.reply, t.logged ++ u.logged, u.next⟩

/-- Every step of a run is allowed where it is taken. -/
def Admits (spec : Machine α γ ρ ω) (Allowed : α → γ → Prop) : List α → γ → Prop
  | [], _ => True
  | a :: as, g => Allowed a g ∧ ∀ t, spec a g = some t → Admits spec Allowed as t.next

variable {spec : Machine α γ ρ ω} {Allowed : α → γ → Prop}

/-! ## Runs of the abstract machine -/

theorem run_cons_eq_some {a : α} {as : List α} {g : γ} {v : Taken (List ρ) ω γ} :
    run spec (a :: as) g = some v ↔ ∃ t u, spec a g = some t ∧ run spec as t.next = some u ∧
      v = ⟨t.reply :: u.reply, t.logged ++ u.logged, u.next⟩ := by
  rw [run]
  cases ht : spec a g with
  | none => simp
  | some t =>
    cases hu : run spec as t.next with
    | none => simp [hu]
    | some u => simp [hu, eq_comm]

/-- A condition on the labels, and an invariant under which the steps are allowed, make a run
allowed. -/
theorem Admits.of_invariant (P : α → Prop) (Inv : List α → γ → Prop)
    (hstep : ∀ a as g, P a → Inv (a :: as) g →
      Allowed a g ∧ ∀ t, spec a g = some t → Inv as t.next) :
    ∀ {as : List α} {g : γ}, (∀ a ∈ as, P a) → Inv as g → Admits spec Allowed as g := by
  intro as
  induction as with
  | nil =>
    intro g _ _
    trivial
  | cons a as ih =>
    intro g hall hg
    obtain ⟨ha, hnext⟩ := hstep a as g (hall a List.mem_cons_self) hg
    exact ⟨ha, fun t ht => ih (fun b hb => hall b (List.mem_cons_of_mem a hb)) (hnext t ht)⟩

/-- What a run of `as ++ bs` is allowed to do after `as`. -/
theorem Admits.append {as bs : List α} : ∀ {g : γ} {t : Taken (List ρ) ω γ},
    Admits spec Allowed (as ++ bs) g → run spec as g = some t →
      Admits spec Allowed as g ∧ Admits spec Allowed bs t.next := by
  induction as with
  | nil =>
    intro g t hall hrun
    cases hrun
    exact ⟨trivial, hall⟩
  | cons a as ih =>
    intro g t hall hrun
    obtain ⟨u, v, hu, hv, rfl⟩ := run_cons_eq_some.mp hrun
    obtain ⟨hfirst, hrest⟩ := ih (hall.2 u hu) hv
    refine ⟨⟨hall.1, fun w hw => ?_⟩, hrest⟩
    rw [hu] at hw
    cases hw
    exact hfirst

/-- Two labels commute in a state: either order gives the same state, and each of them the same
reply and the same entries of the log. -/
def Commutes (spec : Machine α γ ρ ω) (a b : α) (g : γ) : Prop :=
  ∀ t u, spec a g = some t → spec b t.next = some u →
    ∃ g', spec b g = some ⟨u.reply, u.logged, g'⟩ ∧ spec a g' = some ⟨t.reply, t.logged, u.next⟩

/-! ## Refinement -/

/-- In related states the two machines do the same with every allowed label. -/
structure Refines (step : α → σ → Except ε (ρ × σ)) (log : σ → List ω) (spec : Machine α γ ρ ω)
    (Allowed : α → γ → Prop) (R : σ → γ → Prop) : Prop where
  returns : ∀ {a : α} {s : σ} {g : γ} {t : Taken ρ ω γ}, R s g → Allowed a g → spec a g = some t →
    ∃ s', step a s = .ok (t.reply, s') ∧ log s' = log s ++ t.logged ∧ R s' t.next
  fails : ∀ {a : α} {s : σ} {g : γ}, R s g → Allowed a g → spec a g = none →
    ∃ e, step a s = .error e

namespace Refines

variable {step : α → σ → Except ε (ρ × σ)} {log : σ → List ω} {R : σ → γ → Prop}
  (h : Refines step log spec Allowed R)

include h

/-- The machines do the same in a whole run. -/
theorem run_returns {as : List α} : ∀ {s : σ} {g : γ} {t : Taken (List ρ) ω γ}, R s g →
    Admits spec Allowed as g → run spec as g = some t →
    ∃ s', runAll step as s = .ok (t.reply, s') ∧ log s' = log s ++ t.logged ∧ R s' t.next := by
  induction as with
  | nil =>
    intro s g t hR _ hrun
    cases hrun
    exact ⟨s, rfl, (List.append_nil _).symm, hR⟩
  | cons a as ih =>
    intro s g t hR hall hrun
    obtain ⟨u, v, hu, hv, rfl⟩ := run_cons_eq_some.mp hrun
    obtain ⟨s₁, hstep, hlog, hR₁⟩ := h.returns hR hall.1 hu
    obtain ⟨s', hrest, hlog', hR'⟩ := ih hR₁ (hall.2 u hu) hv
    refine ⟨s', runAll_cons_eq_ok.mpr ⟨_, s₁, _, hstep, hrest, rfl⟩, ?_, hR'⟩
    rw [hlog', hlog, List.append_assoc]

/-- Where the abstract run is undefined, the concrete one fails. -/
theorem run_fails {as : List α} : ∀ {s : σ} {g : γ}, R s g → Admits spec Allowed as g →
    run spec as g = none → ∃ e, runAll step as s = .error e := by
  induction as with
  | nil =>
    intro s g _ _ hrun
    cases hrun
  | cons a as ih =>
    intro s g hR hall hrun
    cases hu : spec a g with
    | none =>
      obtain ⟨e, he⟩ := h.fails hR hall.1 hu
      exact ⟨e, by rw [runAll, he, error_bind]⟩
    | some u =>
      obtain ⟨s₁, hstep, -, hR₁⟩ := h.returns hR hall.1 hu
      have hrest : run spec as u.next = none := by
        cases hv : run spec as u.next with
        | none => rfl
        | some v =>
          rw [run_cons_eq_some.mpr ⟨u, v, hu, hv, rfl⟩] at hrun
          cases hrun
      obtain ⟨e, he⟩ := ih hR₁ (hall.2 u hu) hrest
      exact ⟨e, by simp only [runAll, hstep, ok_bind, he, error_bind]⟩

/-- What can be seen of a run of the concrete machine, the replies and the log, is what the
abstract machine says. -/
theorem observed_eq {as : List α} {s : σ} {g : γ} (hR : R s g) (hall : Admits spec Allowed as g) :
    (runAll step as s).toOption.map (fun r => (r.1, log r.2)) =
      (run spec as g).map fun t => (t.reply, log s ++ t.logged) := by
  cases hrun : run spec as g with
  | none =>
    obtain ⟨e, he⟩ := h.run_fails hR hall hrun
    rw [he]
    rfl
  | some t =>
    obtain ⟨s', hs', hlog, -⟩ := h.run_returns hR hall hrun
    rw [hs']
    simp [Except.toOption, hlog]

/-- What returns in one of two states that stand for the same does so in the other, with the same
reply and the same entries of the log. -/
theorem step_related {a : α} {s s' u : σ} {g : γ} {r : ρ} (hs : R s g) (hu : R u g)
    (hallowed : Allowed a g) (hstep : step a s = .ok (r, s')) :
    ∃ u' g' l, step a u = .ok (r, u') ∧ log s' = log s ++ l ∧ log u' = log u ++ l ∧
      R s' g' ∧ R u' g' ∧ spec a g = some ⟨r, l, g'⟩ := by
  cases hspec : spec a g with
  | none =>
    obtain ⟨e, he⟩ := h.fails hs hallowed hspec
    rw [hstep] at he
    cases he
  | some t =>
    obtain ⟨s₁, hs₁, hlog, hR⟩ := h.returns hs hallowed hspec
    obtain ⟨u₁, hu₁, hlog', hR'⟩ := h.returns hu hallowed hspec
    rw [hstep] at hs₁
    cases hs₁
    exact ⟨u₁, t.next, t.logged, hu₁, hlog, hlog', hR, hR', rfl⟩

/-- The same for whole runs. -/
theorem run_related {as : List α} {s s' u : σ} {g : γ} {r : List ρ} (hs : R s g) (hu : R u g)
    (hall : Admits spec Allowed as g) (hrun : runAll step as s = .ok (r, s')) :
    ∃ u' g' l, runAll step as u = .ok (r, u') ∧ log s' = log s ++ l ∧ log u' = log u ++ l ∧
      R s' g' ∧ R u' g' ∧ run spec as g = some ⟨r, l, g'⟩ := by
  cases hspec : run spec as g with
  | none =>
    obtain ⟨e, he⟩ := h.run_fails hs hall hspec
    rw [hrun] at he
    cases he
  | some t =>
    obtain ⟨s₁, hs₁, hlog, hR⟩ := h.run_returns hs hall hspec
    obtain ⟨u₁, hu₁, hlog', hR'⟩ := h.run_returns hu hall hspec
    rw [hrun] at hs₁
    cases hs₁
    exact ⟨u₁, t.next, t.logged, hu₁, hlog, hlog', hR, hR', rfl⟩

/-- A relation between the abstract states before and after a step that satisfies a condition is one
between those before and after a run of such steps, if it is reflexive and transitive. -/
theorem run_relates {C : α → σ → Prop} {P : γ → γ → Prop} (hrefl : ∀ g, P g g)
    (htrans : ∀ {g₁ g₂ g₃}, P g₁ g₂ → P g₂ g₃ → P g₁ g₃)
    (hstep : ∀ {a s g t}, R s g → C a s → spec a g = some t → P g t.next) {as : List α} :
    ∀ {s s' : σ} {g : γ} {r : List ρ}, R s g → Admits spec Allowed as g →
      AllSteps step C as s → runAll step as s = .ok (r, s') → ∃ g', R s' g' ∧ P g g' := by
  induction as with
  | nil =>
    intro s s' g r hR _ _ hrun
    cases hrun
    exact ⟨g, hR, hrefl g⟩
  | cons a as ih =>
    intro s s' g r hR hall hcond hrun
    obtain ⟨r₁, s₁, r', ha, hrest, -⟩ := runAll_cons_eq_ok.mp hrun
    obtain ⟨-, g₁, l, -, -, -, hR₁, -, hspec⟩ := h.step_related hR hR hall.1 ha
    have hcond₁ := hcond.2
    rw [ha] at hcond₁
    obtain ⟨g', hR', hP⟩ := ih hR₁ (hall.2 _ hspec) hcond₁ hrest
    exact ⟨g', hR', htrans (hstep hR hcond.1 hspec) hP⟩

/-- Two neighbours of a run whose labels commute can change places: each of them and all steps after
them come to the same. -/
theorem swap {a b : α} {as : List α} {s s₁ s₂ s₃ : σ} {g : γ} {r r' : ρ} {rs : List ρ}
    (hR : R s g) (hcommute : Commutes spec a b g) (hab : Admits spec Allowed (a :: b :: as) g)
    (hba : Admits spec Allowed (b :: a :: as) g) (ha : step a s = .ok (r, s₁))
    (hb : step b s₁ = .ok (r', s₂)) (hrest : runAll step as s₂ = .ok (rs, s₃)) :
    ∃ u₁ u₂ u₃ l l' ls, step b s = .ok (r', u₁) ∧ step a u₁ = .ok (r, u₂) ∧
      runAll step as u₂ = .ok (rs, u₃) ∧
      log s₁ = log s ++ l ∧ log s₂ = log s₁ ++ l' ∧ log s₃ = log s₂ ++ ls ∧
      log u₁ = log s ++ l' ∧ log u₂ = log u₁ ++ l ∧ log u₃ = log u₂ ++ ls := by
  obtain ⟨-, g₁, l, -, hlog₁, -, hR₁, -, hspec⟩ := h.step_related hR hR hab.1 ha
  obtain ⟨-, g₂, l', -, hlog₂, -, hR₂, -, hspec'⟩ := h.step_related hR₁ hR₁ (hab.2 _ hspec).1 hb
  obtain ⟨g', hfirst, hsecond⟩ := hcommute _ _ hspec hspec'
  obtain ⟨u₁, hu₁, hlogu₁, hRu₁⟩ := h.returns hR hba.1 hfirst
  obtain ⟨u₂, hu₂, hlogu₂, hRu₂⟩ := h.returns hRu₁ (hba.2 _ hfirst).1 hsecond
  -- either way the abstract machine is in the same state
  obtain ⟨u₃, -, ls, hu₃, hlog₃, hlogu₃, -⟩ :=
    h.run_related hR₂ hRu₂ ((hab.2 _ hspec).2 _ hspec') hrest
  exact ⟨u₁, u₂, u₃, l, l', ls, hu₁, hu₂, hu₃, hlog₁, hlog₂, hlog₃, hlogu₁, hlogu₂, hlogu₃⟩

end Refines

/-! ## Front ends -/

/-- What stands between a caller and a machine: it turns requests down by itself or hands them on as
labels of the machine, and puts what the machine replies into the caller's terms. -/
structure FrontEnd (β α ρ π : Type) where
  read : β → Except π α
  tell : β → ρ → π

namespace FrontEnd

variable {β π : Type} (F : FrontEnd β α ρ π)

/-- A concrete machine behind a front end. -/
def step (step : α → σ → Except ε (ρ × σ)) (b : β) (s : σ) : Except ε (π × σ) :=
  match F.read b with
  | .error r => .ok (r, s)
  | .ok a => step a s >>= fun r => .ok (F.tell b r.1, r.2)

/-- An abstract machine behind a front end. -/
def machine (spec : Machine α γ ρ ω) : Machine β γ π ω := fun b g =>
  match F.read b with
  | .error r => some ⟨r, [], g⟩
  | .ok a => (spec a g).map fun t => ⟨F.tell b t.reply, t.logged, t.next⟩

variable {F} {step : α → σ → Except ε (ρ × σ)} {log : σ → List ω} {R : σ → γ → Prop}

/-- Behind the same front end a machine still refines another. -/
theorem refines (h : Refines step log spec Allowed R) :
    Refines (F.step step) log (F.machine spec) (fun b g => ∀ a, F.read b = .ok a → Allowed a g)
      R := by
  constructor
  · intro b s g t hR hallowed ht
    unfold machine at ht
    unfold FrontEnd.step
    cases hread : F.read b with
    | error r =>
      rw [hread] at ht
      cases ht
      exact ⟨s, rfl, (List.append_nil _).symm, hR⟩
    | ok a =>
      rw [hread] at ht
      obtain ⟨u, hu, rfl⟩ := Option.map_eq_some_iff.mp ht
      obtain ⟨s', hs', hlog, hR'⟩ := h.returns hR (hallowed a hread) hu
      exact ⟨s', by simp only [hs', ok_bind], hlog, hR'⟩
  · intro b s g hR hallowed hnone
    unfold machine at hnone
    unfold FrontEnd.step
    cases hread : F.read b with
    | error r =>
      rw [hread] at hnone
      cases hnone
    | ok a =>
      rw [hread] at hnone
      obtain ⟨e, he⟩ := h.fails hR (hallowed a hread) (Option.map_eq_none_iff.mp hnone)
      exact ⟨e, by simp only [he, error_bind]⟩

end FrontEnd

end Refinement
