import Mathlib.Data.List.Induction
import Mathlib.Tactic.Common

/-!
# Outcomes of computations that can leave defined behaviour

A C function either returns, or leaves the behaviour its language and its libraries
define. `Outcome α` is the result of running one: `Except Fault α`, with `Fault` naming
the way out. This file holds the few rules by which such computations are taken apart:
`bind_eq_ok` peels one step off a chain, and `runAll` chains the steps of a whole run.
-/

namespace Outcomes

/-- The ways a computation can leave the behaviour that C and its libraries define. -/
inductive Fault where
  /-- a loop that never ends -/
  | divergence
  /-- a read or write outside the block it was meant for -/
  | outOfBlock
  /-- a NULL pointer used as a string or an object -/
  | nullPointer
  /-- a library call whose precondition does not hold -/
  | precondition
  /-- a library call with a text that has not the form the library asks for -/
  | invalidText
  /-- an object or a text that was never there, or is no longer -/
  | noObject
deriving DecidableEq, Repr

/-- What a computation comes to: a result, or a fault. -/
abbrev Outcome (α : Type) := Except Fault α

variable {α β γ ε σ ρ : Type}

/-! ## Taking computations apart -/

@[simp] theorem ok_bind (a : α) (f : α → Except ε β) : (Except.ok a >>= f) = f a := rfl

@[simp] theorem error_bind (e : ε) (f : α → Except ε β) :
    ((Except.error e : Except ε α) >>= f) = Except.error e := rfl

@[simp] theorem pure_eq_ok (a : α) : (pure a : Except ε α) = Except.ok a := rfl

@[simp] theorem ok_map (a : α) (f : α → β) : f <$> (Except.ok a : Except ε α) = Except.ok (f a) :=
  rfl

/-- A chain of two steps succeeds exactly when both do. -/
theorem bind_eq_ok {x : Except ε α} {f : α → Except ε β} {b : β} :
    (x >>= f) = .ok b ↔ ∃ a, x = .ok a ∧ f a = .ok b := by
  cases x with
  | error e => simp
  | ok a => simp

/-- A chain of two steps does not fail in a way in which neither step does. -/
theorem bind_ne_error {x : Except ε α} {f : α → Except ε β} {e : ε} (hx : x ≠ .error e)
    (hf : ∀ a, x = .ok a → f a ≠ .error e) : (x >>= f) ≠ .error e := by
  cases x with
  | error e' =>
    intro h
    cases h
    exact hx rfl
  | ok a => exact hf a rfl

/-- A computation that succeeds has a result. -/
theorem exists_of_isOk {x : Except ε α} (h : x.isOk = true) : ∃ a, x = .ok a := by
  cases x with
  | error e => cases h
  | ok a => exact ⟨a, rfl⟩

/-- A computation whose first result is known has a second one. -/
theorem exists_of_map_fst {x : Except ε (α × β)} {a : α} (h : x.map Prod.fst = .ok a) :
    ∃ b, x = .ok (a, b) := by
  cases x with
  | error e => cases h
  | ok r =>
    cases h
    exact ⟨r.2, rfl⟩

/-- A computation of which something is known has a result. -/
theorem exists_of_toOption_map {x : Except ε α} {f : α → β} {b : β}
    (h : x.toOption.map f = some b) : ∃ a, x = .ok a ∧ f a = b := by
  cases x with
  | error e => cases h
  | ok a => exact ⟨a, rfl, Option.some.inj h⟩

theorem ite_eq_ok {c : Prop} [Decidable c] {x y : Except ε α} {a : α} :
    (if c then x else y) = .ok a ↔ (c ∧ x = .ok a) ∨ (¬ c ∧ y = .ok a) := by
  by_cases hc : c <;> simp [hc]

/-! ## Runs -/

/-- Take the steps `as` one after the other from `s`, collecting what each returns. -/
def runAll (step : α → σ → Except ε (ρ × σ)) : List α → σ → Except ε (List ρ × σ)
  | [], s => .ok ([], s)
  | a :: as, s => do
    let (r, s) ← step a s
    let (rs, s) ← runAll step as s
    .ok (r :: rs, s)

variable {step : α → σ → Except ε (ρ × σ)}

@[simp] theorem runAll_nil (s : σ) : runAll step [] s = .ok ([], s) := rfl

theorem runAll_cons_eq_ok {a : α} {as : List α} {s s' : σ} {rs : List ρ} :
    runAll step (a :: as) s = .ok (rs, s') ↔
      ∃ r s₁ rs', step a s = .ok (r, s₁) ∧ runAll step as s₁ = .ok (rs', s') ∧ rs = r :: rs' := by
  constructor
  · intro h
    rw [runAll] at h
    obtain ⟨⟨r, s₁⟩, hstep, h⟩ := bind_eq_ok.mp h
    obtain ⟨⟨rs', s₂⟩, hrest, h⟩ := bind_eq_ok.mp h
    cases h
    exact ⟨r, s₁, rs', hstep, hrest, rfl⟩
  · rintro ⟨r, s₁, rs', hstep, hrest, rfl⟩
    simp only [runAll, hstep, ok_bind, hrest]

/-- Every step returns one thing. -/
theorem runAll_length {as : List α} {s s' : σ} {rs : List ρ} (h : runAll step as s = .ok (rs, s')) :
    as.length = rs.length := by
  induction as generalizing s rs with
  | nil =>
    cases h
    rfl
  | cons a as ih =>
    obtain ⟨r, s₁, rs', -, hrest, rfl⟩ := runAll_cons_eq_ok.mp h
    rw [List.length_cons, List.length_cons, ih hrest]

/-- A run of `as ++ bs` is a run of `as` followed by a run of `bs`. -/
theorem runAll_append_eq_ok {as bs : List α} {s s' : σ} {rs : List ρ} :
    runAll step (as ++ bs) s = .ok (rs, s') ↔
      ∃ r₁ s₁ r₂, runAll step as s = .ok (r₁, s₁) ∧ runAll step bs s₁ = .ok (r₂, s') ∧
        rs = r₁ ++ r₂ := by
  induction as generalizing s rs with
  | nil => simp
  | cons a as ih =>
    simp only [List.cons_append, runAll_cons_eq_ok, ih]
    constructor
    · rintro ⟨r, s₁, rs', hstep, ⟨r₁, s₂, r₂, h₁, h₂, rfl⟩, rfl⟩
      exact ⟨r :: r₁, s₂, r₂, ⟨r, s₁, r₁, hstep, h₁, rfl⟩, h₂, rfl⟩
    · rintro ⟨_, s₂, r₂, ⟨r, s₁, r₁, hstep, h₁, rfl⟩, h₂, rfl⟩
      exact ⟨r, s₁, r₁ ++ r₂, hstep, ⟨r₁, s₂, r₂, h₁, h₂, rfl⟩, rfl⟩

/-- Every step of a run is taken in a state that satisfies `P`. -/
def AllSteps (step : α → σ → Except ε (ρ × σ)) (P : α → σ → Prop) : List α → σ → Prop
  | [], _ => True
  | a :: as, s => P a s ∧
    match step a s with
    | .ok (_, s') => AllSteps step P as s'
    | .error _ => True

theorem allSteps_of_forall {P : α → Prop} {as : List α} (h : ∀ a ∈ as, P a) (s : σ) :
    AllSteps step (fun a _ => P a) as s := by
  induction as generalizing s with
  | nil => trivial
  | cons a as ih =>
    refine ⟨h a List.mem_cons_self, ?_⟩
    split
    · exact ih (fun b hb => h b (List.mem_cons_of_mem a hb)) _
    · trivial

theorem AllSteps.and {P Q : α → σ → Prop} {as : List α} {s : σ} (hP : AllSteps step P as s)
    (hQ : AllSteps step Q as s) : AllSteps step (fun a s => P a s ∧ Q a s) as s := by
  induction as generalizing s with
  | nil => trivial
  | cons a as ih =>
    obtain ⟨hPa, hP⟩ := hP
    obtain ⟨hQa, hQ⟩ := hQ
    refine ⟨⟨hPa, hQa⟩, ?_⟩
    cases hstep : step a s with
    | error e => trivial
    | ok r =>
      rw [hstep] at hP hQ
      exact ih hP hQ

theorem AllSteps.mono {P Q : α → σ → Prop} (hPQ : ∀ a s, P a s → Q a s) {as : List α} {s : σ}
    (h : AllSteps step P as s) : AllSteps step Q as s := by
  induction as generalizing s with
  | nil => trivial
  | cons a as ih =>
    obtain ⟨hPa, h⟩ := h
    refine ⟨hPQ a s hPa, ?_⟩
    cases hstep : step a s with
    | error e => trivial
    | ok r =>
      rw [hstep] at h
      exact ih h

/-- A run goes on where a part of it has led. -/
theorem AllSteps.append {P : α → σ → Prop} {as bs : List α} : ∀ {s s' : σ} {rs : List ρ},
    runAll step as s = .ok (rs, s') → AllSteps step P as s → AllSteps step P bs s' →
      AllSteps step P (as ++ bs) s := by
  induction as with
  | nil =>
    intro s s' rs hrun _ hlater
    cases hrun
    exact hlater
  | cons a as ih =>
    intro s s' rs hrun hfirst hlater
    obtain ⟨r, s₁, rs', hstep, hrest, -⟩ := runAll_cons_eq_ok.mp hrun
    obtain ⟨ha, has⟩ := hfirst
    rw [hstep] at has
    refine ⟨ha, ?_⟩
    rw [hstep]
    exact ih hrest has hlater

/-- `P` holds at every step of a run if it holds wherever a part of the run has led before a
step. -/
theorem allSteps_iff {P : α → σ → Prop} {as : List α} {s : σ} : AllSteps step P as s ↔
    ∀ before a after rs s', as = before ++ a :: after → runAll step before s = .ok (rs, s') →
      P a s' := by
  induction as generalizing s with
  | nil => simp [AllSteps]
  | cons b bs ih =>
    constructor
    · intro ⟨hb, hbs⟩ before a after rs s' hsplit hrun
      cases before with
      | nil =>
        cases hsplit
        cases hrun
        exact hb
      | cons c before =>
        cases hsplit
        obtain ⟨r, s₁, rs', hstep, hrest, -⟩ := runAll_cons_eq_ok.mp hrun
        rw [hstep] at hbs
        exact ih.mp hbs before a after rs' s' rfl hrest
    · intro h
      refine ⟨h [] b bs [] s rfl rfl, ?_⟩
      cases hstep : step b s with
      | error e => trivial
      | ok r =>
        refine ih.mpr fun before a after rs s' hsplit hrun => ?_
        exact h (b :: before) a after (r.1 :: rs) s' (by rw [hsplit, List.cons_append])
          (runAll_cons_eq_ok.mpr ⟨r.1, r.2, rs, hstep, hrun, rfl⟩)

/-- In a run that has a result, every step has one. -/
theorem allSteps_isOk {as : List α} {s : σ} (h : (runAll step as s).isOk = true) :
    AllSteps step (fun a s => (step a s).isOk = true) as s := by
  induction as generalizing s with
  | nil => trivial
  | cons a as ih =>
    obtain ⟨⟨rs, s'⟩, hrun⟩ := exists_of_isOk h
    obtain ⟨r, s₁, rs', hstep, hrest, -⟩ := runAll_cons_eq_ok.mp hrun
    refine ⟨congrArg Except.isOk hstep, ?_⟩
    rw [hstep]
    exact ih (congrArg Except.isOk hrest)

/-- What every step taken where `P` holds preserves holds after every run of such steps. -/
theorem AllSteps.invariant {P : α → σ → Prop} {Inv : σ → Prop}
    (hstep : ∀ a s r s', P a s → Inv s → step a s = .ok (r, s') → Inv s') :
    ∀ {as : List α} {s s' : σ} {rs : List ρ}, AllSteps step P as s → Inv s →
      runAll step as s = .ok (rs, s') → Inv s' := by
  intro as
  induction as with
  | nil =>
    intro s s' rs _ hs h
    cases h
    exact hs
  | cons a as ih =>
    intro s s' rs hall hs h
    obtain ⟨r, s₁, rs', hstep₁, hrest, -⟩ := runAll_cons_eq_ok.mp h
    obtain ⟨hP, hall⟩ := hall
    rw [hstep₁] at hall
    exact ih hall (hstep a s r s₁ hP hs hstep₁) hrest

/-- If every step taken where `P` and `Inv` hold satisfies `Q` and preserves `Inv`, then all steps
of a run whose steps satisfy `P` satisfy `Q`. -/
theorem AllSteps.of_invariant {P Q : α → σ → Prop} {Inv : σ → Prop}
    (hstep : ∀ a s, P a s → Inv s → Q a s ∧ ∀ r s', step a s = .ok (r, s') → Inv s') {as : List α} :
    ∀ {s : σ}, AllSteps step P as s → Inv s → AllSteps step Q as s := by
  induction as with
  | nil =>
    intro s _ _
    trivial
  | cons a as ih =>
    intro s hall hs
    obtain ⟨hP, hall⟩ := hall
    obtain ⟨hQ, hnext⟩ := hstep a s hP hs
    refine ⟨hQ, ?_⟩
    cases hrun : step a s with
    | error e => trivial
    | ok r =>
      rw [hrun] at hall
      exact ih hall (hnext r.1 r.2 hrun)

/-- If every step taken where `P` holds has a result, satisfies `Q` and preserves `Inv`, then so
does every run of such steps. -/
theorem AllSteps.run {P Q : α → σ → Prop} {Inv : σ → Prop}
    (hstep : ∀ a s, P a s → Inv s → Q a s ∧ ∃ r s', step a s = .ok (r, s') ∧ Inv s') :
    ∀ {as : List α} {s : σ}, AllSteps step P as s → Inv s →
      AllSteps step Q as s ∧ ∃ rs s', runAll step as s = .ok (rs, s') ∧ Inv s' := by
  intro as
  induction as with
  | nil =>
    intro s _ hs
    exact ⟨trivial, [], s, rfl, hs⟩
  | cons a as ih =>
    intro s hall hs
    obtain ⟨hP, hall⟩ := hall
    obtain ⟨hQ, r, s₁, hstep₁, hs₁⟩ := hstep a s hP hs
    rw [hstep₁] at hall
    obtain ⟨hQs, rs, s', hrun, hs'⟩ := ih hall hs₁
    refine ⟨⟨hQ, ?_⟩, r :: rs, s', ?_, hs'⟩
    · rw [hstep₁]
      exact hQs
    · exact runAll_cons_eq_ok.mpr ⟨r, s₁, rs, hstep₁, hrun, rfl⟩

/-- An invariant that every allowed step preserves holds after every run of allowed steps. -/
theorem runAll_invariant {Allowed : α → Prop} {Inv : σ → Prop}
    (hstep : ∀ a s r s', Allowed a → Inv s → step a s = .ok (r, s') → Inv s') {as : List α}
    {s s' : σ} {rs : List ρ} (hall : ∀ a ∈ as, Allowed a) (hs : Inv s)
    (h : runAll step as s = .ok (rs, s')) : Inv s' :=
  AllSteps.invariant hstep (allSteps_of_forall hall s) hs h

/-- What holds of a run and the state it ends in when one more step keeps it. -/
theorem runAll_history {P : List α → List ρ → σ → Prop} {s : σ} (hnil : P [] [] s)
    (hstep : ∀ as rs s₁ a r s₂, runAll step as s = .ok (rs, s₁) → P as rs s₁ →
      step a s₁ = .ok (r, s₂) → P (as ++ [a]) (rs ++ [r]) s₂) {as : List α} :
    ∀ {rs : List ρ} {s' : σ}, runAll step as s = .ok (rs, s') → P as rs s' := by
  induction as using List.reverseRecOn with
  | nil =>
    intro rs s' h
    cases h
    exact hnil
  | append_singleton as a ih =>
    intro rs s' h
    obtain ⟨rs', s₁, _, hbefore, hlast, rfl⟩ := runAll_append_eq_ok.mp h
    obtain ⟨r, _, _, hone, hend, rfl⟩ := runAll_cons_eq_ok.mp hlast
    cases hend
    exact hstep as rs' s₁ a r _ hbefore (ih hbefore) hone

end Outcomes
