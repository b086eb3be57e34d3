import BleSim.Lib.Outcome

/-!
# Subscriptions

A value is held in one place and told to subscribers elsewhere. `due old new` are the
notifications a change calls for, and `follow held received` is what a subscriber makes of the
notifications it receives. If every step of a run sends what is due, a subscriber that knows the
value once knows it after the run.
-/

namespace Subscription

open Outcomes

variable {α β ε ρ σ : Type} [DecidableEq β]

/-- A change is told once, with the new value. -/
def due (old new : β) : List β := if new = old then [] else [new]

/-- A subscriber keeps the last value it has been told. -/
def follow (held : β) (received : List β) : β := received.foldl (fun _ new => new) held

omit [DecidableEq β] in
theorem follow_append (held : β) (received later : List β) :
    follow held (received ++ later) = follow (follow held received) later := List.foldl_append

theorem follow_due (old new : β) : follow old (due old new) = new := by
  unfold due
  split_ifs with hsame
  · rw [hsame]
    rfl
  · rfl

variable {step : α → σ → Except ε (ρ × σ)}

/-- Over a run of steps that all send what is due, a subscriber follows the value. -/
theorem follow_run {P : α → σ → Prop} (value : σ → β → Prop) (log : σ → List β)
    (hstep : ∀ a s r s' b, P a s → value s b → step a s = .ok (r, s') →
      ∃ b', value s' b' ∧ log s' = log s ++ due b b') :
    ∀ {as : List α} {s s' : σ} {rs : List ρ} {b : β}, AllSteps step P as s → value s b →
      runAll step as s = .ok (rs, s') →
      ∃ received, log s' = log s ++ received ∧ value s' (follow b received) := by
  intro as
  induction as with
  | nil =>
    intro s s' rs b _ hvalue hrun
    cases hrun
    exact ⟨[], (List.append_nil _).symm, hvalue⟩
  | cons a as ih =>
    intro s s' rs b hall hvalue hrun
    obtain ⟨r, s₁, rs', hstep₁, hrest, -⟩ := runAll_cons_eq_ok.mp hrun
    obtain ⟨hP, hall⟩ := hall
    rw [hstep₁] at hall
    obtain ⟨b₁, hvalue₁, hlog₁⟩ := hstep a s r s₁ b hP hvalue hstep₁
    -- the subscriber holds the new value before the rest of the run
    obtain ⟨received, hlog, hvalue'⟩ := ih hall hvalue₁ hrest
    refine ⟨due b b₁ ++ received, ?_, ?_⟩
    · rw [hlog, hlog₁, List.append_assoc]
    · rw [follow_append, follow_due]
      exact hvalue'

end Subscription
