import BleSim.Lib.Outcome

/-!
# Parts of a machine

A machine that is put together from others takes steps in which its parts take steps of their own.
What each step of the whole does with a part (`Component`) says what a run of the whole does with
it: the steps of the part that the replies tell of are a run of the part. A queue is a part of
another kind: if every step appends to it or takes from its front, then in a whole run nothing is
lost, doubled or overtaken (`runAll_queue`).
-/

namespace Outcomes

variable {α β σ τ ρ π μ ε δ : Type} {step : α → σ → Except ε (ρ × σ)}

/-- A part of a machine: what it looks like, and the steps of its own with their replies that the
reply of a step of the whole tells of. -/
structure Component (step : α → σ → Except ε (ρ × σ)) (part : β → τ → Except δ (π × τ)) where
  view : σ → τ
  did : ρ → List (β × π)
  project : ∀ {a s r s'}, step a s = .ok (r, s') →
    runAll part ((did r).map Prod.fst) (view s) = .ok ((did r).map Prod.snd, view s')

namespace Component

variable {part : β → τ → Except δ (π × τ)} (C : Component step part)

/-- The steps of the part that a run tells of. -/
def steps (rs : List ρ) : List β := (rs.flatMap C.did).map Prod.fst

/-- Their replies. -/
def replies (rs : List ρ) : List π := (rs.flatMap C.did).map Prod.snd

/-- What a run of the whole does with a part is a run of the part. -/
theorem run {as : List α} : ∀ {s s' : σ} {rs : List ρ}, runAll step as s = .ok (rs, s') →
    runAll part (C.steps rs) (C.view s) = .ok (C.replies rs, C.view s') := by
  induction as with
  | nil =>
    intro s s' rs h
    cases h
    rfl
  | cons a as ih =>
    intro s s' rs h
    obtain ⟨r, s₁, rs', hstep, hrest, rfl⟩ := runAll_cons_eq_ok.mp h
    have hsteps : C.steps (r :: rs') = (C.did r).map Prod.fst ++ C.steps rs' := by
      rw [steps, List.flatMap_cons, List.map_append, steps]
    have hreplies : C.replies (r :: rs') = (C.did r).map Prod.snd ++ C.replies rs' := by
      rw [replies, List.flatMap_cons, List.map_append, replies]
    rw [hsteps, hreplies]
    exact runAll_append_eq_ok.mpr ⟨_, _, _, C.project hstep, ih hrest, rfl⟩

end Component

/-- If every step appends to a queue or takes from its front, what has been in the queue and what
has been appended is what has been taken and what is left, in this order. -/
theorem runAll_queue {queue : σ → List μ} {appended : α → List μ} {taken : ρ → List μ}
    (hstep : ∀ {a s r s'}, step a s = .ok (r, s') → queue s ++ appended a = taken r ++ queue s')
    {as : List α} : ∀ {s s' : σ} {rs : List ρ}, runAll step as s = .ok (rs, s') →
      queue s ++ as.flatMap appended = rs.flatMap taken ++ queue s' := by
  induction as with
  | nil =>
    intro s s' rs h
    cases h
    simp
  | cons a as ih =>
    intro s s' rs h
    obtain ⟨r, s₁, rs', hfirst, hrest, rfl⟩ := runAll_cons_eq_ok.mp h
    calc queue s ++ (a :: as).flatMap appended
        = (queue s ++ appended a) ++ as.flatMap appended := by
          rw [List.flatMap_cons, List.append_assoc]
      _ = taken r ++ (queue s₁ ++ as.flatMap appended) := by
          rw [hstep hfirst, List.append_assoc]
      _ = (r :: rs').flatMap taken ++ queue s' := by
          rw [ih hrest, List.flatMap_cons, List.append_assoc]

/-- If every step does what it is asked for at once, a run does what it is asked for, in this
order. -/
theorem runAll_flatMap {asked : α → List μ} {done : ρ → List μ}
    (hstep : ∀ {a s r s'}, step a s = .ok (r, s') → asked a = done r) {as : List α} :
    ∀ {s s' : σ} {rs : List ρ}, runAll step as s = .ok (rs, s') →
      as.flatMap asked = rs.flatMap done := by
  induction as with
  | nil =>
    intro s s' rs h
    cases h
    rfl
  | cons a as ih =>
    intro s s' rs h
    obtain ⟨r, s₁, rs', hfirst, hrest, rfl⟩ := runAll_cons_eq_ok.mp h
    rw [List.flatMap_cons, List.flatMap_cons, hstep hfirst, ih hrest]

end Outcomes
