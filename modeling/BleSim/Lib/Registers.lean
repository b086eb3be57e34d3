import BleSim.Lib.Outcome

/-!
# Registers with a last write

A run writes to registers as it goes: `writes a r i` is what the step `a`, which returned `r`,
wrote to the register `i`. What a register holds afterwards is the last value written to it,
whatever was written to the others in between.
-/

namespace Registers

open Outcomes

variable {α ρ ι β ε σ : Type}

/-- The registers after one more step. -/
def write (writes : α → ρ → ι → Option β) (regs : ι → β) (a : α) (r : ρ) : ι → β :=
  fun i => (writes a r i).getD (regs i)

/-- The registers after a run: each holds the last value written to it, or what it held before. -/
def lastWrites (writes : α → ρ → ι → Option β) (regs : ι → β) : List α → List ρ → ι → β
  | a :: as, r :: rs => lastWrites writes (write writes regs a r) as rs
  | _, _ => regs

variable {writes : α → ρ → ι → Option β}

/-- The last step of a run writes last. -/
theorem lastWrites_append {as : List α} {rs : List ρ} (hlength : as.length = rs.length) (a : α)
    (r : ρ) (regs : ι → β) : lastWrites writes regs (as ++ [a]) (rs ++ [r]) =
      write writes (lastWrites writes regs as rs) a r := by
  induction as generalizing rs regs with
  | nil =>
    cases rs with
    | nil => rfl
    | cons r' rs => cases hlength
  | cons a' as ih =>
    cases rs with
    | nil => cases hlength
    | cons r' rs => exact ih (Nat.succ.inj hlength) _

/-- A register nothing is written to keeps its value. -/
theorem write_of_eq_none {regs : ι → β} {a : α} {r : ρ} {i : ι} (h : writes a r i = none) :
    write writes regs a r i = regs i := by
  rw [write, h, Option.getD_none]

/-- If every step that returns keeps up with the registers, then so does every run that returns. -/
theorem lastWrites_invariant (writes : α → ρ → ι → Option β) {step : α → σ → Except ε (ρ × σ)}
    {P : α → σ → Prop} {Inv : σ → (ι → β) → Prop}
    (hstep : ∀ a s regs r s', P a s → Inv s regs → step a s = .ok (r, s') →
      Inv s' (write writes regs a r)) :
    ∀ {as : List α} {s s' : σ} {regs : ι → β} {rs : List ρ}, AllSteps step P as s → Inv s regs →
      runAll step as s = .ok (rs, s') → Inv s' (lastWrites writes regs as rs) := by
  intro as
  induction as with
  | nil =>
    intro s s' regs rs _ hs hrun
    cases hrun
    exact hs
  | cons a as ih =>
    intro s s' regs rs hall hs hrun
    obtain ⟨r, s₁, rs', hstep₁, hrun', rfl⟩ := runAll_cons_eq_ok.mp hrun
    obtain ⟨hP, hall⟩ := hall
    rw [hstep₁] at hall
    exact ih hall (hstep a s regs r s₁ hP hs hstep₁) hrun'

/-- If every step returns and keeps up with the registers, then so does every run. -/
theorem lastWrites_run (writes : α → ρ → ι → Option β) {step : α → σ → Except ε (ρ × σ)}
    {P : α → σ → Prop} {Inv : σ → (ι → β) → Prop}
    (hstep : ∀ a s regs, P a s → Inv s regs →
      ∃ r s', step a s = .ok (r, s') ∧ Inv s' (write writes regs a r)) :
    ∀ {as : List α} {s : σ} {regs : ι → β}, AllSteps step P as s → Inv s regs →
      ∃ rs s', runAll step as s = .ok (rs, s') ∧ Inv s' (lastWrites writes regs as rs) := by
  intro as
  induction as with
  | nil =>
    intro s regs _ hs
    exact ⟨[], s, rfl, hs⟩
  | cons a as ih =>
    intro s regs hall hs
    obtain ⟨hP, hall⟩ := hall
    obtain ⟨r, s₁, hstep₁, hs₁⟩ := hstep a s regs hP hs
    rw [hstep₁] at hall
    obtain ⟨rs, s', hrun, hs'⟩ := ih hall hs₁
    exact ⟨r :: rs, s', runAll_cons_eq_ok.mpr ⟨r, s₁, rs, hstep₁, hrun, rfl⟩, hs'⟩

end Registers
