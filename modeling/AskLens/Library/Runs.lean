import Mathlib.Data.List.Induction

/-!
# Runs and loops

A run takes the events of a list one by one, as long as each is enabled. A loop
repeats a pass until the pass finds nothing to do.
-/
namespace AskLens.Runs

variable {S E : Type}

section

variable {step : S → E → Option S} {s t : S} {events : List E} {e : E}

/-- The state after all events, if each was enabled when its turn came. -/
def run (step : S → E → Option S) : List E → S → Option S
  | [], s => some s
  | e :: events, s => (step s e).bind (run step events)

theorem run_append (before after : List E) (s : S) :
    run step (before ++ after) s = (run step before s).bind (run step after) := by
  induction before generalizing s with
  | nil => rfl
  | cons e before ih =>
    rw [List.cons_append, run, run]
    cases step s e with
    | none => rfl
    | some t => exact ih t

theorem run_concat : run step (events ++ [e]) s = some t ↔
    ∃ u, run step events s = some u ∧ step u e = some t := by
  rw [run_append, Option.bind_eq_some_iff]
  simp [run]

/-- What holds at the start and is kept by every step, given the events before it, holds after
every run. -/
theorem run_induction {P : List E → S → Prop} (hstart : P [] s)
    (hstep : ∀ events u e t, run step events s = some u → P events u → step u e = some t →
      P (events ++ [e]) t)
    (h : run step events s = some t) : P events t := by
  induction events using List.reverseRecOn generalizing t with
  | nil =>
    obtain rfl := Option.some.inj h
    exact hstart
  | append_singleton events e ih =>
    obtain ⟨u, hrun, hlast⟩ := run_concat.mp h
    exact hstep events u e t hrun (ih hrun) hlast

end

section

variable {pass : S → Option S} {s : S}

/-- `while True:` around a pass, for at most `fuel` turns; `none` when the turns run out. -/
def loop (pass : S → Option S) : ℕ → S → Option S
  | 0, _ => none
  | fuel + 1, s =>
    match pass s with
    | none => some s
    | some t => loop pass fuel t

/-- A loop whose passes keep an invariant and decrease a variant ends, in a state where the
invariant holds and nothing is left to do. -/
theorem loop_ends (invariant : S → Prop) (variant : S → ℕ)
    (hpass : ∀ s t, invariant s → pass s = some t → invariant t ∧ variant t < variant s)
    (hs : invariant s) {fuel : ℕ} (hfuel : variant s < fuel) :
    ∃ t, loop pass fuel s = some t ∧ invariant t ∧ pass t = none := by
  induction fuel generalizing s with
  | zero => omega
  | succ fuel ih =>
    unfold loop
    cases hnext : pass s with
    | none => exact ⟨s, rfl, hs, hnext⟩
    | some t =>
      obtain ⟨hinvariant, hvariant⟩ := hpass s t hs hnext
      exact ih hinvariant (by omega)

end

end AskLens.Runs
