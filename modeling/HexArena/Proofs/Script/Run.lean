import HexArena.Script.Execution

/-!
# Runs by their steps

What holds of a running script before it starts, and is kept by every step it
takes, decides what holds when it stops.

Main results:

- Definition {lit}`Step.Keeps`: what a step leads to, by the way it ends.
- Theorem {lit}`Execution.run_induction`: from steps to a whole run.
-/

namespace HexArena.Script

/-- A script that goes on has one property, a script that stops has another,
and so has the report of an overflow. -/
def Step.Keeps (goesOn : Execution → Prop) (stops : Outcome → Execution → Prop)
    (overflows : Overflow → Prop) : Step → Prop
  | next e => goesOn e
  | halted e => stops .ended e
  | faulted error e => stops (.faulted error) e
  | overflowed cause => overflows cause

namespace Execution

variable {scene : Scene} {limits : Limits}

/-- A run is completed when its queue is empty. -/
theorem run_nil {e : Execution} (hq : e.pending = []) (fuel : Nat) :
    run scene limits fuel e = .ok (.completed, e) := by
  unfold run
  rw [hq]

/-- A run is cut short when no step is left for its queue. -/
theorem run_zero {e : Execution} {item : Pending} {rest : List Pending}
    (hq : e.pending = item :: rest) :
    run scene limits 0 e =
      .ok (.faulted (.stepLimitExceeded limits.stepLimit), { e with pending := rest }) := by
  unfold run
  rw [hq]

/-- A run takes the next item of its queue and goes on as that tells. -/
theorem run_succ {e : Execution} {item : Pending} {rest : List Pending}
    (hq : e.pending = item :: rest) (fuel : Nat) :
    run scene limits (fuel + 1) e =
      match step { e with pending := rest } scene limits item with
      | .next e => run scene limits fuel e
      | .halted e => .ok (.ended, e)
      | .faulted error e => .ok (.faulted error, e)
      | .overflowed cause => .error cause := by
  obtain ⟨dictionary, pending, machine⟩ := e
  cases hq
  rfl

/-- What every step keeps, a run keeps; what a step does not keep, it ends
with. -/
theorem run_induction {goesOn : Execution → Prop} {stops : Outcome → Execution → Prop}
    {overflows : Overflow → Prop}
    (hempty : ∀ e, goesOn e → e.pending = [] → stops .completed e)
    (hlimit : ∀ e item rest, goesOn e → e.pending = item :: rest →
      stops (.faulted (.stepLimitExceeded limits.stepLimit)) { e with pending := rest })
    (hstep : ∀ e item rest, goesOn e → e.pending = item :: rest →
      (step { e with pending := rest } scene limits item).Keeps goesOn stops overflows)
    (fuel : Nat) {e : Execution} (he : goesOn e) :
    match run scene limits fuel e with
    | .ok (outcome, stop) => stops outcome stop
    | .error cause => overflows cause := by
  induction fuel generalizing e with
  | zero =>
    cases hq : e.pending with
    | nil =>
      rw [run_nil hq]
      exact hempty e he hq
    | cons item rest =>
      rw [run_zero hq]
      exact hlimit e item rest he hq
  | succ fuel ih =>
    cases hq : e.pending with
    | nil =>
      rw [run_nil hq]
      exact hempty e he hq
    | cons item rest =>
      have hkeeps := hstep e item rest he hq
      rw [run_succ hq]
      cases hs : step { e with pending := rest } scene limits item with
      | next e' =>
        rw [hs] at hkeeps
        exact ih hkeeps
      | halted e' =>
        rw [hs] at hkeeps
        exact hkeeps
      | faulted error e' =>
        rw [hs] at hkeeps
        exact hkeeps
      | overflowed cause =>
        rw [hs] at hkeeps
        exact hkeeps

end Execution

end HexArena.Script
