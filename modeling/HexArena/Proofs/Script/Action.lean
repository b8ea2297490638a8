import HexArena.Proofs.Checked
import HexArena.Script.Builtin

/-!
# What actions end in

An action ends in a result or in a fault, unless a computation with coordinates
overflows.  What the actions of which a word is made end in decides what the word
ends in.

Main results:

- Definition {lit}`Action.Ends`: what holds after the action, by the way it ends.
- Theorem {lit}`Action.Ends.bind`: two actions in a row.
- Theorems {lit}`Action.ends_push`, {lit}`Action.ends_pop` and
  {lit}`Action.ends_popPair`: the elementary actions on the stack.
- Theorem {lit}`push_of_room`: a value is pushed if there is room for it.
-/

namespace HexArena.Script

namespace Action

/-- What holds of the result and of the machine when the action is done, and what
holds of the fault and of the machine when it fails; nothing is said of an
overflow. -/
def Ends {α : Type} (action : Action α) (m : Machine) (done : α → Machine → Prop)
    (failed : WordFault → Machine → Prop) : Prop :=
  match action m with
  | .ok a m' => done a m'
  | .error (.fault fault) m' => failed fault m'
  | .error (.overflow _) _ => True

variable {α β : Type} {action : Action α} {m m' : Machine} {done mid : α → Machine → Prop}
  {later : α → Action β} {done' : β → Machine → Prop} {failed : WordFault → Machine → Prop}

/-- What holds of the ends of an action holds where it succeeds. -/
theorem Ends.of_ok (h : action.Ends m done failed) {a : α} (hok : action m = .ok a m') :
    done a m' := by
  simpa [Ends, hok] using h

/-- What holds of its failures holds where it faults. -/
theorem Ends.of_fault (h : action.Ends m done failed) {fault : WordFault}
    (hfault : action m = .error (.fault fault) m') : failed fault m' := by
  simpa [Ends, hfault] using h

/-- Less may be said of how an action ends. -/
theorem Ends.mono (h : action.Ends m mid failed) {failed' : WordFault → Machine → Prop}
    (hdone : ∀ a m', mid a m' → done a m') (hfailed : ∀ f m', failed f m' → failed' f m') :
    action.Ends m done failed' := by
  unfold Ends at h ⊢
  split
  · rename_i a m' hresult
    rw [hresult] at h
    exact hdone a m' h
  · rename_i fault m' hresult
    rw [hresult] at h
    exact hfailed fault m' h
  · trivial

/-! ## Actions in a row -/

/-- Returning a value succeeds at once. -/
theorem ends_pure {a : α} (h : done a m) : Ends (pure a) m done failed :=
  h

/-- Raising a fault fails at once. -/
theorem ends_raise {fault : WordFault} (h : failed fault m) :
    Ends (raise fault : Action α) m done failed :=
  h

/-- The second action goes on from what the first one is done with; a fault of the
first is a fault of both. -/
theorem Ends.bind (hfirst : action.Ends m mid failed)
    (hlater : ∀ a m', mid a m' → (later a).Ends m' done' failed) :
    (action >>= later).Ends m done' failed := by
  unfold Ends at hfirst
  simp only [Ends, Bind.bind, EStateM.bind]
  cases hresult : action m with
  | ok a m' =>
    rw [hresult] at hfirst
    exact hlater a m' hfirst
  | error stop m' =>
    rw [hresult] at hfirst
    cases stop with
    | fault fault => exact hfirst
    | overflow cause => trivial

/-- Looking at the machine leaves it as it is. -/
theorem ends_get_bind {later : Machine → Action β} (h : (later m).Ends m done' failed) :
    Ends (get >>= later) m done' failed :=
  h

/-- A change of the machine succeeds. -/
theorem ends_modify {f : Machine → Machine} {done : Unit → Machine → Prop} (h : done () (f m)) :
    Ends (modify f) m done failed :=
  h

/-- An action goes on from the changed machine. -/
theorem ends_modify_bind {f : Machine → Machine} {later : Unit → Action β}
    (h : (later ()).Ends (f m) done' failed) : Ends (modify f >>= later) m done' failed :=
  h

/-- The result of a computation is gone on with; an overflow ends the action. -/
theorem ends_ofChecked_bind {c : Checked α}
    (h : ∀ a, c = .ok a → (later a).Ends m done' failed) :
    Ends (ofChecked c >>= later) m done' failed := by
  cases c with
  | ok a => exact h a rfl
  | error cause => trivial

/-- Taking over a result succeeds or fails with it. -/
theorem ends_ofResult {result : Except WordFault α} (hok : ∀ a, result = .ok a → done a m)
    (herror : ∀ fault, result = .error fault → failed fault m) :
    Ends (ofResult result) m done failed := by
  cases result with
  | ok a => exact hok a rfl
  | error fault => exact herror fault rfl

/-- A choice ends as the action that is chosen. -/
theorem Ends.ite {p : Prop} [Decidable p] {yes no : Action α}
    (hyes : p → yes.Ends m done failed) (hno : ¬ p → no.Ends m done failed) :
    Ends (if p then yes else no) m done failed := by
  split
  · exact hyes ‹p›
  · exact hno ‹¬ p›

/-! ## The stack -/

/-- A value is pushed, unless the stack is full. -/
theorem ends_push {scene : Scene} {value : Value} {done : Unit → Machine → Prop}
    (hroom : m.stack.length < scene.stackLimit → done () { m with stack := value :: m.stack })
    (hfull : scene.stackLimit ≤ m.stack.length → failed (.stackOverflow scene.stackLimit) m) :
    (push scene value).Ends m done failed := by
  refine ends_get_bind (Ends.ite ?_ ?_)
  · intro hlt
    exact hroom hlt
  · intro hnot
    exact hfull (Nat.le_of_not_lt hnot)

/-- Taking a value fails only on an empty stack. -/
theorem ends_pop {done : Value → Machine → Prop} (hnone : failed .stackUnderflow m)
    (hsome : ∀ value rest, m.stack = value :: rest → done value { m with stack := rest }) :
    pop.Ends m done failed := by
  apply ends_get_bind
  cases hstack : m.stack with
  | nil => exact hnone
  | cons value rest => exact hsome value rest hstack

/-- Nothing is taken if there are fewer than two values. -/
theorem ends_popPair {done : Value × Value → Machine → Prop} (hnone : failed .stackUnderflow m)
    (hsome : ∀ second first rest, m.stack = second :: first :: rest →
      done (first, second) { m with stack := rest }) :
    popPair.Ends m done failed := by
  apply ends_get_bind
  rcases hstack : m.stack with _ | ⟨second, _ | ⟨first, rest⟩⟩
  · exact hnone
  · exact hnone
  · exact hsome second first rest hstack

/-- Looking at a value fails only if it is not there. -/
theorem ends_peek {depth : Nat} {done : Value → Machine → Prop} (hnone : failed .stackUnderflow m)
    (hsome : ∀ value, done value m) : (peek depth).Ends m done failed := by
  apply ends_get_bind
  cases m.stack[depth]? with
  | none => exact hnone
  | some value => exact hsome value

end Action

/-- A value is pushed if there is room for it. -/
theorem push_of_room {scene : Scene} {m : Machine} (hroom : m.stack.length < scene.stackLimit)
    (value : Value) : push scene value m = .ok () { m with stack := value :: m.stack } := by
  show (if m.stack.length < scene.stackLimit then _ else _ : Action Unit) m = _
  rw [if_pos hroom]
  rfl

namespace Builtin

variable {scene : Scene} {word : Builtin} {m m' : Machine}

/-- A word is performed by its action. -/
theorem perform_eq :
    word.perform scene m =
      match word.action scene m with
      | .ok _ m' => .ok word.flow m'
      | .error stop m' => .error stop m' := by
  show (word.action scene >>= _) m = _
  simp only [bind, EStateM.bind]
  cases word.action scene m with
  | ok a m' => rfl
  | error stop m' => rfl

/-- A word whose action succeeds tells the script how to go on. -/
theorem perform_of_action (h : word.action scene m = .ok () m') :
    word.perform scene m = .ok word.flow m' := by
  rw [perform_eq, h]

/-- A word whose action stops stops the script. -/
theorem perform_of_error {stop : Stop} (h : word.action scene m = .error stop m') :
    word.perform scene m = .error stop m' := by
  rw [perform_eq, h]

/-- A word is done if its action is. -/
theorem perform_eq_ok {flow : Flow} (h : word.perform scene m = .ok flow m') :
    flow = word.flow ∧ word.action scene m = .ok () m' := by
  rw [perform_eq] at h
  split at h
  · rename_i haction
    cases h
    exact ⟨rfl, haction⟩
  · cases h

/-- A word faults if its action does. -/
theorem perform_eq_fault {fault : WordFault}
    (h : word.perform scene m = .error (.fault fault) m') :
    word.action scene m = .error (.fault fault) m' := by
  rw [perform_eq] at h
  split at h
  · cases h
  · rename_i haction
    cases h
    exact haction

end Builtin

end HexArena.Script
