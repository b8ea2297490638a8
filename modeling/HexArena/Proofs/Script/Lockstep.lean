import HexArena.Proofs.Script.Coupling
import HexArena.Proofs.Script.Turn

/-!
# Two runs in lockstep

One script is run twice, by machines that differ only in the triple that says
where their piece stands.  The runs go on step by step in the same way, until one
of them stops for a reason that excuses it.

Main results:

- Theorem {lit}`Execution.coupled_step`: a step keeps two running scripts in
  lockstep.
- Theorem {lit}`Execution.coupled_run`: so does every run.
-/

namespace HexArena.Script

/-! ## Steps -/

/-- The same running script, but for the triple that says where the piece stands. -/
def Execution.Alike (near : Coord → Coord → Prop) (e e' : Execution) : Prop :=
  ∃ machine, e.machine.Alike near machine ∧ e' = { e with machine := machine }

namespace Execution.Alike

variable {near : Coord → Coord → Prop} {e e' : Execution}

/-- The same queue is left to run. -/
theorem pending (h : e.Alike near e') : e'.pending = e.pending := by
  obtain ⟨machine, -, rfl⟩ := h
  rfl

/-- The same names mean the same. -/
theorem dictionary (h : e.Alike near e') : e'.dictionary = e.dictionary := by
  obtain ⟨machine, -, rfl⟩ := h
  rfl

/-- Running scripts stay alike when both go on with one queue. -/
theorem setPending (h : e.Alike near e') (pending : List Pending) :
    Execution.Alike near { e with pending := pending } { e' with pending := pending } := by
  obtain ⟨machine, hm, rfl⟩ := h
  exact ⟨machine, hm, rfl⟩

end Execution.Alike

/-- Two steps lead to the same, unless one of them is excused. -/
inductive Coupling.Steps (C : Coupling) : Step → Step → Prop
  | next {e e' : Execution} (he : e.Alike C.near e') : Steps C (.next e) (.next e')
  | halted {e e' : Execution} (he : e.Alike C.near e') : Steps C (.halted e) (.halted e')
  | faulted {e e' : Execution} (error : Error) (he : e.Alike C.near e') :
    Steps C (.faulted error e) (.faulted error e')
  | overflowed (cause : Overflow) : Steps C (.overflowed cause) (.overflowed cause)
  | lost {error : Error} (h : C.lost error) (e : Execution) (step' : Step) :
    Steps C (.faulted error e) step'
  | left (h : C.loose) (cause : Overflow) (step' : Step) : Steps C (.overflowed cause) step'
  | right (h : C.loose) (step : Step) (cause : Overflow) : Steps C step (.overflowed cause)

/-- Two scripts may expand their words equally far, or the first one less far. -/
def Coupling.Expands (C : Coupling) (limits limits' : Limits) : Prop :=
  limits'.expansionDepth = limits.expansionDepth ∨
    limits.expansionDepth ≤ limits'.expansionDepth ∧
      ∀ word, C.lost (.expansionTooDeep word limits.expansionDepth)

namespace Execution

variable {C : Coupling} {scene scene' : Scene} {limits limits' : Limits} {e e' : Execution}

/-- Steps that act alike and go on alike lead to the same. -/
theorem coupled_act {α : Type} {action action' : Action α} {next next' : α → Execution → Step}
    (haction : C.Coupled Eq action action') (he : e.Alike C.near e') (word : String)
    (hnext : ∀ (a : α) (machine machine' : Machine), machine.Alike C.near machine' →
      C.Steps (next a { e with machine := machine }) (next' a { e with machine := machine' })) :
    C.Steps (e.act word action next) (e'.act word action' next') := by
  obtain ⟨machine, hm, rfl⟩ := he
  have hresults := haction e.machine machine hm
  unfold act
  generalize action e.machine = result, action' machine = result' at hresults ⊢
  cases hresults with
  | ok h hm' =>
    cases h
    exact hnext _ _ _ hm'
  | error stop hm' =>
    cases stop with
    | fault fault => exact .faulted _ ⟨_, hm', rfl⟩
    | overflow cause => exact .overflowed cause
  | lost h => exact .lost (h word) _ _
  | left h cause => exact .left h cause _
  | right h _ cause => exact .right h _ cause

/-- A jump leads to the same, as the queues are equal. -/
theorem coupled_jump (he : e.Alike C.near e') (opener : Keyword) (rest : Option (List Pending)) :
    C.Steps (e.jump opener rest) (e'.jump opener rest) := by
  cases rest with
  | some rest => exact .next (he.setPending rest)
  | none => exact .faulted _ he

/-- Invoking a name leads to the same, unless only the first script may not expand it. -/
theorem coupled_invoke (h : C.Sees scene scene') (hlimits : C.Expands limits limits')
    (he : e.Alike C.near e') (name : String) (depth : Nat) :
    C.Steps (e.invoke scene limits name depth) (e'.invoke scene' limits' name depth) := by
  unfold invoke
  rw [he.dictionary]
  cases e.dictionary.lookup name with
  | none => exact .faulted _ he
  | some entry =>
    cases entry with
    | builtin word =>
      refine coupled_act (word.coupled_perform h) he name fun flow machine machine' hm => ?_
      cases flow with
      | proceed => exact .next ⟨_, hm, rfl⟩
      | halt => exact .halted ⟨_, hm, rfl⟩
    | user word =>
      have hnext := he.setPending (Pending.ofTokens word.body (depth + 1) ++ e.pending)
      rw [he.dictionary] at hnext
      dsimp only
      rw [he.pending]
      rcases hlimits with heq | ⟨hle, hlost⟩
      · rw [heq]
        split
        · exact .faulted _ he
        · exact .next hnext
      · by_cases hdeep : limits.expansionDepth < depth + 1
        · rw [if_pos hdeep]
          exact .lost (hlost _) _ _
        · rw [if_neg hdeep, if_neg fun hdeep' => hdeep (Nat.lt_of_le_of_lt hle hdeep')]
          exact .next hnext

/-- A control word leads to the same. -/
theorem coupled_control (he : e.Alike C.near e') (word : Keyword) (name : String) (depth : Nat) :
    C.Steps (e.control word name depth) (e'.control word name depth) := by
  cases word with
  | colon =>
    obtain ⟨machine, hm, rfl⟩ := he
    unfold control
    dsimp only
    cases collectDefinition e.pending with
    | error error => exact .faulted _ ⟨machine, hm, rfl⟩
    | ok collected =>
      obtain ⟨new, rest⟩ := collected
      dsimp only
      cases e.dictionary.define new with
      | error error => exact .faulted _ ⟨machine, hm, rfl⟩
      | ok dictionary => exact .next ⟨machine, hm, rfl⟩
  | branch =>
    unfold control
    refine coupled_act coupled_pop he name fun flag machine machine' hm => ?_
    split
    · exact .next ⟨_, hm, rfl⟩
    · exact coupled_jump ⟨_, hm, rfl⟩ _ _
  | otherwise =>
    unfold control
    rw [he.pending]
    exact coupled_jump he _ _
  | join => exact .next he
  | loop =>
    unfold control
    rw [he.pending]
    exact coupled_jump he _ _
  | semicolon | again => exact .faulted _ he

/-- A step keeps two running scripts in lockstep. -/
theorem coupled_step (h : C.Sees scene scene') (hlimits : C.Expands limits limits')
    (he : e.Alike C.near e') (item : Pending) :
    C.Steps (e.step scene limits item) (e'.step scene' limits' item) := by
  unfold step
  split
  · exact coupled_act (coupled_push h _) he _ fun _ _ _ hm => .next ⟨_, hm, rfl⟩
  · exact coupled_act (coupled_push h _) he _ fun _ _ _ hm => .next ⟨_, hm, rfl⟩
  · split
    · exact coupled_control he _ _ _
    · exact coupled_invoke h hlimits he _ _
  · refine coupled_act coupled_pop he _ fun done machine machine' hm => ?_
    split
    · exact .next ⟨_, hm, rfl⟩
    · exact .next ⟨_, hm, rfl⟩

end Execution

/-! ## Runs -/

/-- Two runs stop alike, unless one of them is excused. -/
inductive Coupling.Runs (C : Coupling) :
    Checked (Outcome × Execution) → Checked (Outcome × Execution) → Prop
  | stopped {e e' : Execution} (outcome : Outcome) (he : e.Alike C.near e') :
    Runs C (.ok (outcome, e)) (.ok (outcome, e'))
  | overflowed (cause : Overflow) : Runs C (.error cause) (.error cause)
  | lost {error : Error} (h : C.lost error) (e : Execution)
    (run' : Checked (Outcome × Execution)) : Runs C (.ok (.faulted error, e)) run'
  | left (h : C.loose) (cause : Overflow) (run' : Checked (Outcome × Execution)) :
    Runs C (.error cause) run'
  | right (h : C.loose) (run : Checked (Outcome × Execution)) (cause : Overflow) :
    Runs C run (.error cause)

/-- Two runs have equally many steps left, or the first one fewer. -/
def Coupling.Lasts (C : Coupling) (limits limits' : Limits) (fuel fuel' : Nat) : Prop :=
  fuel' = fuel ∧ limits'.stepLimit = limits.stepLimit ∨
    fuel ≤ fuel' ∧ C.lost (.stepLimitExceeded limits.stepLimit)

/-- Two runs of one script go on in lockstep, until one of them is excused. -/
theorem Execution.coupled_run {C : Coupling} {scene scene' : Scene} {limits limits' : Limits}
    (h : C.Sees scene scene') (hlimits : C.Expands limits limits') {fuel fuel' : Nat}
    (hfuel : C.Lasts limits limits' fuel fuel') {e e' : Execution} (he : e.Alike C.near e') :
    C.Runs (run scene limits fuel e) (run scene' limits' fuel' e') := by
  induction fuel generalizing fuel' e e' with
  | zero =>
    cases hq : e.pending with
    | nil =>
      rw [run_nil hq, run_nil (he.pending.trans hq)]
      exact .stopped _ he
    | cons item rest =>
      rw [run_zero hq]
      rcases hfuel with ⟨rfl, heq⟩ | ⟨-, hlost⟩
      · rw [run_zero (he.pending.trans hq), heq]
        exact .stopped _ (he.setPending rest)
      · exact .lost hlost _ _
  | succ fuel ih =>
    obtain ⟨left, rfl, hleft⟩ : ∃ left, fuel' = left + 1 ∧ C.Lasts limits limits' fuel left := by
      rcases hfuel with ⟨rfl, heq⟩ | ⟨hle, hlost⟩
      · exact ⟨fuel, rfl, Or.inl ⟨rfl, heq⟩⟩
      · exact ⟨fuel' - 1, by omega, Or.inr ⟨by omega, hlost⟩⟩
    cases hq : e.pending with
    | nil =>
      rw [run_nil hq, run_nil (he.pending.trans hq)]
      exact .stopped _ he
    | cons item rest =>
      rw [run_succ hq, run_succ (he.pending.trans hq)]
      have hsteps := coupled_step h hlimits (he.setPending rest) item
      generalize { e with pending := rest }.step scene limits item = step,
        { e' with pending := rest }.step scene' limits' item = step' at hsteps ⊢
      cases hsteps with
      | next he => exact ih hleft he
      | halted he => exact .stopped _ he
      | faulted error he => exact .stopped _ he
      | overflowed cause => exact .overflowed cause
      | lost hlost => exact .lost hlost _ _
      | left hloose cause => exact .left hloose cause _
      | right hloose _ cause => exact .right hloose _ cause

end HexArena.Script
