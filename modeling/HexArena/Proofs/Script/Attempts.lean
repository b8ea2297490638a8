import HexArena.Proofs.Script.Conduct
import HexArena.Proofs.Script.Intact

/-!
# The shots of a turn

A script may shoot as often as it likes, and is told of every shot whether it hit.
A run is followed here from item to item, so that its shots can be looked at one by
one.  Only a shot that hits queues a command, and at most one shot of a turn hits.

Main results:

- Definition {lit}`Execution.trail`: the states a run goes through.
- Theorem {lit}`Execution.run_of_mem_trail`: the run goes on from each of them.
- Theorem {lit}`Execution.trail_induction`: what a run that does not fault does along
  them.
- Definition {lit}`Execution.Strides`: what one item of the queue does to the machine.
- Definition {lit}`Execution.attempts`: the shots of a run, with what the script is
  told of each.
- Theorem {lit}`Interpreter.runTurn_attempts`: what a turn queues is what its script
  is told.
-/

namespace HexArena.Script

namespace Execution

variable {scene : Scene} {limits : Limits}

/-! ## The trail of a run -/

/-- The states from which a run takes an item of the queue, in order. -/
def trail (scene : Scene) (limits : Limits) : Nat → Execution → List Execution
  | 0, _ => []
  | fuel + 1, e =>
    match e.pending with
    | [] => []
    | item :: rest =>
      e :: match step { e with pending := rest } scene limits item with
        | .next e => trail scene limits fuel e
        | _ => []

theorem trail_nil {e : Execution} (hq : e.pending = []) (fuel : Nat) :
    trail scene limits fuel e = [] := by
  cases fuel with
  | zero => rfl
  | succ fuel =>
    unfold trail
    rw [hq]

theorem trail_succ {e : Execution} {item : Pending} {rest : List Pending}
    (hq : e.pending = item :: rest) (fuel : Nat) :
    trail scene limits (fuel + 1) e =
      e :: match step { e with pending := rest } scene limits item with
        | .next e => trail scene limits fuel e
        | _ => [] := by
  obtain ⟨dictionary, pending, machine⟩ := e
  cases hq
  rfl

/-- What holds of a state and the steps that are left, and is kept by steps, holds all
along the trail; an item is taken everywhere on it. -/
theorem of_mem_trail {P : Nat → Execution → Prop}
    (hstep : ∀ fuel e item rest next, P (fuel + 1) e → e.pending = item :: rest →
      step { e with pending := rest } scene limits item = .next next → P fuel next)
    {fuel : Nat} {e e' : Execution} (hstart : P fuel e) (h : e' ∈ trail scene limits fuel e) :
    ∃ fuel' item rest, P (fuel' + 1) e' ∧ e'.pending = item :: rest := by
  induction fuel generalizing e with
  | zero => cases h
  | succ fuel ih =>
    cases hq : e.pending with
    | nil =>
      rw [trail_nil hq] at h
      cases h
    | cons item rest =>
      rw [trail_succ hq] at h
      rcases List.mem_cons.mp h with rfl | h
      · exact ⟨fuel, item, rest, hstart, hq⟩
      · cases hs : step { e with pending := rest } scene limits item with
        | next next =>
          rw [hs] at h
          exact ih (hstep fuel e item rest next hstart hq hs) h
        | halted _ | faulted _ _ | overflowed _ =>
          rw [hs] at h
          cases h

/-- A run goes on from every state of its trail, and takes an item there. -/
theorem run_of_mem_trail {fuel : Nat} {e e' : Execution} (h : e' ∈ trail scene limits fuel e) :
    ∃ fuel' item rest, run scene limits fuel e = run scene limits (fuel' + 1) e' ∧
      e'.pending = item :: rest := by
  refine of_mem_trail (P := fun left here => run scene limits fuel e = run scene limits left here)
    ?_ rfl h
  intro left here item rest next hsame hq hs
  rw [hsame, run_succ hq, hs]

/-- A run that does not fault follows its trail to the end: what holds of an empty queue,
and of a script that halts, and goes from the rest of a trail to the whole, holds of the
run. -/
theorem trail_induction {P : Execution → List Execution → Execution → Prop}
    (hempty : ∀ e, e.pending = [] → P e [] e)
    (hhalted : ∀ e item rest last, e.pending = item :: rest →
      step { e with pending := rest } scene limits item = .halted last → P e [e] last)
    (hnext : ∀ e item rest next later stop, e.pending = item :: rest →
      step { e with pending := rest } scene limits item = .next next → P next later stop →
      P e (e :: later) stop)
    {fuel : Nat} {e stop : Execution} {outcome : Outcome}
    (hrun : run scene limits fuel e = .ok (outcome, stop)) (hdone : outcome.isFault = false) :
    P e (trail scene limits fuel e) stop := by
  induction fuel generalizing e with
  | zero =>
    cases hq : e.pending with
    | nil =>
      rw [run_nil hq] at hrun
      cases hrun
      exact hempty stop hq
    | cons item rest =>
      rw [run_zero hq] at hrun
      cases hrun
      cases hdone
  | succ fuel ih =>
    cases hq : e.pending with
    | nil =>
      rw [run_nil hq] at hrun
      cases hrun
      rw [trail_nil hq]
      exact hempty stop hq
    | cons item rest =>
      rw [run_succ hq] at hrun
      rw [trail_succ hq]
      cases hs : step { e with pending := rest } scene limits item with
      | next next =>
        rw [hs] at hrun
        exact hnext e item rest next _ stop hq hs (ih hrun)
      | halted last =>
        rw [hs] at hrun
        cases hrun
        exact hhalted e item rest stop hq hs
      | faulted error last =>
        rw [hs] at hrun
        cases hrun
        cases hdone
      | overflowed cause =>
        rw [hs] at hrun
        cases hrun

/-- The machine of every state of the trail is reached by elementary changes. -/
theorem reaches_of_mem_trail {fuel : Nat} {e e' : Execution} (h : e' ∈ trail scene limits fuel e) :
    e.machine.Reaches scene e'.machine := by
  have hall := of_mem_trail (P := fun _ here => e.machine.Reaches scene here.machine) ?_ .refl h
  · obtain ⟨-, -, -, hreaches, -⟩ := hall
    exact hreaches
  · intro left here item rest next hreaches hq hs
    have hstays : (step { here with pending := rest } scene limits item).Stays scene
        (e.machine.Reaches scene) :=
      stays_step (e := { here with pending := rest }) (Machine.Reaches.stable scene e.machine)
        hreaches item
    rw [hs] at hstays
    exact hstays

/-! ## What an item does -/

/-- The built-in word that is taken from the queue next, if one is. -/
def word? (e : Execution) : Option Builtin :=
  match e.pending with
  | .token (.word name) _ :: _ =>
    match Keyword.ofName? name, e.dictionary.lookup name with
    | none, some (.builtin word) => some word
    | _, _ => none
  | _ => none

/-- What an item that does not fault does to the machine: nothing, something to the
stack, or what a built-in word does. -/
inductive Strides (scene : Scene) (e : Execution) : Machine → Prop
  | stay : Strides scene e e.machine
  | stack (stack : List Value) : Strides scene e { e.machine with stack := stack }
  | word {word : Builtin} {flow : Flow} {m : Machine} (hword : e.word? = some word)
    (hperform : word.perform scene e.machine = .ok flow m) : Strides scene e m

/-- The step leaves a machine as described, unless it faults. -/
abbrev Strode (scene : Scene) (e : Execution) (step : Step) : Prop :=
  step.Keeps (fun e' => e.Strides scene e'.machine)
    (fun outcome e' => outcome.isFault = false → e.Strides scene e'.machine) (fun _ => True)

section Steps

variable {e : Execution} {item : Pending} {rest : List Pending}

theorem strode_act {α : Type} {name : String} {action : Action α} {next : α → Execution → Step}
    (h : ∀ a m, action e.machine = .ok a m →
      e.Strode scene (next a { e with pending := rest, machine := m })) :
    e.Strode scene (act { e with pending := rest } name action next) := by
  unfold act
  cases hresult : action e.machine with
  | ok a m => exact h a m hresult
  | error stop m =>
    cases stop with
    | fault fault => nofun
    | overflow cause => trivial

/-- A jump leaves the machine as it is. -/
theorem strode_jump {e' : Execution} (h : e.Strides scene e'.machine) (opener : Keyword)
    (pending : Option (List Pending)) : e.Strode scene (e'.jump opener pending) := by
  cases pending with
  | some pending => exact h
  | none => nofun

theorem strides_of_push {value : Value} {m : Machine}
    (h : push scene value e.machine = .ok () m) : e.Strides scene m := by
  have hpush : (push scene value).Ends e.machine (fun _ m => e.Strides scene m) (fun _ _ => True) :=
    Action.ends_push (fun _ => .stack _) fun _ => trivial
  exact hpush.of_ok h

theorem strides_of_pop {value : Value} {m : Machine} (h : pop e.machine = .ok value m) :
    e.Strides scene m := by
  have hpop : pop.Ends e.machine (fun _ m => e.Strides scene m) (fun _ _ => True) :=
    Action.ends_pop trivial fun _ _ _ => .stack _
  exact hpop.of_ok h

theorem strode_invoke {name : String} {depth : Nat}
    (hq : e.pending = .token (.word name) depth :: rest) (hname : Keyword.ofName? name = none) :
    e.Strode scene (invoke { e with pending := rest } scene limits name depth) := by
  unfold invoke
  split
  · rename_i word hlookup
    have hlookup : e.dictionary.lookup name = some (.builtin word) := hlookup
    have hword : e.word? = some word := by
      simp only [word?, hq, hname, hlookup]
    apply strode_act
    intro flow m hperform
    cases flow with
    | proceed => exact .word hword hperform
    | halt =>
      intro _
      exact .word hword hperform
  · split
    · nofun
    · exact .stay
  · nofun

theorem strode_control (word : Keyword) (name : String) (depth : Nat) :
    e.Strode scene (control { e with pending := rest } word name depth) := by
  cases word with
  | colon =>
    unfold control
    dsimp only
    split
    · nofun
    · split
      · nofun
      · exact .stay
  | branch =>
    unfold control
    apply strode_act
    intro flag m hpop
    split
    · exact strides_of_pop hpop
    · exact strode_jump (strides_of_pop hpop) _ _
  | otherwise | loop =>
    unfold control
    apply strode_jump
    exact .stay
  | join => exact .stay
  | semicolon | again => nofun

/-- An item does to the machine what is described, unless it faults. -/
theorem strode_step (scene : Scene) (limits : Limits) (hq : e.pending = item :: rest) :
    e.Strode scene (step { e with pending := rest } scene limits item) := by
  unfold step
  split
  · exact strode_act fun _ m hpush => strides_of_push hpush
  · exact strode_act fun _ m hpush => strides_of_push hpush
  · split
    · exact strode_control _ _ _
    · rename_i hname
      exact strode_invoke hq hname
  · apply strode_act
    intro done m hpop
    split
    · exact strides_of_pop hpop
    · exact strides_of_pop hpop

/-- A built-in word that is next is performed. -/
theorem step_of_word? (scene : Scene) (limits : Limits) {word : Builtin}
    (hq : e.pending = item :: rest) (hword : e.word? = some word) :
    ∃ name, step { e with pending := rest } scene limits item =
      act { e with pending := rest } name (word.perform scene) fun flow e =>
        match flow with
        | .proceed => .next e
        | .halt => .halted e := by
  unfold word? at hword
  rw [hq] at hword
  split at hword
  · rename_i name depth later hitem
    cases hitem
    split at hword
    · rename_i hname hlookup
      cases hword
      have hlookup : Dictionary.lookup { e with pending := rest }.dictionary name =
        some (.builtin word) := hlookup
      refine ⟨name, ?_⟩
      unfold step invoke
      dsimp only
      rewrite [hname, hlookup]
      rfl
    · cases hword
  · cases hword

/-- No word but a shot queues a command. -/
theorem Strides.commands_eq {m : Machine} (h : e.Strides scene m)
    (hshots : e.word? = some .shoot → ∀ flow m',
      Builtin.shoot.perform scene e.machine = .ok flow m' → m'.commands = e.machine.commands) :
    m.commands = e.machine.commands := by
  cases h with
  | stay => rfl
  | stack stack => rfl
  | @word word flow _ hword hperform =>
    by_cases hshoot : word = .shoot
    · subst hshoot
      exact hshots hword flow m hperform
    · obtain ⟨-, haction⟩ := Builtin.perform_eq_ok hperform
      cases htakes : word.takesNothing with
      | true => exact ((Builtin.adds_action htakes e.machine).of_ok haction).2
      | false => exact (Builtin.takes_action htakes hshoot e.machine).of_ok haction

end Steps

/-! ## What a run leaves -/

section Runs

variable {e e' stop : Execution} {fuel : Nat} {outcome : Outcome}

/-- A run that does not fault has performed every word on its way, and has gone on
from there. -/
theorem performed_of_mem_trail (hrun : run scene limits fuel e = .ok (outcome, stop))
    (hdone : outcome.isFault = false) (hmem : e' ∈ trail scene limits fuel e) {word : Builtin}
    (hword : e'.word? = some word) :
    ∃ flow m, word.perform scene e'.machine = .ok flow m ∧ m.Reaches scene stop.machine := by
  obtain ⟨fuel', item, rest, hsame, hq⟩ := run_of_mem_trail hmem
  obtain ⟨name, hstep⟩ := step_of_word? scene limits hq hword
  rw [hsame, run_succ hq, hstep] at hrun
  unfold act at hrun
  dsimp only at hrun
  cases hperform : word.perform scene e'.machine with
  | ok flow m =>
    rw [hperform] at hrun
    refine ⟨flow, m, rfl, ?_⟩
    cases flow with
    | halt =>
      cases hrun
      exact .refl
    | proceed =>
      have hrun : run scene limits fuel' { e' with pending := rest, machine := m } =
        .ok (outcome, stop) := hrun
      have hstable := run_stable (e := { e' with pending := rest, machine := m })
        (Machine.Reaches.stable scene m) .refl limits fuel'
      rw [hrun] at hstable
      exact hstable
  | error why m =>
    rw [hperform] at hrun
    cases why with
    | fault fault =>
      cases hrun
      cases hdone
    | overflow cause => cases hrun

/-- A run that does not fault queues nothing if no shot on its way does. -/
theorem commands_of_trail (hrun : run scene limits fuel e = .ok (outcome, stop))
    (hdone : outcome.isFault = false)
    (hshots : ∀ e' ∈ trail scene limits fuel e, e'.word? = some .shoot → ∀ flow m',
      Builtin.shoot.perform scene e'.machine = .ok flow m' →
      m'.commands = e'.machine.commands) :
    stop.machine.commands = e.machine.commands := by
  revert hshots
  refine trail_induction (P := fun e path stop => (∀ e' ∈ path, e'.word? = some .shoot →
      ∀ flow m', Builtin.shoot.perform scene e'.machine = .ok flow m' →
      m'.commands = e'.machine.commands) → stop.machine.commands = e.machine.commands)
    ?_ ?_ ?_ hrun hdone
  · intro e _ _
    rfl
  · intro e item rest last hq hs hshots
    have hstrode := strode_step scene limits hq
    rw [hs] at hstrode
    exact (hstrode rfl).commands_eq (hshots e List.mem_cons_self)
  · intro e item rest next later stop hq hs ih hshots
    obtain ⟨hfirst, hlater⟩ := List.forall_mem_cons.mp hshots
    have hstrode := strode_step scene limits hq
    rw [hs] at hstrode
    have hnext : next.machine.commands = e.machine.commands := hstrode.commands_eq hfirst
    exact (ih hlater).trans hnext

end Runs

end Execution

/-! ## Shots -/

/-- A shot of a script: the machine when the shot is fired, and the value that is on
top of the stack when it has been. -/
structure Attempt where
  machine : Machine
  flag : Option Value
deriving DecidableEq, Repr

/-- The shot is aimed at a hex. -/
def Attempt.Aims (a : Attempt) (cell : Coord) : Prop :=
  ∃ distance relative rest, a.machine.stack = .int relative :: .int distance :: rest ∧
    a.machine.piece.position.offset (a.machine.piece.heading relative) distance = .ok cell

/-- Fire a shot. -/
def Machine.attempt (scene : Scene) (m : Machine) : Attempt where
  machine := m
  flag :=
    match Builtin.shoot.perform scene m with
    | .ok _ m' => m'.stack.head?
    | .error _ _ => none

/-- The shots of a run, in order. -/
def Execution.attempts (scene : Scene) (limits : Limits) (fuel : Nat) (e : Execution) :
    List Attempt :=
  ((e.trail scene limits fuel).filter fun e => e.word? = some .shoot).map
    fun e => e.machine.attempt scene

/-- The shots of a turn, in order; a script that cannot be loaded does not shoot. -/
def Interpreter.attempts (i : Interpreter) (script : String) (context : TurnContext) :
    List Attempt :=
  match load i.dictionary script with
  | .ok tokens =>
    (i.start tokens context []).attempts (i.scene context) i.limits i.limits.stepLimit
  | .error _ => []

section Shots

variable {scene : Scene} {limits : Limits} {start m m' last : Machine} {hit : Bool}

theorem Machine.Shoots.flag (h : m.Shoots scene hit m') : m'.stack.head? = some (.flag hit) := by
  cases h with
  | refuse | miss | hit => rfl

/-- A shot that hits is the only one of a turn that does, and all that is queued. -/
theorem Machine.Shoots.commands_eq (h : m.Shoots scene true m')
    (hbefore : start.Conduct scene.board m) (hafter : m'.Conduct scene.board last) :
    ∃ cell target, (m.attempt scene).Aims cell ∧
      otherOccupant scene start.piece.id cell = .ok (some target) ∧ target.active = true ∧
      last.commands =
        start.commands ++ [.resolveShot start.piece.id target.id start.piece.stats.attack] := by
  cases h with
  | @hit distance relative rest damage spent cell target hstack _ hshoot hcell htarget hactive =>
    obtain ⟨-, hunspent, rfl, rfl⟩ := Piece.shoot_eq_ok hshoot
    have hsame := hbefore.piece.same
    have hfirst : m.commands = start.commands := by
      rcases hbefore.commands with hnone | ⟨-, -, hspent, -⟩
      · exact hnone
      · rw [hunspent] at hspent
        cases hspent
    have hlast : last.commands =
        m.commands ++ [.resolveShot m.piece.id target.id m.piece.stats.attack] := by
      rcases hafter.commands with hnone | ⟨-, hunspent', -⟩
      · exact hnone
      · cases hunspent'
    rw [hfirst, hsame.id, hsame.stats] at hlast
    rw [hsame.id] at htarget
    exact ⟨cell, target, ⟨distance, relative, rest, hstack, hcell⟩, htarget, hactive, hlast⟩

/-- What a script is told of a shot that is fired. -/
theorem Machine.exists_shoots {flow : Flow}
    (h : Builtin.shoot.perform scene m = .ok flow m') :
    ∃ hit, m.Shoots scene hit m' ∧ (m.attempt scene).flag = some (.flag hit) := by
  obtain ⟨-, haction⟩ := Builtin.perform_eq_ok h
  obtain ⟨hit, hshoots⟩ := (Word.ends_shoot scene m).of_ok haction
  refine ⟨hit, hshoots, ?_⟩
  simp only [attempt, h, hshoots.flag]

variable {e stop : Execution} {fuel : Nat} {outcome : Outcome}

theorem Execution.mem_attempts {a : Attempt} :
    a ∈ e.attempts scene limits fuel ↔
      ∃ e' ∈ e.trail scene limits fuel, e'.word? = some .shoot ∧ e'.machine.attempt scene = a := by
  simp only [attempts, List.mem_map, List.mem_filter, decide_eq_true_eq, and_assoc]

/-- The script of a run that does not fault is told of every shot whether it hits. -/
theorem Execution.shoots_of_mem_attempts (hrun : e.run scene limits fuel = .ok (outcome, stop))
    (hdone : outcome.isFault = false) {a : Attempt} (ha : a ∈ e.attempts scene limits fuel) :
    ∃ m hit m', a = m.attempt scene ∧ a.flag = some (.flag hit) ∧ m.Shoots scene hit m' ∧
      e.machine.Reaches scene m ∧ m'.Reaches scene stop.machine := by
  obtain ⟨e', hmem, hword, rfl⟩ := mem_attempts.mp ha
  obtain ⟨flow, m', hperform, hreaches⟩ := performed_of_mem_trail hrun hdone hmem hword
  obtain ⟨hit, hshoots, hflag⟩ := Machine.exists_shoots hperform
  exact ⟨e'.machine, hit, m', rfl, hflag, hshoots, reaches_of_mem_trail hmem, hreaches⟩

/-- A run that does not fault queues nothing if its script is told of no hit. -/
theorem Execution.commands_of_attempts (hrun : e.run scene limits fuel = .ok (outcome, stop))
    (hdone : outcome.isFault = false)
    (hmisses : ∀ a ∈ e.attempts scene limits fuel, a.flag = some (.flag false)) :
    stop.machine.commands = e.machine.commands := by
  apply commands_of_trail hrun hdone
  intro e' hmem hword flow m' hperform
  obtain ⟨hit, hshoots, hflag⟩ := Machine.exists_shoots hperform
  rw [hmisses _ (mem_attempts.mpr ⟨e', hmem, hword, rfl⟩)] at hflag
  cases hshoots with
  | refuse | miss => rfl
  | hit => cases hflag

/-- A turn that does not fault queues nothing but the shot of which its script is told
that it hits. -/
theorem Interpreter.runTurn_attempts {i : Interpreter} {script : String} {context : TurnContext}
    {report : TurnReport} (hturn : i.runTurn script context [] = .ok report)
    (hdone : report.outcome.isFault = false) :
    (∀ a ∈ i.attempts script context, a.flag = some (.flag false) ∨ a.flag = some (.flag true) ∧
      ∃ cell target, a.Aims cell ∧
        otherOccupant (i.scene context) context.piece.id cell = .ok (some target) ∧
        target.active = true ∧
        report.commands =
          [.resolveShot context.piece.id target.id context.piece.stats.attack]) ∧
    ((∀ a ∈ i.attempts script context, a.flag = some (.flag false)) → report.commands = []) := by
  rcases runTurn_eq_ok hturn with ⟨error, -, rfl⟩ | ⟨tokens, outcome, stop, hload, hrun, rfl⟩
  · cases hdone
  · have hdone : outcome.isFault = false := hdone
    have hattempts : i.attempts script context =
        (i.start tokens context []).attempts (i.scene context) i.limits i.limits.stepLimit := by
      rw [attempts, hload]
    have hcommands : (i.report [] outcome stop).commands = stop.machine.commands := by
      simp [report, hdone]
    rw [hattempts, hcommands]
    constructor
    · intro a ha
      obtain ⟨m, hit, m', rfl, hflag, hshoots, hbefore, hafter⟩ :=
        Execution.shoots_of_mem_attempts hrun hdone ha
      cases hit with
      | false => exact Or.inl hflag
      | true =>
        have hconduct := Machine.Conduct.stable (i.scene context)
        have hbefore := (hconduct _).of_reaches (.refl _ _) hbefore
        have hafter := (hconduct _).of_reaches (.refl _ _) hafter
        exact Or.inr ⟨hflag, hshoots.commands_eq hbefore hafter⟩
    · intro hmisses
      exact Execution.commands_of_attempts hrun hdone hmisses

end Shots

end HexArena.Script
