import HexArena.Proofs.Script.Derivation
import HexArena.Proofs.Script.Lexer
import HexArena.Proofs.Script.Reachable

/-!
# The queue does what the tree means

A script whose structure is in order has a syntax tree, and running it as a
queue of tokens does what evaluating the tree does.  So the checks made when a
script is loaded are enough: a loaded script never faults over its structure.

Main results:

- Theorem {lit}`Interpreter.eval_eq_of_run`: a run that is not cut short ends as
  the evaluation of the tree does, and leaves the same store.
- Theorem {lit}`Interpreter.runTurn_of_check`: a script that is in order ends or
  faults while running; a script that is not changes nothing.
-/

namespace HexArena.Script.Interpreter

/-! ## Runs and evaluations -/

/-- The run of a script in order that is not cut short by the number of steps
ends as the evaluation of its tree: with the same outcome, machine and
dictionary. -/
theorem eval_eq_of_run {i : Interpreter} (hi : i.Reachable) {tokens : List Token}
    (htokens : checkStructure i.dictionary tokens = .ok ()) {context : TurnContext}
    {commands : List Command} {outcome : Outcome} {stop : Execution}
    (hrun : (i.start tokens context commands).run (i.scene context) i.limits i.limits.stepLimit =
      .ok (outcome, stop))
    (hsteps : ∀ limit, outcome ≠ .faulted (.stepLimitExceeded limit)) :
    (∀ word ∈ i.dictionary.words, ∃ body, Tree.parse .body word.body = some body) ∧
      ∃ tree, Tree.parse .script tokens = some tree ∧ tree.tokens = tokens ∧
        tree.eval (i.scene context) i.limits 0 ⟨i.dictionary, startMachine context commands⟩ =
          some (outcome.result, ⟨stop.dictionary, stop.machine⟩) := by
  have hsound := hi.sound
  obtain ⟨tree, htree⟩ := exists_parse_of_checkStructure htokens
  have hfollows := run_follows hsound htree hrun
  exact ⟨hsound, tree, htree, Tree.tokens_of_parse htree, hfollows.result_eq hsteps⟩

/-- A word that counts the top of the stack down to zero. -/
def drain : UserWord where
  name := "drain"
  body := [.word "begin", .number 1, .word "-", .word "dup", .word "not", .word "until"]
  named := by decide

/-- An interpreter that knows one user word. -/
def drainer : Interpreter :=
  { fresh PieceId.ada .default with dictionary := Dictionary.standard.bind drain }

theorem reachable_drainer : drainer.Reachable :=
  ⟨PieceId.ada, .default, [.define drain], by rfl⟩

/-- The loop inside a user word counts to zero, and the branch behind it takes
its second side. -/
theorem eval_eq_of_run_drainer :
    ∃ tree, Tree.parse .script
        [.number 2, .word "drain", .word "if", .number 7, .word "else", .number 8, .word "then"] =
          some tree ∧
      tree.eval (drainer.scene .lone) .default 0 ⟨drainer.dictionary, startMachine .lone []⟩ =
        some (.ok (), ⟨drainer.dictionary, { startMachine .lone [] with stack := [.int 8] }⟩) := by
  have hrun : (drainer.start
      [.number 2, .word "drain", .word "if", .number 7, .word "else", .number 8, .word "then"]
      .lone []).run (drainer.scene .lone) drainer.limits drainer.limits.stepLimit =
        .ok (.completed,
          ⟨drainer.dictionary, [], { startMachine .lone [] with stack := [.int 8] }⟩) := by
    rfl
  obtain ⟨-, tree, htree, -, heval⟩ := eval_eq_of_run reachable_drainer (by rfl) hrun nofun
  exact ⟨tree, htree, heval⟩

/-! ## Scripts in order -/

/-- The definitions of a script that is loaded give names that are accepted. -/
theorem named_of_load {d : Dictionary} {script : String} {tokens : List Token}
    (hload : load d script = .ok tokens) {tree : Tree .script}
    (htree : Tree.parse .script tokens = some tree) : tree.Named d.Accepts := by
  obtain ⟨htokens, hcheck, -⟩ := exists_parse_of_load hload
  obtain rfl := Tree.tokens_of_parse htree
  have hsolid : tree.Named fun name => Text.isBlankText name = false :=
    tree.named_of_tokens fun name hname => tokenize_word_solid htokens hname
  rw [checkStructure, ← List.append_nil tree.tokens] at hcheck
  exact hsolid.and (tree.named_of_checkFrom hcheck).1

/-- The run of a loaded script overflows in a component of a coordinate, or
stops without a fault over its structure. -/
theorem run_of_load {i : Interpreter} (hi : i.dictionary.Sound) {script : String}
    {tokens : List Token} (hload : load i.dictionary script = .ok tokens) (context : TurnContext)
    (commands : List Command) :
    i.run tokens context commands = .error .component ∨
      ∃ outcome stop, i.run tokens context commands = .ok (outcome, stop) ∧
        ∀ error, outcome = .faulted error → error.ArisesRunning := by
  cases hrun : i.run tokens context commands with
  | error cause =>
    rw [run_eq_error hrun]
    exact Or.inl rfl
  | ok result =>
    obtain ⟨outcome, stop⟩ := result
    obtain ⟨-, -, tree, htree⟩ := exists_parse_of_load hload
    have hfollows := run_follows hi htree hrun
    have harises := hfollows.arises (named_of_load hload htree)
    exact Or.inr ⟨outcome, stop, rfl, harises⟩

/-- A turn with a script that is in order completes, ends, or faults as a
running script does, unless a component of a coordinate overflows; a turn with
any other script faults with what is wrong and changes nothing. -/
theorem runTurn_of_check {i : Interpreter} (hi : i.Reachable) (script : String)
    (context : TurnContext) (commands : List Command) :
    (∀ n, i.check script = .ok n →
      i.runTurn script context commands = .error .component ∨
        ∃ report, i.runTurn script context commands = .ok report ∧
          (report.outcome = .completed ∨ report.outcome = .ended ∨
            ∃ error, report.outcome = .faulted error ∧ error.ArisesRunning)) ∧
    (∀ error, i.check script = .error error →
      i.runTurn script context commands =
        .ok {
          outcome := .faulted error
          interpreter := i
          piece := context.piece
          mailboxes := context.mailboxes
          commands := commands
          log := [] }) := by
  constructor
  · intro n hcheck
    cases hload : load i.dictionary script with
    | error error =>
      rw [check, hload] at hcheck
      cases hcheck
    | ok tokens =>
      rcases run_of_load hi.sound hload context commands with
        hrun | ⟨outcome, stop, hrun, harises⟩
      · exact Or.inl (runTurn_of_overflowed hload hrun)
      · refine Or.inr ⟨_, runTurn_of_stopped hload hrun, ?_⟩
        cases outcome with
        | completed => exact Or.inl rfl
        | ended => exact Or.inr (Or.inl rfl)
        | faulted error => exact Or.inr (Or.inr ⟨error, rfl, harises error rfl⟩)
  · intro error hcheck
    cases hload : load i.dictionary script with
    | error error' =>
      rw [check, hload] at hcheck
      cases hcheck
      exact runTurn_of_refused hload
    | ok tokens =>
      rw [check, hload] at hcheck
      cases hcheck

/-- A loop over a word that is defined in the same script is in order, and an
open branch is not. -/
theorem runTurn_of_check_drainer :
    drainer.check ": halve 2 / ; 9 begin halve dup not until" = .ok 11 ∧
    (drainer.runTurn ": halve 2 / ; 9 begin halve dup not until" .lone [] = .error .component ∨
      ∃ report,
        drainer.runTurn ": halve 2 / ; 9 begin halve dup not until" .lone [] = .ok report ∧
          (report.outcome = .completed ∨ report.outcome = .ended ∨
            ∃ error, report.outcome = .faulted error ∧ error.ArisesRunning)) ∧
    drainer.check "2 drain if 1 1 move" = .error (.unbalanced "if") ∧
    drainer.runTurn "2 drain if 1 1 move" .lone [.finishRound] =
      .ok {
        outcome := .faulted (.unbalanced "if")
        interpreter := drainer
        piece := TurnContext.lone.piece
        mailboxes := .empty
        commands := [.finishRound]
        log := [] } := by
  have hloop : drainer.check ": halve 2 / ; 9 begin halve dup not until" = .ok 11 := by
    rfl
  have hopen : drainer.check "2 drain if 1 1 move" = .error (.unbalanced "if") := by
    rfl
  exact ⟨hloop, (runTurn_of_check reachable_drainer _ .lone []).1 11 hloop, hopen,
    (runTurn_of_check reachable_drainer _ .lone [.finishRound]).2 _ hopen⟩

end HexArena.Script.Interpreter
