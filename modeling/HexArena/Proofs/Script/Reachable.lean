import HexArena.Proofs.Script.Grammar
import HexArena.Proofs.Script.Simulation
import HexArena.Proofs.Script.Turn

/-!
# Interpreters in use

An interpreter is used in two ways: words are defined ahead of any turn, and
scripts are run as turns.  A word that is refused and a turn that faults leave
no definition behind, so the dictionary of an interpreter in use is sound: every
body in it has a syntax tree.

Main results:

- Definition {lit}`Interpreter.use`: the interpreter after a definition or a
  turn.
- Definition {lit}`Interpreter.Reachable`: what a fresh interpreter becomes by
  uses in any order.
- Theorem {lit}`Interpreter.Reachable.induction`: what every use keeps holds of
  every reachable interpreter.
- Theorem {lit}`Interpreter.Reachable.sound`: its dictionary is sound.
-/

namespace HexArena.Script

/-! ## Uses -/

/-- A use of an interpreter. -/
inductive Use where
  | define (word : UserWord)
  | turn (script : String) (context : TurnContext) (commands : List Command)

namespace Interpreter

/-- The interpreter after a use, whether a word is accepted or refused. -/
def use (i : Interpreter) : Use → Checked Interpreter
  | .define word =>
    match i.define word with
    | .ok () i' => .ok i'
    | .error _ i' => .ok i'
  | .turn script context commands =>
    (i.runTurn script context commands).map TurnReport.interpreter

/-- The interpreter after uses in order. -/
def useAll (i : Interpreter) : List Use → Checked Interpreter
  | [] => .ok i
  | first :: rest => do
    let i ← i.use first
    i.useAll rest

/-- The interpreter comes from a fresh one by uses in some order. -/
def Reachable (i : Interpreter) : Prop :=
  ∃ owner limits uses, (fresh owner limits).useAll uses = .ok i

/-- A word is defined exactly if it passes and its name is not reserved. -/
theorem define_eq_ok_iff {i i' : Interpreter} {word : UserWord} :
    i.define word = .ok () i' ↔
      checkWord i.dictionary word = .ok () ∧ i.dictionary.isReserved word.name = false ∧
        i' = { i with dictionary := i.dictionary.bind word } := by
  unfold define
  cases checkWord i.dictionary word with
  | error error => simp
  | ok checked =>
    unfold Dictionary.define
    cases i.dictionary.isReserved word.name <;> simp [eq_comm]

/-- A word that is refused leaves the interpreter as it was. -/
theorem define_error {i i' : Interpreter} {word : UserWord} {error : Error}
    (h : i.define word = .error error i') : i' = i := by
  unfold define at h
  split at h
  · cases h
    rfl
  · split at h
    · rename_i hdefine
      cases h
      rw [Dictionary.define_error hdefine]
    · cases h

/-- What a use leaves is what a definition or a turn leaves, or nothing has
changed. -/
theorem use_eq_ok {i i' : Interpreter} {use : Use} (h : i.use use = .ok i') :
    i' = i ∨ (∃ word, i.define word = .ok () i') ∨
      ∃ script context commands report, i.runTurn script context commands = .ok report ∧
        report.interpreter = i' := by
  cases use with
  | define word =>
    cases hdefine : i.define word with
    | ok _ defined =>
      rw [Interpreter.use, hdefine] at h
      cases h
      exact Or.inr (Or.inl ⟨word, hdefine⟩)
    | error error left =>
      rw [Interpreter.use, hdefine] at h
      cases h
      exact Or.inl (define_error hdefine)
  | turn script context commands =>
    cases hturn : i.runTurn script context commands with
    | ok report =>
      rw [Interpreter.use, hturn] at h
      exact Or.inr (Or.inr ⟨script, context, commands, report, hturn, Except.ok.inj h⟩)
    | error cause =>
      rw [Interpreter.use, hturn] at h
      cases h

/-- What definitions and turns keep, uses in any order keep. -/
theorem useAll_induction {kept : Interpreter → Prop}
    (hdefine : ∀ i word i', kept i → i.define word = .ok () i' → kept i')
    (hturn : ∀ i script context commands report, kept i →
      i.runTurn script context commands = .ok report → kept report.interpreter)
    {i i' : Interpreter} (hi : kept i) {uses : List Use} (huses : i.useAll uses = .ok i') :
    kept i' := by
  induction uses generalizing i with
  | nil =>
    cases huses
    exact hi
  | cons first rest ih =>
    unfold useAll at huses
    obtain ⟨next, hfirst, hrest⟩ := bind_eq_ok.mp huses
    have hnext : kept next := by
      rcases use_eq_ok hfirst with rfl | ⟨word, hword⟩ |
        ⟨script, context, commands, report, hrun, rfl⟩
      · exact hi
      · exact hdefine i word next hi hword
      · exact hturn i script context commands report hi hrun
    exact ih hnext hrest

/-- What holds of fresh interpreters and is kept by definitions and turns holds
of reachable interpreters. -/
theorem Reachable.induction {kept : Interpreter → Prop}
    (hfresh : ∀ owner limits, kept (fresh owner limits))
    (hdefine : ∀ i word i', kept i → i.define word = .ok () i' → kept i')
    (hturn : ∀ i script context commands report, kept i →
      i.runTurn script context commands = .ok report → kept report.interpreter)
    {i : Interpreter} (hi : i.Reachable) : kept i := by
  obtain ⟨owner, limits, uses, huses⟩ := hi
  exact useAll_induction hdefine hturn (hfresh owner limits) huses

/-! ## Sound dictionaries -/

/-- A definition that is accepted binds a word with a tree. -/
theorem define_sound {i i' : Interpreter} {word : UserWord} (hi : i.dictionary.Sound)
    (h : i.define word = .ok () i') : i'.dictionary.Sound := by
  obtain ⟨hword, -, rfl⟩ := define_eq_ok_iff.mp h
  exact hi.bind (exists_parse_of_checkWord hword)

/-- A script that is loaded has passed, and has a tree. -/
theorem exists_parse_of_load {d : Dictionary} {script : String} {tokens : List Token}
    (h : load d script = .ok tokens) :
    tokenize script = .ok tokens ∧ checkStructure d tokens = .ok () ∧
      ∃ tree, Tree.parse .script tokens = some tree := by
  unfold load at h
  obtain ⟨read, htokens, hrest⟩ := bind_eq_ok.mp h
  obtain ⟨checked, hcheck, hread⟩ := bind_eq_ok.mp hrest
  cases hread
  exact ⟨htokens, hcheck, exists_parse_of_checkStructure hcheck⟩

/-- The run of a script with a tree agrees with the evaluation of the tree. -/
theorem run_follows {i : Interpreter} (hi : i.dictionary.Sound) {tokens : List Token}
    {tree : Tree .script} (htree : Tree.parse .script tokens = some tree) {context : TurnContext}
    {commands : List Command} {outcome : Outcome} {stop : Execution}
    (hrun : i.run tokens context commands = .ok (outcome, stop)) :
    outcome.Follows (tree.Named i.dictionary.Accepts)
      (tree.eval (i.scene context) i.limits 0 ⟨i.dictionary, startMachine context commands⟩)
      stop := by
  let agenda := Agenda.part tree 0 .done
  have hqueue : (i.start tokens context commands).pending = agenda.queue := by
    simp [agenda, start, Agenda.queue, Tree.tokens_of_parse htree]
  have hnamed : agenda.Named i.dictionary.Accepts = tree.Named i.dictionary.Accepts := by
    simp [agenda, Agenda.Named]
  have heval : agenda.eval (i.scene context) i.limits = tree.eval (i.scene context) i.limits 0 := by
    simp [agenda, Agenda.eval]
  have hfollows := Agenda.run_follows hqueue hi hrun
  rw [start, hnamed, heval] at hfollows
  exact hfollows

/-- A turn leaves a sound dictionary. -/
theorem runTurn_sound {i : Interpreter} (hi : i.dictionary.Sound) {script : String}
    {context : TurnContext} {commands : List Command} {report : TurnReport}
    (h : i.runTurn script context commands = .ok report) :
    report.interpreter.dictionary.Sound := by
  rcases runTurn_eq_ok h with ⟨error, -, rfl⟩ | ⟨tokens, outcome, stop, hload, hrun, rfl⟩
  · exact hi
  · obtain ⟨-, -, tree, htree⟩ := exists_parse_of_load hload
    have hfollows := run_follows hi htree hrun
    simp only [report]
    split
    · exact hi
    · exact hfollows.sound

/-- The dictionary of a reachable interpreter is sound. -/
theorem Reachable.sound {i : Interpreter} (hi : i.Reachable) : i.dictionary.Sound := by
  let kept (i : Interpreter) := i.dictionary.Sound
  have hfresh : ∀ owner limits, kept (fresh owner limits) :=
    fun owner limits => Dictionary.sound_standard
  have hdefine : ∀ i word i', kept i → i.define word = .ok () i' → kept i' :=
    fun i word i' hi hword => define_sound hi hword
  have hturn : ∀ i script context commands report, kept i →
      i.runTurn script context commands = .ok report → kept report.interpreter :=
    fun i script context commands report hi hturn => runTurn_sound hi hturn
  exact hi.induction hfresh hdefine hturn

end Interpreter

end HexArena.Script
