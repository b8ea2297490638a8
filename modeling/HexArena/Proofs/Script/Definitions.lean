import HexArena.Proofs.Script.Attempts
import HexArena.Proofs.Script.Reachable

/-!
# Definitions in order

Definitions enter a dictionary ahead of turns and from the scripts of turns.  In a
script a definition may be skipped or repeated, and all definitions of a turn are
forgotten if the turn faults.  What is left of all uses of an interpreter is the list of
the definitions that were made, and the dictionary is what comes of making them in order.
None of them reserves a name or frees one, and as this is all that the checks of a script
ask a dictionary, no definition changes which scripts can be loaded.

Main results:

- Definition {lit}`Dictionary.defineAll`: the dictionary after definitions in order.
- Theorem {lit}`Dictionary.lookup_defineAll_eq_builtin_iff`: definitions leave the built-in
  words their meanings.
- Theorem {lit}`Execution.defineAll_of_run`: a run that does not fault makes the
  definitions it comes to, and no others.
- Definition {lit}`Interpreter.history`: the definitions that uses in order make.
- Theorem {lit}`Interpreter.defineAll_of_useAll`: they make the dictionary that is left.
- Theorem {lit}`Interpreter.load_useAll`: what an interpreter has been used for does not
  change what it can load.
- Theorem {lit}`Interpreter.Reachable.checks_eq`: user words do not matter to any check.
-/

namespace HexArena.Script

/-! ## Definitions in order -/

namespace Dictionary

variable {d d' d'' : Dictionary} {words : List UserWord}

/-- The dictionary after definitions in order, up to the first one that is refused. -/
def defineAll (d : Dictionary) : List UserWord → EStateM.Result Error Dictionary Unit
  | [] => .ok () d
  | word :: later =>
    match d.define word with
    | .ok () d => d.defineAll later
    | .error error d => .error error d

/-- Definitions are made by making the first one and then the others. -/
theorem defineAll_cons_eq_ok {word : UserWord} {later : List UserWord} :
    d.defineAll (word :: later) = .ok () d'' ↔
      ∃ d', d.define word = .ok () d' ∧ d'.defineAll later = .ok () d'' := by
  rw [defineAll]
  cases d.define word with
  | ok _ d' => simp
  | error error d' => simp

/-- A single definition. -/
theorem defineAll_singleton (d : Dictionary) (word : UserWord) :
    d.defineAll [word] = d.define word := by
  rw [defineAll]
  cases d.define word with
  | ok _ d' => rfl
  | error error d' => rfl

/-- Definitions are made in order by making some first and then the others. -/
theorem defineAll_append_eq_ok {first later : List UserWord} :
    d.defineAll (first ++ later) = .ok () d'' ↔
      ∃ d', d.defineAll first = .ok () d' ∧ d'.defineAll later = .ok () d'' := by
  induction first generalizing d with
  | nil =>
    constructor
    · intro h
      exact ⟨d, rfl, h⟩
    · rintro ⟨d', hfirst, hlater⟩
      cases hfirst
      exact hlater
  | cons word first ih =>
    rw [List.cons_append, defineAll, defineAll]
    cases d.define word with
    | ok _ next => exact ih
    | error error left => simp

/-- Definitions can be made in two parts. -/
theorem defineAll_append {first later : List UserWord} (hfirst : d.defineAll first = .ok () d')
    (hlater : d'.defineAll later = .ok () d'') : d.defineAll (first ++ later) = .ok () d'' :=
  defineAll_append_eq_ok.mpr ⟨d', hfirst, hlater⟩

/-- What every definition keeps, definitions in order keep. -/
theorem defineAll_induction {kept : Dictionary → Prop}
    (hdefine : ∀ d word d', kept d → d.define word = .ok () d' → kept d') (hd : kept d)
    (h : d.defineAll words = .ok () d') : kept d' := by
  induction words generalizing d with
  | nil =>
    cases h
    exact hd
  | cons word later ih =>
    obtain ⟨next, hword, hlater⟩ := defineAll_cons_eq_ok.mp h
    exact ih (hdefine d word next hd hword) hlater

/-- Definitions leave every built-in word its meaning, in any letter case, and give no
other name one. -/
theorem lookup_defineAll_eq_builtin_iff (h : d.defineAll words = .ok () d') {name : String}
    {native : Builtin} :
    d'.lookup name = some (.builtin native) ↔ d.lookup name = some (.builtin native) := by
  let kept (d' : Dictionary) :=
    d'.lookup name = some (.builtin native) ↔ d.lookup name = some (.builtin native)
  have hdefine : ∀ next word defined, kept next → next.define word = .ok () defined →
      kept defined :=
    fun next word defined hnext hword => (lookup_define_eq_builtin_iff hword).trans hnext
  exact defineAll_induction hdefine Iff.rfl h

/-- Definitions change no reserved name. -/
theorem isReserved_defineAll (h : d.defineAll words = .ok () d') :
    d'.isReserved = d.isReserved := by
  let kept (d' : Dictionary) := d'.isReserved = d.isReserved
  have hdefine : ∀ next word defined, kept next → next.define word = .ok () defined →
      kept defined :=
    fun next word defined hnext hword => (isReserved_define hword).trans hnext
  exact defineAll_induction hdefine rfl h

end Dictionary

/-! ## The definitions of a run -/

/-- Unless it faults, the step leaves a dictionary. -/
def Step.Leaves (left : EStateM.Result Error Dictionary Unit) (step : Step) : Prop :=
  step.Keeps (fun e => left = .ok () e.dictionary)
    (fun outcome e => outcome.isFault = false → left = .ok () e.dictionary) (fun _ => True)

/-- A step that faults may leave anything. -/
theorem Step.leaves_faulted (left : EStateM.Result Error Dictionary Unit) (error : Error)
    (e : Execution) :
    (Step.faulted error e).Leaves left := by
  intro hdone
  cases hdone

namespace Execution

variable {scene : Scene} {limits : Limits}

/-- The definition that is taken from the queue next, if one is. -/
def definition? (e : Execution) : Option UserWord :=
  match e.pending with
  | .token token _ :: rest =>
    match token.keyword?, collectDefinition rest with
    | some .colon, .ok (word, _) => some word
    | _, _ => none
  | _ => none

/-- The definitions that a run comes to, in order: a definition that is repeated is there
again, and one that is skipped is not. -/
def definitions (scene : Scene) (limits : Limits) (fuel : Nat) (e : Execution) : List UserWord :=
  (e.trail scene limits fuel).filterMap definition?

section Steps

variable {e : Execution} {item : Pending} {rest : List Pending}

theorem leaves_act {α : Type} {name : String} {action : Action α} {next : α → Execution → Step}
    {left : EStateM.Result Error Dictionary Unit}
    (h : ∀ a m, (next a { e with machine := m }).Leaves left) :
    (e.act name action next).Leaves left := by
  unfold act
  cases action e.machine with
  | ok a m => exact h a m
  | error why m =>
    cases why with
    | fault fault => exact Step.leaves_faulted _ _ _
    | overflow cause => trivial

theorem leaves_jump (e : Execution) (opener : Keyword) (pending : Option (List Pending)) :
    (e.jump opener pending).Leaves (.ok () e.dictionary) := by
  cases pending with
  | some pending => rfl
  | none => exact Step.leaves_faulted _ _ _

theorem leaves_invoke (e : Execution) (name : String) (depth : Nat) :
    (e.invoke scene limits name depth).Leaves (.ok () e.dictionary) := by
  unfold invoke
  split
  · apply leaves_act
    intro flow m
    cases flow with
    | proceed => rfl
    | halt => exact fun _ => rfl
  · split
    · exact Step.leaves_faulted _ _ _
    · rfl
  · exact Step.leaves_faulted _ _ _

/-- No control word but the one that opens a definition changes the dictionary. -/
theorem leaves_control (e : Execution) {word : Keyword} (hword : word ≠ .colon) (name : String)
    (depth : Nat) : (e.control word name depth).Leaves (.ok () e.dictionary) := by
  cases word with
  | colon => exact absurd rfl hword
  | branch =>
    unfold control
    apply leaves_act
    intro flag m
    split
    · rfl
    · exact leaves_jump _ _ _
  | otherwise | loop => exact leaves_jump _ _ _
  | join => rfl
  | semicolon | again => exact Step.leaves_faulted _ _ _

/-- The word that opens a definition makes it. -/
theorem leaves_colon (e : Execution) {name : String} {depth : Nat}
    (hq : e.pending = .token (.word name) depth :: rest)
    (hname : Keyword.ofName? name = some .colon) :
    (control { e with pending := rest } .colon name depth).Leaves
      (e.dictionary.defineAll e.definition?.toList) := by
  unfold control
  dsimp only
  cases hcollect : collectDefinition rest with
  | error error => exact Step.leaves_faulted _ _ _
  | ok collected =>
    obtain ⟨new, behind⟩ := collected
    have hdefinition : e.definition? = some new := by
      simp only [definition?, hq, Token.keyword?, hname, hcollect]
    rw [hdefinition, Option.toList_some, Dictionary.defineAll_singleton]
    dsimp only
    cases e.dictionary.define new with
    | error error d => exact Step.leaves_faulted _ _ _
    | ok _ defined => rfl

/-- A step that is no definition leaves the dictionary as it is. -/
theorem leaves_undefined {step : Step} (hnone : e.definition? = none)
    (h : step.Leaves (.ok () e.dictionary)) :
    step.Leaves (e.dictionary.defineAll e.definition?.toList) := by
  rw [hnone]
  exact h

/-- Unless it faults, an item makes the definition that it opens, if it opens one, and
leaves the dictionary as it is otherwise. -/
theorem leaves_step (scene : Scene) (limits : Limits) (hq : e.pending = item :: rest) :
    (step { e with pending := rest } scene limits item).Leaves
      (e.dictionary.defineAll e.definition?.toList) := by
  unfold step
  split
  · apply leaves_undefined (by simp [definition?, hq, Token.keyword?])
    exact leaves_act fun _ _ => rfl
  · apply leaves_undefined (by simp [definition?, hq, Token.keyword?])
    exact leaves_act fun _ _ => rfl
  · rename_i name depth
    cases hname : Keyword.ofName? name with
    | none =>
      apply leaves_undefined (by simp [definition?, hq, Token.keyword?, hname])
      exact leaves_invoke _ _ _
    | some word =>
      by_cases hword : word = .colon
      · subst hword
        exact leaves_colon e hq hname
      · apply leaves_undefined (by simp [definition?, hq, Token.keyword?, hname, hword])
        exact leaves_control _ hword _ _
  · apply leaves_undefined (by simp [definition?, hq])
    apply leaves_act
    intro done m
    split
    · rfl
    · rfl

end Steps

theorem filterMap_definition?_cons (e : Execution) (later : List Execution) :
    (e :: later).filterMap definition? =
      e.definition?.toList ++ later.filterMap definition? := by
  cases hdefinition : e.definition? with
  | none => simp [hdefinition]
  | some word => simp [hdefinition]

/-- A run that does not fault makes the definitions that it comes to, and no others. -/
theorem defineAll_of_run {fuel : Nat} {e stop : Execution} {outcome : Outcome}
    (hrun : run scene limits fuel e = .ok (outcome, stop)) (hdone : outcome.isFault = false) :
    e.dictionary.defineAll (e.definitions scene limits fuel) = .ok () stop.dictionary := by
  unfold definitions
  refine trail_induction (P := fun e path stop =>
    e.dictionary.defineAll (path.filterMap definition?) = .ok () stop.dictionary)
    ?_ ?_ ?_ hrun hdone
  · intro e _
    rfl
  · intro e item rest last hq hs
    have hleaves := leaves_step scene limits hq
    rw [hs] at hleaves
    rw [filterMap_definition?_cons]
    exact Dictionary.defineAll_append (hleaves rfl) rfl
  · intro e item rest next later stop hq hs ih
    have hleaves := leaves_step scene limits hq
    rw [hs] at hleaves
    rw [filterMap_definition?_cons]
    exact Dictionary.defineAll_append hleaves ih

end Execution

/-! ## The definitions of an interpreter -/

namespace Interpreter

/-- The definitions that the script of a turn comes to, in order; a script that cannot be
loaded comes to none. -/
def definitions (i : Interpreter) (script : String) (context : TurnContext)
    (commands : List Command) : List UserWord :=
  match load i.dictionary script with
  | .ok tokens =>
    (i.start tokens context commands).definitions (i.scene context) i.limits i.limits.stepLimit
  | .error _ => []

/-- The definitions that a use makes: a word ahead of turns if it is accepted, and what
the script of a turn comes to if the turn does not fault. -/
def made (i : Interpreter) : Use → List UserWord
  | .define word =>
    match i.define word with
    | .ok () _ => [word]
    | .error _ _ => []
  | .turn script context commands =>
    match i.runTurn script context commands with
    | .ok report =>
      if report.outcome.isFault then [] else i.definitions script context commands
    | .error _ => []

/-- The definitions that uses in order make. -/
def history (i : Interpreter) : List Use → List UserWord
  | [] => []
  | first :: rest =>
    i.made first ++
      match i.use first with
      | .ok i => i.history rest
      | .error _ => []

variable {i i' : Interpreter}

theorem defineAll_of_runTurn {script : String} {context : TurnContext} {commands : List Command}
    {report : TurnReport} (h : i.runTurn script context commands = .ok report) :
    i.dictionary.defineAll (i.made (.turn script context commands)) =
      .ok () report.interpreter.dictionary := by
  rw [made, h]
  rcases runTurn_eq_ok h with ⟨error, -, rfl⟩ | ⟨tokens, outcome, stop, hload, hrun, rfl⟩
  · rfl
  · dsimp only [Interpreter.report]
    cases hdone : outcome.isFault with
    | true => rfl
    | false =>
      have hmade := Execution.defineAll_of_run hrun hdone
      rw [definitions, hload]
      exact hmade

/-- A use leaves the dictionary with the definitions that it makes. -/
theorem defineAll_of_use {use : Use} (h : i.use use = .ok i') :
    i.dictionary.defineAll (i.made use) = .ok () i'.dictionary := by
  cases use with
  | define word =>
    cases hdefine : i.define word with
    | ok _ defined =>
      rw [Interpreter.use, hdefine] at h
      cases h
      obtain ⟨-, free, rfl⟩ := define_eq_ok_iff.mp hdefine
      rw [made, hdefine, Dictionary.defineAll_singleton]
      exact i.dictionary.define_of_free word free
    | error error left =>
      rw [Interpreter.use, hdefine] at h
      cases h
      rw [made, hdefine, define_error hdefine]
      rfl
  | turn script context commands =>
    cases hturn : i.runTurn script context commands with
    | ok report =>
      rw [Interpreter.use, hturn] at h
      cases h
      exact defineAll_of_runTurn hturn
    | error cause =>
      rw [Interpreter.use, hturn] at h
      cases h

/-- Uses in order leave the dictionary with the definitions of their history. -/
theorem defineAll_of_useAll {uses : List Use} (h : i.useAll uses = .ok i') :
    i.dictionary.defineAll (i.history uses) = .ok () i'.dictionary := by
  induction uses generalizing i with
  | nil =>
    cases h
    rfl
  | cons first rest ih =>
    obtain ⟨next, hfirst, hrest⟩ := bind_eq_ok.mp h
    rw [history, hfirst]
    exact Dictionary.defineAll_append (defineAll_of_use hfirst) (ih hrest)

end Interpreter

/-! ## What a dictionary is asked by the checks -/

section Checks

variable {d d' : Dictionary}

/-- The structure check asks a dictionary only which names are reserved. -/
theorem checkFrom_congr (h : d'.isReserved = d.isReserved) (context : Context)
    (tokens : List Token) : checkFrom d' context tokens = checkFrom d context tokens := by
  fun_induction checkFrom d context tokens with
  | case1 context name around hdefinition => simp [checkFrom, hdefinition]
  | case2 context hopened hdefinition => simp [checkFrom, hopened, hdefinition]
  | case3 context construct opened hopened hdefinition => simp [checkFrom, hopened, hdefinition]
  | case7 context token hcolon next rest hdefinition ih =>
    -- Of all tokens, only the one that opens a definition makes the check ask.
    rw [checkFrom.eq_def]
    simp only [hcolon, hdefinition, h, ih]
  | _ =>
    rw [checkFrom.eq_def]
    simp_all

/-- So does the check of a word that is defined ahead of turns. -/
theorem checkWord_congr (h : d'.isReserved = d.isReserved) (word : UserWord) :
    checkWord d' word = checkWord d word := by
  unfold checkWord checkStructure
  rw [checkFrom_congr h]

/-- So does loading a script. -/
theorem load_congr (h : d'.isReserved = d.isReserved) (script : String) :
    load d' script = load d script := by
  unfold load checkStructure
  simp only [checkFrom_congr h]

end Checks

namespace Interpreter

variable {i i' : Interpreter}

/-- Uses of an interpreter change no reserved name. -/
theorem isReserved_useAll {uses : List Use} (h : i.useAll uses = .ok i') :
    i'.dictionary.isReserved = i.dictionary.isReserved :=
  Dictionary.isReserved_defineAll (defineAll_of_useAll h)

/-- What an interpreter has been used for does not change what it can load. -/
theorem load_useAll {uses : List Use} (h : i.useAll uses = .ok i') (script : String) :
    load i'.dictionary script = load i.dictionary script :=
  load_congr (isReserved_useAll h) script

/-- The built-in words of an interpreter in use are those that it started with. -/
theorem Reachable.lookup_eq_builtin_iff (hi : i.Reachable) {name : String} {native : Builtin} :
    i.dictionary.lookup name = some (.builtin native) ↔ Builtin.ofName? name = some native := by
  obtain ⟨owner, limits, uses, huses⟩ := hi
  have hmade : Dictionary.standard.defineAll ((fresh owner limits).history uses) =
      .ok () i.dictionary := defineAll_of_useAll huses
  rw [Dictionary.lookup_defineAll_eq_builtin_iff hmade, Dictionary.lookup_standard]
  simp

/-- The names that are reserved in an interpreter in use are those that are reserved
without user words. -/
theorem Reachable.isReserved_eq (hi : i.Reachable) :
    i.dictionary.isReserved = Dictionary.standard.isReserved := by
  obtain ⟨owner, limits, uses, huses⟩ := hi
  exact isReserved_useAll huses

/-- The user words of an interpreter in use do not matter to what is checked before a script
runs, or before a word is bound. -/
theorem Reachable.checks_eq (hi : i.Reachable) :
    (∀ script, load i.dictionary script = load .standard script) ∧
    (∀ tokens, checkStructure i.dictionary tokens = checkStructure .standard tokens) ∧
    ∀ word, checkWord i.dictionary word = checkWord .standard word := by
  have hreserved := hi.isReserved_eq
  refine ⟨load_congr hreserved, ?_, checkWord_congr hreserved⟩
  exact checkFrom_congr hreserved .top

end Interpreter

end HexArena.Script
