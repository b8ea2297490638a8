import HexArena.Proofs.Lookup
import HexArena.Proofs.Script.Agenda
import HexArena.Proofs.Script.Run

/-!
# Steps do what is left to evaluate

One step on the queue of an agenda leaves the queue of another agenda, and what
is left to evaluate has not changed; or it ends the script as evaluation does.
The dictionary must be sound: every body in it has a tree.

Main results:

- Definition {lit}`Dictionary.Sound`: every user word has a body with a tree.
- Definition {lit}`Step.Follows`: a step agrees with an evaluation.
- Theorem {lit}`Agenda.follows_step`: the step on the queue of an agenda agrees
  with its evaluation.
- Theorem {lit}`Agenda.run_follows`: so does a whole run, unless it is cut short.
-/

namespace HexArena.Script

/-! ## Sound dictionaries -/

/-- The user word has a body with a tree. -/
def UserWord.Sound (word : UserWord) : Prop :=
  ∃ body, Tree.parse .body word.body = some body

/-- Every user word has a body with a tree. -/
def Dictionary.Sound (d : Dictionary) : Prop :=
  ∀ word ∈ d.words, word.Sound

namespace Dictionary

theorem sound_standard : standard.Sound := by
  simp [Sound]

/-- Binding a sound word keeps a dictionary sound. -/
theorem Sound.bind {d : Dictionary} (hd : d.Sound) {new : UserWord} (hnew : new.Sound) :
    (d.bind new).Sound := by
  intro word hword
  rcases mem_bind hword with hold | hbody
  · exact hd word hold
  · rw [UserWord.Sound, hbody]
    exact hnew

end Dictionary

/-! ## Definitions that are accepted -/

/-- The name is one that a definition may give: more than blanks, and not reserved. -/
def Dictionary.Accepts (d : Dictionary) (name : String) : Prop :=
  Text.isBlankText name = false ∧ d.isReserved name = false

/-- After a definition, the same names may be given as before. -/
theorem Dictionary.accepts_define {d d' : Dictionary} {word : UserWord}
    (h : d.define word = .ok () d') : d'.Accepts = d.Accepts := by
  unfold Accepts
  rw [isReserved_define h]

/-- Every definition that is left gives a name of a kind. -/
def Agenda.Named (kind : String → Prop) : Agenda → Prop
  | done => True
  | part tree _ rest => tree.Named kind ∧ rest.Named kind
  | join _ _ rest => rest.Named kind
  | skip _ _ _ _ rest => rest.Named kind
  | test _ inner _ after _ rest => inner.Named kind ∧ after.Named kind ∧ rest.Named kind

/-- The error is one that a running script in order can end with. -/
def Error.ArisesRunning : Error → Prop
  | unknownWord _ | expansionTooDeep _ _ | stepLimitExceeded _ | wordFailed _ _ => True
  | _ => False

/-! ## Steps -/

/-- What a running script shares with an evaluation. -/
def Execution.store (e : Execution) : Store :=
  ⟨e.dictionary, e.machine⟩

/-- A step agrees with what is left to evaluate: it leaves an agenda with the
same evaluation, or ends as the evaluation does. -/
def Step.Follows (scene : Scene) (limits : Limits) (named : Prop)
    (result : Option (Except Break Unit × Store)) : Step → Prop
  | next e => ∃ agenda : Agenda, e.pending = agenda.queue ∧ e.dictionary.Sound ∧
      (named → agenda.Named e.dictionary.Accepts) ∧ agenda.eval scene limits e.store = result
  | halted e => e.dictionary.Sound ∧ result = some (.error .halted, e.store)
  | faulted error e => e.dictionary.Sound ∧ (named → error.ArisesRunning) ∧
      result = some (.error (.faulted error), e.store)
  | overflowed cause => ∃ s, result = some (.error (.overflowed cause), s)

/-- A loop is its inside, and then the test whether it is over. -/
theorem Agenda.eval_unroll (scene : Scene) (limits : Limits) {p : Place} (opener : Spelled .loop)
    (inner : Tree p) (closer : Spelled .again) (after : Tree p) (depth : Nat) (rest : Agenda) :
    (part (.loop opener inner closer after) depth rest).eval scene limits =
      (part inner depth (test opener inner closer after depth rest)).eval scene limits := by
  rw [eval, Tree.eval, eval, eval]
  simp only [bind_assoc]
  congr 1
  funext _
  congr 1
  funext flag
  split <;> rfl

section Steps

variable {scene : Scene} {limits : Limits} {e : Execution} {named : Prop}

attribute [local simp] Agenda.eval Tree.eval Execution.store

/-- An action agrees with an evaluation that starts with it, if what comes next
does. -/
theorem Execution.follows_act {α : Type} {word : String} {action : Action α}
    {next : α → Execution → Step} {later : α → Evaluation Unit} (hd : e.dictionary.Sound)
    (hnext : ∀ a m, (next a { e with machine := m }).Follows scene limits named
      (later a ⟨e.dictionary, m⟩)) :
    (e.act word action next).Follows scene limits named
      ((Evaluation.act word action >>= later) e.store) := by
  rw [Evaluation.bind_apply, Evaluation.act, Execution.store, Execution.act]
  cases action e.machine with
  | ok a m => exact hnext a m
  | error stop m =>
    cases stop with
    | fault fault => exact ⟨hd, fun _ => trivial, rfl⟩
    | overflow cause => exact ⟨_, rfl⟩

theorem Execution.step_literal (value : Value) (depth : Nat) :
    e.step scene limits (.token value.token depth) = e.literal scene value := by
  cases value <;> rfl

theorem Execution.step_word {name : String} (plain : Keyword.ofName? name = none) (depth : Nat) :
    e.step scene limits (.token (.word name) depth) = e.invoke scene limits name depth := by
  rw [step, plain]

theorem Execution.step_control {k : Keyword} (spelled : Spelled k) (depth : Nat) :
    e.step scene limits (.token spelled.token depth) = e.control k spelled.name depth := by
  rw [Spelled.token, step, spelled.spells]

variable {p : Place} {rest : Tree p} {depth : Nat} {later : Agenda}

/-- A literal is pushed. -/
theorem follows_literal (value : Value) (hd : e.dictionary.Sound)
    (hq : e.pending = (Agenda.part rest depth later).queue) :
    (e.step scene limits (.token value.token depth)).Follows scene limits
      ((Agenda.part (.literal value rest) depth later).Named e.dictionary.Accepts)
      ((Agenda.part (.literal value rest) depth later).eval scene limits e.store) := by
  rw [Execution.step_literal, Agenda.eval, Tree.eval, bind_assoc]
  exact Execution.follows_act hd fun _ m => ⟨.part rest depth later, hq, hd, id, rfl⟩

/-- A word does what it means, and a user word puts its body in front. -/
theorem follows_word {name : String} (plain : Keyword.ofName? name = none)
    (hd : e.dictionary.Sound) (hq : e.pending = (Agenda.part rest depth later).queue) :
    (e.step scene limits (.token (.word name) depth)).Follows scene limits
      ((Agenda.part (.word name plain rest) depth later).Named e.dictionary.Accepts)
      ((Agenda.part (.word name plain rest) depth later).eval scene limits e.store) := by
  rw [Execution.step_word plain, Execution.invoke, Agenda.eval, Tree.eval, bind_assoc,
    Evaluation.bind_apply, Evaluation.meaning, Execution.store]
  cases hmeaning : e.dictionary.lookup name with
  | none => exact ⟨hd, fun _ => trivial, rfl⟩
  | some meaning =>
    cases meaning with
    | builtin word =>
      simp only [Option.bind_some, Evaluation.perform, bind_assoc]
      refine Execution.follows_act hd fun flow m => ?_
      cases flow with
      | proceed => exact ⟨.part rest depth later, hq, hd, id, rfl⟩
      | halt => exact ⟨hd, rfl⟩
    | user word =>
      obtain ⟨body, hbody⟩ := hd word (Dictionary.mem_of_lookup hmeaning)
      simp only [Option.bind_some, bind_assoc]
      rw [Evaluation.bind_apply, Evaluation.enter]
      split
      · exact ⟨hd, fun _ => trivial, rfl⟩
      · refine ⟨.part body (depth + 1) (.part rest depth later), ?_, hd, ?_, ?_⟩
        · rw [Agenda.queue, Tree.tokens_of_parse hbody, hq]
        · exact fun h => ⟨body.named_of_body rfl, h⟩
        · rw [hbody, Agenda.eval, Agenda.eval]
          rfl

/-- A branch without a division is taken or skipped. -/
theorem follows_branch (opener : Spelled .branch) (yes : Tree p) (closer : Spelled .join)
    (hd : e.dictionary.Sound)
    (hq : e.pending = (Agenda.part yes depth (.join closer depth (.part rest depth later))).queue) :
    (e.step scene limits (.token opener.token depth)).Follows scene limits
      ((Agenda.part (.branch opener yes closer rest) depth later).Named e.dictionary.Accepts)
      ((Agenda.part (.branch opener yes closer rest) depth later).eval scene limits e.store) := by
  rw [Execution.step_control, Execution.control, Agenda.eval, Tree.eval, bind_assoc]
  refine Execution.follows_act hd fun flag m => ?_
  have hskip : skipBranch true 0 e.pending = some (Agenda.part rest depth later).queue := by
    rw [hq, Agenda.queue, skipBranch_tokens]
    simp [Agenda.queue, skipBranch]
  split
  · refine ⟨.part yes depth (.join closer depth (.part rest depth later)), hq, hd, ?_, ?_⟩
    · exact fun h => ⟨h.1.1, h.1.2, h.2⟩
    · simp
  · simp only [hskip]
    refine ⟨.part rest depth later, rfl, hd, fun h => ⟨h.1.2, h.2⟩, ?_⟩
    simp

/-- A divided branch takes one of its sides. -/
theorem follows_choice (opener : Spelled .branch) (yes : Tree p) (divider : Spelled .otherwise)
    (no : Tree p) (closer : Spelled .join) (hd : e.dictionary.Sound)
    (hq : e.pending =
      (Agenda.part yes depth (.skip divider no closer depth (.part rest depth later))).queue) :
    (e.step scene limits (.token opener.token depth)).Follows scene limits
      ((Agenda.part (.choice opener yes divider no closer rest) depth later).Named
        e.dictionary.Accepts)
      ((Agenda.part (.choice opener yes divider no closer rest) depth later).eval
        scene limits e.store) := by
  rw [Execution.step_control, Execution.control, Agenda.eval, Tree.eval, bind_assoc]
  refine Execution.follows_act hd fun flag m => ?_
  have hskip : skipBranch true 0 e.pending =
      some (Agenda.part no depth (.join closer depth (.part rest depth later))).queue := by
    rw [hq, Agenda.queue, skipBranch_tokens]
    simp [Agenda.queue, skipBranch]
  split
  · refine ⟨.part yes depth (.skip divider no closer depth (.part rest depth later)), hq, hd,
      ?_, ?_⟩
    · exact fun h => ⟨h.1.1, h.1.2.2, h.2⟩
    · simp
  · simp only [hskip]
    refine ⟨.part no depth (.join closer depth (.part rest depth later)), rfl, hd, ?_, ?_⟩
    · exact fun h => ⟨h.1.2.1, h.1.2.2, h.2⟩
    · simp

/-- A loop puts its inside and its test in front. -/
theorem follows_loop (opener : Spelled .loop) (inner : Tree p) (closer : Spelled .again)
    (hd : e.dictionary.Sound)
    (hq : e.pending = Pending.ofTokens inner.tokens depth ++
      .token closer.token depth :: (Agenda.part rest depth later).queue) :
    (e.step scene limits (.token opener.token depth)).Follows scene limits
      ((Agenda.part (.loop opener inner closer rest) depth later).Named e.dictionary.Accepts)
      ((Agenda.part (.loop opener inner closer rest) depth later).eval scene limits e.store) := by
  have hcollect : collectLoop 0 e.pending =
      some (inner.tokens, (Agenda.part rest depth later).queue) := by
    rw [hq, collectLoop_tokens]
    simp [collectLoop]
  rw [Execution.step_control, Execution.control, hcollect]
  refine ⟨.part inner depth (.test opener inner closer rest depth later), rfl, hd, ?_, ?_⟩
  · exact fun h => ⟨h.1.1, h.1.1, h.1.2, h.2⟩
  · rw [Agenda.eval_unroll]
    rfl

/-- A definition binds its body. -/
theorem follows_definition {rest : Tree .script} (opener : Spelled .colon) {name : String}
    (plain : Keyword.ofName? name = none) (body : Tree .body) (closer : Spelled .semicolon)
    (hd : e.dictionary.Sound)
    (hq : e.pending = .token (.word name) depth :: (Pending.ofTokens body.tokens depth ++
      .token closer.token depth :: (Agenda.part rest depth later).queue)) :
    (e.step scene limits (.token opener.token depth)).Follows scene limits
      ((Agenda.part (.definition opener name plain body closer rest) depth later).Named
        e.dictionary.Accepts)
      ((Agenda.part (.definition opener name plain body closer rest) depth later).eval
        scene limits e.store) := by
  have hbody := collectBody_tokens name (body.unmarked rfl) closer depth
    (Agenda.part rest depth later).queue
  rw [Execution.step_control, Execution.control, hq, collectDefinition, definitionName_word plain]
  simp only [bind, Except.bind, hbody]
  rw [Agenda.eval, Tree.eval, bind_assoc, Evaluation.bind_apply, Evaluation.bindWord]
  cases hword : UserWord.ofName name body.tokens with
  | error cause =>
    refine ⟨hd, ?_, rfl⟩
    rintro ⟨⟨⟨hname, -⟩, -⟩, -⟩
    rw [UserWord.ofName, dif_pos hname] at hword
    cases hword
  | ok word =>
    obtain ⟨hname, hbody'⟩ : word.name = name ∧ word.body = body.tokens := by
      unfold UserWord.ofName at hword
      split at hword
      · cases hword
        exact ⟨rfl, rfl⟩
      · cases hword
    have hsound : word.Sound := ⟨body, by rw [hbody', Tree.parse_tokens]⟩
    simp only [pure, Except.pure, Execution.store]
    cases hdefine : e.dictionary.define word with
    | error error d =>
      obtain ⟨hreserved, -, rfl⟩ := Dictionary.define_eq_error_iff.mp hdefine
      refine ⟨hd, ?_, rfl⟩
      rintro ⟨⟨⟨-, free⟩, -⟩, -⟩
      rw [hname, free] at hreserved
      cases hreserved
    | ok _ d =>
      have haccepts := Dictionary.accepts_define hdefine
      obtain ⟨-, rfl⟩ := Dictionary.define_eq_ok_iff.mp hdefine
      refine ⟨.part rest depth later, rfl, hd.bind hsound, fun h => ?_, rfl⟩
      rw [haccepts]
      exact ⟨h.1.2, h.2⟩

/-- The end of a branch does nothing. -/
theorem follows_join (closer : Spelled .join) (hd : e.dictionary.Sound)
    (hq : e.pending = later.queue) :
    (e.step scene limits (.token closer.token depth)).Follows scene limits
      ((Agenda.join closer depth later).Named e.dictionary.Accepts)
      ((Agenda.join closer depth later).eval scene limits e.store) := by
  rw [Execution.step_control, Execution.control]
  exact ⟨later, hq, hd, id, rfl⟩

/-- The side of a divided branch that is not taken is skipped. -/
theorem follows_skip (divider : Spelled .otherwise) (no : Tree p) (closer : Spelled .join)
    (hd : e.dictionary.Sound)
    (hq : e.pending = Pending.ofTokens no.tokens depth ++
      .token closer.token depth :: later.queue) :
    (e.step scene limits (.token divider.token depth)).Follows scene limits
      ((Agenda.skip divider no closer depth later).Named e.dictionary.Accepts)
      ((Agenda.skip divider no closer depth later).eval scene limits e.store) := by
  have hskip : skipBranch false 0 e.pending = some later.queue := by
    rw [hq, skipBranch_tokens]
    simp [skipBranch]
  rw [Execution.step_control, Execution.control, hskip]
  exact ⟨later, rfl, hd, id, rfl⟩

/-- The test of a loop ends the loop or repeats it. -/
theorem follows_test (opener : Spelled .loop) (inner : Tree p) (closer : Spelled .again)
    (hd : e.dictionary.Sound) (hq : e.pending = (Agenda.part rest depth later).queue) :
    (e.step scene limits (.test inner.tokens depth)).Follows scene limits
      ((Agenda.test opener inner closer rest depth later).Named e.dictionary.Accepts)
      ((Agenda.test opener inner closer rest depth later).eval scene limits e.store) := by
  rw [Execution.step, Agenda.eval]
  refine Execution.follows_act hd fun flag m => ?_
  split
  · exact ⟨.part rest depth later, hq, hd, fun h => h.2, rfl⟩
  · refine ⟨.part inner depth (.test opener inner closer rest depth later), ?_, hd, ?_, ?_⟩
    · rw [hq]
      rfl
    · exact fun h => ⟨h.1, h⟩
    · rw [← Agenda.eval_unroll]
      rfl

end Steps

/-- The step on the queue of an agenda agrees with its evaluation. -/
theorem Agenda.follows_step {scene : Scene} {limits : Limits} {e : Execution} {item : Pending}
    (agenda : Agenda) (hd : e.dictionary.Sound) (hq : agenda.queue = item :: e.pending) :
    (e.step scene limits item).Follows scene limits (agenda.Named e.dictionary.Accepts)
      (agenda.eval scene limits e.store) := by
  -- Trees without tokens leave nothing in the queue, so the item may come from further behind.
  induction agenda with
  | done => cases hq
  | @part p tree depth later ih =>
    cases tree with
    | done =>
      have hnamed : ∀ kind, (part (p := p) .done depth later).Named kind = later.Named kind := by
        intro kind
        rw [Named, Tree.Named, true_and]
      have heval : (part (p := p) .done depth later).eval scene limits =
          later.eval scene limits := by
        rw [eval, Tree.eval, pure_bind]
      rw [hnamed, heval]
      exact ih hq
    | literal value rest =>
      obtain ⟨rfl, hrest⟩ := List.cons.inj hq
      exact follows_literal value hd hrest.symm
    | word name plain rest =>
      obtain ⟨rfl, hrest⟩ := List.cons.inj hq
      exact follows_word plain hd hrest.symm
    | branch opener yes closer rest =>
      obtain ⟨rfl, hrest⟩ := List.cons.inj hq
      exact follows_branch opener yes closer hd (by simp [← hrest, queue, Pending.ofTokens])
    | choice opener yes divider no closer rest =>
      obtain ⟨rfl, hrest⟩ := List.cons.inj hq
      exact follows_choice opener yes divider no closer hd
        (by simp [← hrest, queue, Pending.ofTokens])
    | loop opener inner closer rest =>
      obtain ⟨rfl, hrest⟩ := List.cons.inj hq
      exact follows_loop opener inner closer hd (by simp [← hrest, queue, Pending.ofTokens])
    | definition opener name plain body closer rest =>
      obtain ⟨rfl, hrest⟩ := List.cons.inj hq
      exact follows_definition opener plain body closer hd
        (by simp [← hrest, queue, Pending.ofTokens])
  | join closer depth later ih =>
    obtain ⟨rfl, hrest⟩ := List.cons.inj hq
    exact follows_join closer hd hrest.symm
  | skip divider no closer depth later ih =>
    obtain ⟨rfl, hrest⟩ := List.cons.inj hq
    exact follows_skip divider no closer hd hrest.symm
  | test opener inner closer after depth later ih =>
    obtain ⟨rfl, hrest⟩ := List.cons.inj hq
    exact follows_test opener inner closer hd hrest.symm

/-! ## Runs -/

/-- The result of an evaluation that ends like a turn. -/
def Outcome.result : Outcome → Except Break Unit
  | completed => .ok ()
  | ended => .error .halted
  | faulted error => .error (.faulted error)

/-- The end of a run agrees with an evaluation: the dictionary is sound, only a
running script's faults end it, and it ends as the evaluation does unless the
steps ran out. -/
structure Outcome.Follows (named : Prop) (result : Option (Except Break Unit × Store))
    (outcome : Outcome) (stop : Execution) : Prop where
  sound : stop.dictionary.Sound
  arises : named → ∀ error, outcome = .faulted error → error.ArisesRunning
  result_eq : (∀ limit, outcome ≠ .faulted (.stepLimitExceeded limit)) →
    result = some (outcome.result, stop.store)

/-- A step that agrees with an evaluation goes on with it or ends as it does. -/
theorem Step.Follows.keeps {scene : Scene} {limits : Limits} {named named' : Prop}
    {result : Option (Except Break Unit × Store)} {step : Step}
    (h : step.Follows scene limits named' result) (hnamed : named → named') :
    step.Keeps (fun e => (Step.next e).Follows scene limits named result)
      (Outcome.Follows named result) (fun _ => True) := by
  cases step with
  | next e =>
    obtain ⟨agenda, hq, hd, hnamed', heval⟩ := h
    exact ⟨agenda, hq, hd, fun hn => hnamed' (hnamed hn), heval⟩
  | halted e =>
    obtain ⟨hd, hresult⟩ := h
    exact ⟨hd, nofun, fun _ => hresult⟩
  | faulted error e =>
    obtain ⟨hd, hruntime, hresult⟩ := h
    refine ⟨hd, fun hn error' herror => ?_, fun _ => hresult⟩
    cases herror
    exact hruntime (hnamed hn)
  | overflowed cause => trivial

/-- An agenda with an empty queue has nothing left to evaluate. -/
theorem Agenda.eval_of_queue_nil (scene : Scene) (limits : Limits) {agenda : Agenda}
    (hq : agenda.queue = []) : agenda.eval scene limits = pure () := by
  induction agenda with
  | done => rfl
  | part tree depth later ih =>
    obtain ⟨htree, hlater⟩ := List.append_eq_nil_iff.mp hq
    cases tree with
    | done => rw [eval, Tree.eval, pure_bind, ih hlater]
    | _ => cases htree
  | join => cases hq
  | skip => cases hq
  | test => cases hq

/-- The run on the queue of an agenda agrees with its evaluation. -/
theorem Agenda.run_follows {scene : Scene} {limits : Limits} {fuel : Nat} {e stop : Execution}
    {outcome : Outcome} {agenda : Agenda} (hq : e.pending = agenda.queue)
    (hd : e.dictionary.Sound)
    (hrun : Execution.run scene limits fuel e = .ok (outcome, stop)) :
    outcome.Follows (agenda.Named e.dictionary.Accepts) (agenda.eval scene limits e.store)
      stop := by
  -- The agenda changes from step to step, and what is left to evaluate stays the same.
  let named := agenda.Named e.dictionary.Accepts
  let result := agenda.eval scene limits e.store
  let goesOn (e : Execution) := (Step.next e).Follows scene limits named result
  have hempty : ∀ e, goesOn e → e.pending = [] → Outcome.completed.Follows named result e := by
    rintro e ⟨agenda, hq, hd, -, heval⟩ hnil
    refine ⟨hd, nofun, fun _ => ?_⟩
    rw [← heval, agenda.eval_of_queue_nil scene limits (hq.symm.trans hnil)]
    rfl
  have hlimit : ∀ e item rest, goesOn e → e.pending = item :: rest →
      Outcome.Follows named result (.faulted (.stepLimitExceeded limits.stepLimit))
        { e with pending := rest } := by
    rintro e item rest ⟨agenda, -, hd, -⟩ -
    refine ⟨hd, fun _ error herror => ?_, fun hne => absurd rfl (hne _)⟩
    cases herror
    trivial
  have hstep : ∀ e item rest, goesOn e → e.pending = item :: rest →
      (Execution.step { e with pending := rest } scene limits item).Keeps goesOn
        (Outcome.Follows named result) (fun _ => True) := by
    rintro e item rest ⟨agenda, hq, hd, hnamed, heval⟩ hcons
    have hfollows : (Execution.step { e with pending := rest } scene limits item).Follows scene
        limits (agenda.Named e.dictionary.Accepts) (agenda.eval scene limits e.store) :=
      agenda.follows_step hd (hq.symm.trans hcons)
    rw [heval] at hfollows
    exact hfollows.keeps hnamed
  have hkept := Execution.run_induction hempty hlimit hstep fuel ⟨agenda, hq, hd, id, rfl⟩
  rw [hrun] at hkept
  exact hkept

end HexArena.Script
