import HexArena.Proofs.Script.Derivation
import HexArena.Proofs.Script.Lexer
import HexArena.Proofs.Script.Reachable

/-!
# Words defined ahead of turns

A word is bound in two ways: ahead of any turn, by its name and its body, or by a script
that holds its definition.  The first checks the body on its own and then the name; the
second checks the definition as a part of the script, body and name in passing, and
collects the body from the queue when it runs.  Both accept the same names and bodies and
leave the same dictionary.

Main results:

- Definition {lit}`definitionTokens`: the definition of a name in a script.
- Theorem {lit}`checkFrom_inside_iff`: the check of a body inside of its definition and
  the check of the body on its own.
- Theorem {lit}`Interpreter.run_definition`: what the definition does as a turn.
- Theorem {lit}`Interpreter.define_iff_definition`: the two ways agree.
-/

namespace HexArena.Script

/-- The definition of a name in a script. -/
def definitionTokens (name : String) (body : List Token) : List Token :=
  .word ":" :: .word name :: body ++ [.word ";"]

/-! ## Checking a body -/

/-- Inside of a definition, a body that does not close it must not open one, and must pass
as it does on its own; what comes behind the definition must pass in the context around
it. -/
theorem checkFrom_inside_iff {d : Dictionary} {name : String} {opened around : List Opened}
    {body rest : List Token}
    (hbody : ∀ token ∈ body, token.keyword? ≠ some .semicolon) {closer : Token}
    (hcloser : closer.keyword? = some .semicolon) :
    checkFrom d ⟨opened, some (name, around)⟩ (body ++ closer :: rest) = .ok () ↔
      (∀ token ∈ body, token.keyword? ≠ some .colon) ∧ checkFrom d ⟨opened, none⟩ body = .ok () ∧
        checkFrom d ⟨around, none⟩ rest = .ok () := by
  induction body generalizing opened with
  | nil =>
    rw [List.nil_append, checkFrom.eq_def]
    simp only [hcloser]
    cases opened with
    | nil => simp [checkFrom]
    | cons construct opened => simp [checkFrom]
  | cons token body ih =>
    obtain ⟨htoken, htokens⟩ := List.forall_mem_cons.mp hbody
    rw [List.cons_append, List.forall_mem_cons, checkFrom.eq_def d ⟨opened, some (name, around)⟩,
      checkFrom.eq_def d ⟨opened, none⟩]
    cases hk : token.keyword? with
    | none => simp [hk, ih htokens]
    | some k =>
      cases k with
      | semicolon => exact absurd hk htoken
      | colon => simp [hk]
      | branch | loop => simp [hk, ih htokens]
      -- These three look at the innermost construct, if there is one.
      | otherwise | join | again =>
        rcases opened with _ | ⟨_ | _ | _, opened⟩ <;> simp [hk, ih htokens]

/-- A body has no mark of a definition if no token of it opens or closes one. -/
theorem definitionMark?_eq_none_iff {tokens : List Token} :
    definitionMark? tokens = none ↔
      ∀ token ∈ tokens, token.keyword? ≠ some .colon ∧ token.keyword? ≠ some .semicolon := by
  rw [definitionMark?, List.findSome?_eq_none_iff]
  refine forall₂_congr fun token _ => ?_
  cases token.keyword? with
  | none => simp
  | some k => cases k <;> simp

/-- A word passes if its body holds no definition and passes on its own. -/
theorem checkWord_eq_ok_iff {d : Dictionary} {word : UserWord} :
    checkWord d word = .ok () ↔
      (∀ token ∈ word.body, token.keyword? ≠ some .colon ∧ token.keyword? ≠ some .semicolon) ∧
        checkStructure d word.body = .ok () := by
  rw [← definitionMark?_eq_none_iff, checkWord]
  cases definitionMark? word.body with
  | none => simp
  | some k => cases k <;> simp

/-- The definition of a name passes if the name is free, and its body holds no definition
and passes on its own. -/
theorem checkStructure_definition_iff {d : Dictionary} {name : String} {body : List Token}
    (hbody : ∀ token ∈ body, token.keyword? ≠ some .semicolon) :
    checkStructure d (definitionTokens name body) = .ok () ↔
      d.isReserved name = false ∧ (∀ token ∈ body, token.keyword? ≠ some .colon) ∧
        checkStructure d body = .ok () := by
  have hinside : checkFrom d ⟨[], some (name, [])⟩ (body ++ [.word ";"]) = .ok () ↔
      (∀ token ∈ body, token.keyword? ≠ some .colon) ∧ checkFrom d ⟨[], none⟩ body = .ok () ∧
        checkFrom d ⟨[], none⟩ [] = .ok () :=
    checkFrom_inside_iff hbody rfl
  have hrest : checkFrom d ⟨[], none⟩ [] = .ok () := rfl
  cases free : d.isReserved name with
  | false =>
    rw [checkStructure, definitionTokens, List.cons_append, List.cons_append, Context.top,
      checkFrom_colon rfl free, hinside]
    simp [hrest, checkStructure, Context.top]
  | true =>
    have hcheck : checkStructure d (definitionTokens name body) ≠ .ok () := by
      have hcolon : (Token.word ":").keyword? = some .colon := rfl
      rw [checkStructure, definitionTokens, List.cons_append, List.cons_append, checkFrom.eq_def]
      simp only [hcolon, Context.top]
      cases hname : definitionName (.word name) with
      | error error =>
        intro hok
        cases hok
      | ok written =>
        cases definitionName_eq_ok hname
        simp [bind, Except.bind, free]
    simp [hcheck]

/-! ## Binding a word -/

/-- A name that is more than blanks makes a user word with any body. -/
theorem UserWord.ofName_of_solid {name : String} (named : Text.isBlankText name = false)
    (body : List Token) : UserWord.ofName name body = .ok ⟨name, body, named⟩ :=
  dif_pos named

/-- A definition in the queue is collected as a whole. -/
theorem collectDefinition_tokens {name : String} {body : List Token}
    (named : Text.isBlankText name = false) (plain : Keyword.ofName? name = none)
    (unmarked : ∀ token ∈ body, token.keyword? ≠ some .colon ∧ token.keyword? ≠ some .semicolon)
    (depth : Nat) (rest : List Pending) :
    collectDefinition (.token (.word name) depth ::
        (Pending.ofTokens body depth ++ .token (.word ";") depth :: rest)) =
      .ok (⟨name, body, named⟩, rest) := by
  let closer : Spelled .semicolon := ⟨";", rfl⟩
  have hbody : collectBody name
      (Pending.ofTokens body depth ++ .token (.word ";") depth :: rest) = .ok (body, rest) :=
    collectBody_tokens name unmarked closer depth rest
  rw [collectDefinition, definitionName_word plain]
  simp only [bind, Except.bind, hbody, UserWord.ofName_of_solid named]
  rfl

namespace Interpreter

/-! ## Running a definition -/

variable {i : Interpreter} {name : String} {body : List Token}

/-- As a turn, the definition of a free name binds it in one step, and does nothing else. -/
theorem run_definition (hlimit : 1 ≤ i.limits.stepLimit)
    (named : Text.isBlankText name = false) (free : i.dictionary.isReserved name = false)
    (unmarked : ∀ token ∈ body, token.keyword? ≠ some .colon ∧ token.keyword? ≠ some .semicolon)
    (context : TurnContext) (commands : List Command) :
    i.run (definitionTokens name body) context commands =
      .ok (.completed, ⟨i.dictionary.bind ⟨name, body, named⟩, [],
        startMachine context commands⟩) := by
  obtain ⟨fuel, hfuel⟩ := Nat.exists_eq_add_of_le' hlimit
  have hplain := (Dictionary.isReserved_eq_false_iff.mp free).1
  have hcollect := collectDefinition_tokens named hplain unmarked 0 []
  have hdefine := i.dictionary.define_of_free ⟨name, body, named⟩ free
  have hpending : (i.start (definitionTokens name body) context commands).pending =
      .token (.word ":") 0 :: .token (.word name) 0 ::
        (Pending.ofTokens body 0 ++ [.token (.word ";") 0]) := by
    simp [start, definitionTokens]
  have hcolon : Keyword.ofName? ":" = some .colon := rfl
  rw [run, hfuel, Execution.run_succ hpending]
  simp only [Execution.step, hcolon, Execution.control, hcollect, start, hdefine]
  exact Execution.run_nil rfl fuel

/-- A definition that passes is run as a turn that completes. -/
theorem runTokens_definition (hlimit : 1 ≤ i.limits.stepLimit)
    (named : Text.isBlankText name = false) {i' : Interpreter}
    (h : i.define ⟨name, body, named⟩ = .ok () i') (context : TurnContext)
    (commands : List Command) :
    i.runTokens (definitionTokens name body) context commands =
      .ok (i.report commands .completed ⟨i'.dictionary, [], startMachine context commands⟩) := by
  obtain ⟨hword, free, rfl⟩ := define_eq_ok_iff.mp h
  have hrun := run_definition hlimit named free (checkWord_eq_ok_iff.mp hword).1 context commands
  rw [run, start, startMachine, scene] at hrun
  simp only [runTokens, hrun]
  rfl

/-! ## The two ways -/

/-- A body does not close a definition if none of its tokens is the word that does. -/
theorem keyword?_ne_semicolon (hbody : ∀ token ∈ body, token.isWord ";" = false) :
    ∀ token ∈ body, token.keyword? ≠ some .semicolon := by
  intro token htoken hsemicolon
  have hword := Token.keyword?_eq_some_iff.mp hsemicolon
  rw [Keyword.name, hbody token htoken] at hword
  cases hword

/-- A word is defined ahead of turns exactly if the structure check accepts its
definition. -/
theorem exists_define_iff (named : Text.isBlankText name = false)
    (hbody : ∀ token ∈ body, token.keyword? ≠ some .semicolon) :
    (∃ i', i.define ⟨name, body, named⟩ = .ok () i') ↔
      checkStructure i.dictionary (definitionTokens name body) = .ok () := by
  rw [checkStructure_definition_iff hbody]
  constructor
  · rintro ⟨i', hdefine⟩
    obtain ⟨hword, free, -⟩ := define_eq_ok_iff.mp hdefine
    obtain ⟨unmarked, hbalanced⟩ := checkWord_eq_ok_iff.mp hword
    exact ⟨free, fun token htoken => (unmarked token htoken).1, hbalanced⟩
  · rintro ⟨free, hcolon, hbalanced⟩
    have hword : checkWord i.dictionary ⟨name, body, named⟩ = .ok () := checkWord_eq_ok_iff.mpr
      ⟨fun token htoken => ⟨hcolon token htoken, hbody token htoken⟩, hbalanced⟩
    exact ⟨_, define_eq_ok_iff.mpr ⟨hword, free, rfl⟩⟩

/-- A word that is defined ahead of turns is the word that a script defines.  Whatever the
interpreter has been used for, it accepts a name and a body exactly if the structure check
accepts their definition; the dictionary is then the one that a turn leaves which runs the
definition, be it from its tokens or from a script of these tokens.  A word that is refused
leaves the interpreter as it was, and so does a script of its definition. -/
theorem define_iff_definition (hlimit : 1 ≤ i.limits.stepLimit)
    (hname : tokenize name = .ok [.word name])
    (hbody : ∀ token ∈ body, token.isWord ";" = false) :
    ∃ word, UserWord.ofName name body = .ok word ∧
      ((∃ i', i.define word = .ok () i') ↔
        checkStructure i.dictionary (definitionTokens name body) = .ok ()) ∧
      (∀ i', i.define word = .ok () i' → ∀ context commands, ∃ report,
        i.runTokens (definitionTokens name body) context commands = .ok report ∧
        (∀ script, tokenize script = .ok (definitionTokens name body) →
          i.runTurn script context commands = .ok report) ∧
        report.outcome = .completed ∧ report.interpreter.dictionary = i'.dictionary) ∧
      (∀ error i', i.define word = .error error i' →
        i' = i ∧ i.use (.define word) = .ok i ∧
        ∀ script, tokenize script = .ok (definitionTokens name body) → ∀ context commands,
          i.use (.turn script context commands) = .ok i) := by
  have named : Text.isBlankText name = false := tokenize_word_solid hname List.mem_cons_self
  have hiff : (∃ i', i.define ⟨name, body, named⟩ = .ok () i') ↔
      checkStructure i.dictionary (definitionTokens name body) = .ok () :=
    exists_define_iff named (keyword?_ne_semicolon hbody)
  refine ⟨⟨name, body, named⟩, UserWord.ofName_of_solid named body, hiff, ?_, ?_⟩
  · intro i' hdefine context commands
    have hrun := runTokens_definition hlimit named hdefine context commands
    refine ⟨_, hrun, ?_, rfl, rfl⟩
    intro script hscript
    have hload : load i.dictionary script = .ok (definitionTokens name body) := by
      rw [load_of_tokenize hscript, hiff.mp ⟨i', hdefine⟩]
      rfl
    rw [runTurn, hload]
    exact hrun
  · intro error i' hdefine
    obtain rfl := define_error hdefine
    refine ⟨rfl, by rw [use, hdefine], ?_⟩
    intro script hscript context commands
    cases hcheck : checkStructure i'.dictionary (definitionTokens name body) with
    | ok checked =>
      obtain ⟨defined, hdefined⟩ := hiff.mpr hcheck
      rw [hdefine] at hdefined
      cases hdefined
    | error fault =>
      have hload : load i'.dictionary script = .error fault := by
        rw [load_of_tokenize hscript, hcheck]
        rfl
      rw [use, runTurn_of_refused hload]
      rfl

/-- The branch of a body is closed in it, or the word is refused. -/
theorem define_iff_definition_sign :
    (∃ word i' report,
      UserWord.ofName "sign" [.word "if", .number 1, .word "then"] = .ok word ∧
      (fresh .ada .default).define word = .ok () i' ∧
      (fresh .ada .default).runTokens
        (definitionTokens "sign" [.word "if", .number 1, .word "then"]) .lone [] = .ok report ∧
      report.interpreter.dictionary = i'.dictionary) ∧
    ∃ word, UserWord.ofName "sign" [.word "if", .number 1] = .ok word ∧
      ∀ i', (fresh .ada .default).define word ≠ .ok () i' := by
  have hname : tokenize "sign" = .ok [.word "sign"] := by rfl
  have hlimit : 1 ≤ (fresh .ada .default).limits.stepLimit := by decide
  constructor
  · have hbody : ∀ token ∈ [Token.word "if", .number 1, .word "then"],
        token.isWord ";" = false := by decide
    obtain ⟨word, hword, hiff, hturn, -⟩ := define_iff_definition hlimit hname hbody
    obtain ⟨i', hdefine⟩ := hiff.mpr (by rfl)
    obtain ⟨report, hrun, -, -, hdictionary⟩ := hturn i' hdefine .lone []
    exact ⟨word, i', report, hword, hdefine, hrun, hdictionary⟩
  · have hbody : ∀ token ∈ [Token.word "if", .number 1], token.isWord ";" = false := by decide
    obtain ⟨word, hword, hiff, -⟩ := define_iff_definition hlimit hname hbody
    refine ⟨word, hword, ?_⟩
    intro i' hdefine
    have hcheck := hiff.mp ⟨i', hdefine⟩
    cases hcheck

end Interpreter

end HexArena.Script
