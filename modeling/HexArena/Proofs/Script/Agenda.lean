import HexArena.Proofs.Script.Evaluation
import HexArena.Proofs.Script.Grammar

/-!
# What a queue still has to do

The queue of a running script is flat, and a step drops, collects and repeats
items by counting how deep it is nested.  Every queue that comes up is the
written form of an agenda: trees to evaluate, each at its depth of calls, and
between them the ends of the branches and loops that are under way.

Main results:

- Definition {lit}`Agenda`: trees to evaluate and constructs to finish.
- Definition {lit}`Agenda.queue`: the queue an agenda is written as.
- Definition {lit}`Agenda.eval`: the evaluation of what is left.
- Theorems {lit}`skipBranch_tokens`, {lit}`collectLoop_tokens` and
  {lit}`collectBody_tokens`: no scan stops inside a tree.
-/

namespace HexArena.Script

/-! ## Tokens in the queue -/

namespace Pending

@[simp]
theorem ofTokens_nil (depth : Nat) : ofTokens [] depth = [] :=
  rfl

@[simp]
theorem ofTokens_cons (token : Token) (tokens : List Token) (depth : Nat) :
    ofTokens (token :: tokens) depth = .token token depth :: ofTokens tokens depth :=
  rfl

@[simp]
theorem ofTokens_append (first second : List Token) (depth : Nat) :
    ofTokens (first ++ second) depth = ofTokens first depth ++ ofTokens second depth :=
  List.map_append

end Pending

/-! ## Scans pass over trees -/

/-- A skipped branch does not end inside a tree. -/
theorem skipBranch_tokens (stopAtElse : Bool) (nesting : Nat) {p : Place} (tree : Tree p)
    (depth : Nat) (rest : List Pending) :
    skipBranch stopAtElse nesting (Pending.ofTokens tree.tokens depth ++ rest) =
      skipBranch stopAtElse nesting rest := by
  induction tree generalizing nesting rest with
  | done => rfl
  | literal value rest ih =>
    simp [Tree.tokens, skipBranch, ih]
  | word name plain rest ih =>
    simp [Tree.tokens, skipBranch, Token.keyword?, plain, ih]
  | branch opener yes closer rest ihYes ihRest =>
    simp [Tree.tokens, skipBranch, ihYes, ihRest]
  | choice opener yes divider no closer rest ihYes ihNo ihRest =>
    simp [Tree.tokens, skipBranch, ihYes, ihNo, ihRest]
  | loop opener inner closer rest ihInner ihRest =>
    simp [Tree.tokens, skipBranch, ihInner, ihRest]
  | definition opener name plain body closer rest ihBody ihRest =>
    have plain : (Token.word name).keyword? = none := plain
    simp [Tree.tokens, skipBranch, plain, ihBody, ihRest]

/-- A loop does not end inside a tree, and its inside holds the tree. -/
theorem collectLoop_tokens (nesting : Nat) {p : Place} (tree : Tree p) (depth : Nat)
    (rest : List Pending) :
    collectLoop nesting (Pending.ofTokens tree.tokens depth ++ rest) =
      (collectLoop nesting rest).map fun (inner, rest) => (tree.tokens ++ inner, rest) := by
  induction tree generalizing nesting rest with
  | done => simp [Tree.tokens]
  | literal value rest ih =>
    simp [Tree.tokens, collectLoop, ih, Function.comp_def]
  | word name plain rest ih =>
    simp [Tree.tokens, collectLoop, Token.keyword?, plain, ih, Function.comp_def]
  | branch opener yes closer rest ihYes ihRest =>
    simp [Tree.tokens, collectLoop, ihYes, ihRest, Function.comp_def]
  | choice opener yes divider no closer rest ihYes ihNo ihRest =>
    simp [Tree.tokens, collectLoop, ihYes, ihNo, ihRest, Function.comp_def]
  | loop opener inner closer rest ihInner ihRest =>
    simp [Tree.tokens, collectLoop, ihInner, ihRest, Function.comp_def]
  | definition opener name plain body closer rest ihBody ihRest =>
    have plain : (Token.word name).keyword? = none := plain
    simp [Tree.tokens, collectLoop, plain, ihBody, ihRest, Function.comp_def]

/-- The tokens of a body neither open nor close a definition. -/
theorem Tree.unmarked {p : Place} (hp : p = .body) (tree : Tree p) :
    ∀ token ∈ tree.tokens, token.keyword? ≠ some .colon ∧ token.keyword? ≠ some .semicolon := by
  induction tree with
  | done => simp [tokens]
  | literal value rest ih =>
    simpa [tokens] using ih hp
  | word name plain rest ih =>
    simpa [tokens, Token.keyword?, plain] using ih hp
  | branch opener yes closer rest ihYes ihRest =>
    simp only [tokens, List.mem_cons, List.mem_append]
    rintro token (rfl | hyes | rfl | hrest)
    · simp
    · exact ihYes hp token hyes
    · simp
    · exact ihRest hp token hrest
  | choice opener yes divider no closer rest ihYes ihNo ihRest =>
    simp only [tokens, List.mem_cons, List.mem_append]
    rintro token (rfl | hyes | rfl | hno | rfl | hrest)
    · simp
    · exact ihYes hp token hyes
    · simp
    · exact ihNo hp token hno
    · simp
    · exact ihRest hp token hrest
  | loop opener inner closer rest ihInner ihRest =>
    simp only [tokens, List.mem_cons, List.mem_append]
    rintro token (rfl | hinner | rfl | hrest)
    · simp
    · exact ihInner hp token hinner
    · simp
    · exact ihRest hp token hrest
  | definition opener name plain body closer rest ihBody ihRest => cases hp

/-- The body of a definition reaches to the word that closes it. -/
theorem collectBody_tokens (name : String) {tokens : List Token}
    (unmarked : ∀ token ∈ tokens,
      token.keyword? ≠ some .colon ∧ token.keyword? ≠ some .semicolon)
    (closer : Spelled .semicolon) (depth : Nat) (rest : List Pending) :
    collectBody name (Pending.ofTokens tokens depth ++ .token closer.token depth :: rest) =
      .ok (tokens, rest) := by
  induction tokens with
  | nil => simp [collectBody]
  | cons token tokens ih =>
    obtain ⟨hcolon, hsemi⟩ := unmarked token List.mem_cons_self
    have hlater := ih fun t ht => unmarked t (List.mem_cons_of_mem _ ht)
    rw [Pending.ofTokens_cons, List.cons_append, collectBody]
    split
    · exact absurd ‹_› hsemi
    · exact absurd ‹_› hcolon
    · rw [hlater]
      rfl

/-! ## Agendas -/

/-- What is left of a running script: trees to evaluate, each at its depth of
calls, and the ends of constructs that are under way. -/
inductive Agenda where
  | done
  /-- Evaluate a tree. -/
  | part {p : Place} (tree : Tree p) (depth : Nat) (rest : Agenda)
  /-- Pass the end of a branch. -/
  | join (closer : Spelled .join) (depth : Nat) (rest : Agenda)
  /-- Skip the side of a divided branch that is not taken. -/
  | skip {p : Place} (divider : Spelled .otherwise) (no : Tree p) (closer : Spelled .join)
      (depth : Nat) (rest : Agenda)
  /-- Test whether a loop is over. -/
  | test {p : Place} (opener : Spelled .loop) (inner : Tree p) (closer : Spelled .again)
      (after : Tree p) (depth : Nat) (rest : Agenda)

namespace Agenda

/-- The queue an agenda is written as. -/
def queue : Agenda → List Pending
  | done => []
  | part tree depth rest => Pending.ofTokens tree.tokens depth ++ rest.queue
  | join closer depth rest => .token closer.token depth :: rest.queue
  | skip divider no closer depth rest =>
    .token divider.token depth ::
      (Pending.ofTokens no.tokens depth ++ .token closer.token depth :: rest.queue)
  | test _ inner _ after depth rest =>
    .test inner.tokens depth :: (Pending.ofTokens after.tokens depth ++ rest.queue)

/-- Evaluate what is left. -/
def eval (scene : Scene) (limits : Limits) : Agenda → Evaluation Unit
  | done => pure ()
  | part tree depth rest => do
    tree.eval scene limits depth
    rest.eval scene limits
  | join _ _ rest => rest.eval scene limits
  | skip _ _ _ _ rest => rest.eval scene limits
  | test opener inner closer after depth rest => do
    let flag ← Evaluation.act Keyword.again.name pop
    if flag.truthy then after.eval scene limits depth
    else (Tree.loop opener inner closer after).eval scene limits depth
    rest.eval scene limits

end Agenda

end HexArena.Script
