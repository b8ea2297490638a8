import HexArena.Script.Structure
import HexArena.Script.Value

/-!
# Syntax trees

A script in order is a tree of literals, words, branches, loops and
definitions.  The tree keeps the spelling of every control word, so that it has
exactly one list of tokens, and the type says where definitions may stand: in a
script, but not in the body of a word.

Main results:

- Definition {lit}`Tree`: the syntax trees of scripts and of bodies.
- Definition {lit}`Tree.parse`: the tree of a list of tokens.
- Theorem {lit}`Tree.parse_tokens`: the tokens of a tree parse to that tree.
- Theorem {lit}`Tree.tokens_of_parse`: a parsed tree has the tokens it was
  parsed from.
-/

namespace HexArena.Script

/-! ## Trees -/

/-- A way to write a control word. -/
structure Spelled (k : Keyword) where
  name : String
  spells : Keyword.ofName? name = some k

/-- The token of a written control word. -/
def Spelled.token {k : Keyword} (s : Spelled k) : Token :=
  .word s.name

/-- The token of a spelling is the control word that it spells. -/
@[simp]
theorem Spelled.keyword?_token {k : Keyword} (s : Spelled k) :
    s.token.keyword? = some k :=
  s.spells

/-- The literal that puts a value on the stack. -/
def Value.token : Value → Token
  | int n => .number n
  | text s => .text s

/-- The token of a value is no control word. -/
@[simp]
theorem Value.keyword?_token (v : Value) : v.token.keyword? = none := by
  cases v <;> rfl

/-- Where a tree stands. -/
inductive Place where
  /-- In a script, which may define words. -/
  | script
  /-- In the body of a word, which may not. -/
  | body
deriving DecidableEq, Repr

/-- A part of a script whose definitions, branches and loops pair up; every
construct is followed by the rest of the part. -/
inductive Tree : Place → Type where
  | done {p : Place} : Tree p
  | literal {p : Place} (value : Value) (rest : Tree p) : Tree p
  | word {p : Place} (name : String) (plain : Keyword.ofName? name = none) (rest : Tree p) : Tree p
  | branch {p : Place} (opener : Spelled .branch) (yes : Tree p) (closer : Spelled .join)
      (rest : Tree p) : Tree p
  | choice {p : Place} (opener : Spelled .branch) (yes : Tree p) (divider : Spelled .otherwise)
      (no : Tree p) (closer : Spelled .join) (rest : Tree p) : Tree p
  | loop {p : Place} (opener : Spelled .loop) (inner : Tree p) (closer : Spelled .again)
      (rest : Tree p) : Tree p
  | definition (opener : Spelled .colon) (name : String) (plain : Keyword.ofName? name = none)
      (body : Tree .body) (closer : Spelled .semicolon) (rest : Tree .script) : Tree .script

namespace Tree

/-- The tokens of a tree, in order. -/
def tokens {p : Place} : Tree p → List Token
  | done => []
  | literal value rest => value.token :: rest.tokens
  | word name _ rest => .word name :: rest.tokens
  | branch opener yes closer rest =>
    opener.token :: (yes.tokens ++ closer.token :: rest.tokens)
  | choice opener yes divider no closer rest =>
    opener.token ::
      (yes.tokens ++ divider.token :: (no.tokens ++ closer.token :: rest.tokens))
  | loop opener inner closer rest =>
    opener.token :: (inner.tokens ++ closer.token :: rest.tokens)
  | definition opener name _ body closer rest =>
    opener.token :: .word name :: (body.tokens ++ closer.token :: rest.tokens)

/-- One tree, and after it another. -/
def append {p : Place} : Tree p → Tree p → Tree p
  | done, later => later
  | literal value rest, later => literal value (rest.append later)
  | word name plain rest, later => word name plain (rest.append later)
  | branch opener yes closer rest, later => branch opener yes closer (rest.append later)
  | choice opener yes divider no closer rest, later =>
    choice opener yes divider no closer (rest.append later)
  | loop opener inner closer rest, later => loop opener inner closer (rest.append later)
  | definition opener name plain body closer rest, later =>
    definition opener name plain body closer (rest.append later)

/-- Every definition in the tree gives a name of a kind. -/
def Named (kind : String → Prop) {p : Place} : Tree p → Prop
  | done => True
  | literal _ rest => rest.Named kind
  | word _ _ rest => rest.Named kind
  | branch _ yes _ rest => yes.Named kind ∧ rest.Named kind
  | choice _ yes _ no _ rest => yes.Named kind ∧ no.Named kind ∧ rest.Named kind
  | loop _ inner _ rest => inner.Named kind ∧ rest.Named kind
  | definition _ name _ _ _ rest => kind name ∧ rest.Named kind

/-- A body has no definitions at all. -/
theorem named_of_body {kind : String → Prop} {p : Place} (hp : p = .body) (tree : Tree p) :
    tree.Named kind := by
  induction tree with
  | definition => cases hp
  | _ => simp_all [Named]

/-- What holds of all words of a tree holds of the names of its definitions. -/
theorem named_of_tokens {kind : String → Prop} {p : Place} (tree : Tree p)
    (h : ∀ name, Token.word name ∈ tree.tokens → kind name) : tree.Named kind := by
  induction tree with
  | done => trivial
  | literal value rest ih =>
    exact ih fun name hname => h name (by simp [tokens, hname])
  | word name plain rest ih =>
    exact ih fun name hname => h name (by simp [tokens, hname])
  | branch opener yes closer rest ihYes ihRest =>
    exact ⟨ihYes fun name hname => h name (by simp [tokens, hname]),
      ihRest fun name hname => h name (by simp [tokens, hname])⟩
  | choice opener yes divider no closer rest ihYes ihNo ihRest =>
    exact ⟨ihYes fun name hname => h name (by simp [tokens, hname]),
      ihNo fun name hname => h name (by simp [tokens, hname]),
      ihRest fun name hname => h name (by simp [tokens, hname])⟩
  | loop opener inner closer rest ihInner ihRest =>
    exact ⟨ihInner fun name hname => h name (by simp [tokens, hname]),
      ihRest fun name hname => h name (by simp [tokens, hname])⟩
  | definition opener name plain body closer rest ihBody ihRest =>
    exact ⟨h name (by simp [tokens]), ihRest fun name hname => h name (by simp [tokens, hname])⟩

/-- Names of two kinds are of both. -/
theorem Named.and {kind kind' : String → Prop} {p : Place} {tree : Tree p}
    (h : tree.Named kind) (h' : tree.Named kind') :
    tree.Named fun name => kind name ∧ kind' name := by
  induction tree with
  | done => trivial
  | literal value rest ih | word name plain rest ih => exact ih h h'
  | branch opener yes closer rest ihYes ihRest =>
    exact ⟨ihYes h.1 h'.1, ihRest h.2 h'.2⟩
  | choice opener yes divider no closer rest ihYes ihNo ihRest =>
    exact ⟨ihYes h.1 h'.1, ihNo h.2.1 h'.2.1, ihRest h.2.2 h'.2.2⟩
  | loop opener inner closer rest ihInner ihRest =>
    exact ⟨ihInner h.1 h'.1, ihRest h.2 h'.2⟩
  | definition opener name plain body closer rest ihBody ihRest =>
    exact ⟨⟨h.1, h'.1⟩, ihRest h.2 h'.2⟩

/-- Nothing is appended. -/
@[simp]
theorem append_done {p : Place} (tree : Tree p) : tree.append done = tree := by
  induction tree <;> simp_all [append]

end Tree

/-! ## Parsing from the end -/

/-- The rest of a script or body from some place in it: the tree up to the next
control word that closes or divides a construct around the place, and what
follows that word. -/
inductive Suffix : Place → Type where
  | last {p : Place} (tree : Tree p) : Suffix p
  | join {p : Place} (tree : Tree p) (closer : Spelled .join) (rest : Suffix p) : Suffix p
  | divide {p : Place} (tree : Tree p) (divider : Spelled .otherwise) (no : Tree p)
      (closer : Spelled .join) (rest : Suffix p) : Suffix p
  | again {p : Place} (tree : Tree p) (closer : Spelled .again) (rest : Suffix p) : Suffix p
  | semicolon (tree : Tree .body) (closer : Spelled .semicolon) (rest : Suffix .script) :
      Suffix .body

namespace Suffix

/-- The tokens of the rest of a script. -/
def tokens {p : Place} : Suffix p → List Token
  | last tree => tree.tokens
  | join tree closer rest => tree.tokens ++ closer.token :: rest.tokens
  | divide tree divider no closer rest =>
    tree.tokens ++ divider.token :: (no.tokens ++ closer.token :: rest.tokens)
  | again tree closer rest => tree.tokens ++ closer.token :: rest.tokens
  | semicolon tree closer rest => tree.tokens ++ closer.token :: rest.tokens

/-- Change the tree a suffix starts with. -/
def onTree {p : Place} (f : Tree p → Tree p) : Suffix p → Suffix p
  | last tree => last (f tree)
  | join tree closer rest => join (f tree) closer rest
  | divide tree divider no closer rest => divide (f tree) divider no closer rest
  | again tree closer rest => again (f tree) closer rest
  | semicolon tree closer rest => semicolon (f tree) closer rest

@[simp]
theorem onTree_join {p : Place} (f : Tree p → Tree p) (tree : Tree p) (closer : Spelled .join)
    (rest : Suffix p) : (join tree closer rest).onTree f = join (f tree) closer rest :=
  rfl

@[simp]
theorem onTree_divide {p : Place} (f : Tree p → Tree p) (tree : Tree p)
    (divider : Spelled .otherwise) (no : Tree p) (closer : Spelled .join) (rest : Suffix p) :
    (divide tree divider no closer rest).onTree f = divide (f tree) divider no closer rest :=
  rfl

@[simp]
theorem onTree_again {p : Place} (f : Tree p → Tree p) (tree : Tree p) (closer : Spelled .again)
    (rest : Suffix p) : (again tree closer rest).onTree f = again (f tree) closer rest :=
  rfl

@[simp]
theorem onTree_semicolon (f : Tree .body → Tree .body) (tree : Tree .body)
    (closer : Spelled .semicolon) (rest : Suffix .script) :
    (semicolon tree closer rest).onTree f = semicolon (f tree) closer rest :=
  rfl

/-- Two changes of the first tree are one. -/
@[simp]
theorem onTree_onTree {p : Place} (f g : Tree p → Tree p) (s : Suffix p) :
    (s.onTree f).onTree g = s.onTree (g ∘ f) := by
  cases s <;> rfl

/-- A tree that grows at its front makes the suffix grow at its front. -/
theorem tokens_onTree {p : Place} {f : Tree p → Tree p} {front : List Token}
    (hf : ∀ tree, (f tree).tokens = front ++ tree.tokens) (s : Suffix p) :
    (s.onTree f).tokens = front ++ s.tokens := by
  cases s <;> simp [onTree, tokens, hf]

/-- Put a control word in front of a suffix: a closing word starts a construct,
and an opening word completes one. -/
def control : {k : Keyword} → Spelled k → (p : Place) × Suffix p → Option ((p : Place) × Suffix p)
  | .join, closer, ⟨p, s⟩ => some ⟨p, .join .done closer s⟩
  | .again, closer, ⟨p, s⟩ => some ⟨p, .again .done closer s⟩
  | .semicolon, closer, ⟨.script, s⟩ => some ⟨.body, .semicolon .done closer s⟩
  | .otherwise, divider, ⟨p, .join no closer rest⟩ => some ⟨p, .divide .done divider no closer rest⟩
  | .branch, opener, ⟨p, .join yes closer rest⟩ =>
    some ⟨p, rest.onTree (.branch opener yes closer)⟩
  | .branch, opener, ⟨p, .divide yes divider no closer rest⟩ =>
    some ⟨p, rest.onTree (.choice opener yes divider no closer)⟩
  | .loop, opener, ⟨p, .again inner closer rest⟩ =>
    some ⟨p, rest.onTree (.loop opener inner closer)⟩
  | .colon, opener, ⟨_, .semicolon (.word name plain body) closer rest⟩ =>
    some ⟨.script, rest.onTree (.definition opener name plain body closer)⟩
  | _, _, _ => none

/-- Put a token in front of a suffix. -/
def prepend : Token → (p : Place) × Suffix p → Option ((p : Place) × Suffix p)
  | .number n, ⟨p, s⟩ => some ⟨p, s.onTree (.literal (.int n))⟩
  | .text t, ⟨p, s⟩ => some ⟨p, s.onTree (.literal (.text t))⟩
  | .word name, ⟨p, s⟩ =>
    match h : Keyword.ofName? name with
    | none => some ⟨p, s.onTree (.word name h)⟩
    | some _ => control ⟨name, h⟩ ⟨p, s⟩

/-- Put tokens in front of a suffix, the last one first. -/
def prependAll (tokens : List Token) (s : Option ((p : Place) × Suffix p)) :
    Option ((p : Place) × Suffix p) :=
  tokens.foldr (fun token s => s.bind (prepend token)) s

end Suffix

/-- The tree of a suffix that is the whole of a script or of a body. -/
def Suffix.whole? : (p : Place) → (q : Place) × Suffix q → Option (Tree p)
  | .script, ⟨.script, .last tree⟩ => some tree
  | .body, ⟨.body, .last tree⟩ => some tree
  | _, _ => none

/-- The tree of a list of tokens. -/
def Tree.parse (p : Place) (tokens : List Token) : Option (Tree p) :=
  (Suffix.prependAll tokens (some ⟨p, .last .done⟩)).bind (Suffix.whole? p)

/-! ## The tokens of a tree parse to that tree -/

namespace Suffix

@[simp]
theorem prependAll_nil (s : Option ((p : Place) × Suffix p)) : prependAll [] s = s :=
  rfl

@[simp]
theorem prependAll_cons (token : Token) (tokens : List Token)
    (s : Option ((p : Place) × Suffix p)) :
    prependAll (token :: tokens) s = (prependAll tokens s).bind (prepend token) :=
  rfl

/-- Tokens are put in front part by part, the last part first. -/
@[simp]
theorem prependAll_append (first second : List Token) (s : Option ((p : Place) × Suffix p)) :
    prependAll (first ++ second) s = prependAll first (prependAll second s) := by
  simp [prependAll, List.foldr_append]

/-- A literal is put in front of the first tree. -/
@[simp]
theorem prepend_literal (v : Value) {p : Place} (s : Suffix p) :
    prepend v.token ⟨p, s⟩ = some ⟨p, s.onTree (.literal v)⟩ := by
  cases v <;> rfl

/-- So is a word that is no control word. -/
theorem prepend_word {name : String} (plain : Keyword.ofName? name = none) {p : Place}
    (s : Suffix p) :
    prepend (.word name) ⟨p, s⟩ = some ⟨p, s.onTree (.word name plain)⟩ := by
  rw [prepend]
  split
  · rfl
  · rename_i k hk
    rw [plain] at hk
    cases hk

/-- A control word starts a construct or completes one. -/
@[simp]
theorem prepend_control {k : Keyword} (spelled : Spelled k) (s : (p : Place) × Suffix p) :
    prepend spelled.token s = control spelled s := by
  obtain ⟨name, spells⟩ := spelled
  obtain ⟨p, s⟩ := s
  rw [Spelled.token, prepend]
  split
  · rename_i hk
    rw [spells] at hk
    cases hk
  · rename_i k' hk
    have hkk : k' = k := Option.some.inj (hk.symm.trans spells)
    subst hkk
    rfl

/-- The tokens of a tree in front of a suffix put the tree in front of it. -/
@[simp]
theorem prependAll_tokens {p : Place} (tree : Tree p) (s : Suffix p) :
    prependAll tree.tokens (some ⟨p, s⟩) = some ⟨p, s.onTree tree.append⟩ := by
  induction tree with
  | done =>
    cases s <;> rfl
  | literal value rest ih =>
    simp only [Tree.tokens, prependAll_cons, ih, Option.bind_some, prepend_literal, onTree_onTree]
    rfl
  | word name plain rest ih =>
    simp only [Tree.tokens, prependAll_cons, ih, Option.bind_some, prepend_word plain,
      onTree_onTree]
    rfl
  | branch opener yes closer rest ihYes ihRest =>
    simp only [Tree.tokens, prependAll_cons, prependAll_append, ihRest, Option.bind_some,
      prepend_control, control, ihYes, onTree_join, Tree.append_done, onTree_onTree]
    rfl
  | choice opener yes divider no closer rest ihYes ihNo ihRest =>
    simp only [Tree.tokens, prependAll_cons, prependAll_append, ihRest, Option.bind_some,
      prepend_control, control, ihYes, ihNo, onTree_join, onTree_divide, Tree.append_done,
      onTree_onTree]
    rfl
  | loop opener inner closer rest ihInner ihRest =>
    simp only [Tree.tokens, prependAll_cons, prependAll_append, ihRest, Option.bind_some,
      prepend_control, control, ihInner, onTree_again, Tree.append_done, onTree_onTree]
    rfl
  | definition opener name plain body closer rest ihBody ihRest =>
    simp only [Tree.tokens, prependAll_cons, prependAll_append, ihRest, Option.bind_some,
      prepend_control, control, ihBody, onTree_semicolon, Tree.append_done, onTree_onTree,
      prepend_word plain]
    rfl

end Suffix

/-- The tokens of a tree parse to that tree, so no list of tokens has two trees. -/
@[simp]
theorem Tree.parse_tokens {p : Place} (tree : Tree p) : parse p tree.tokens = some tree := by
  rw [parse, Suffix.prependAll_tokens]
  cases p <;> simp [Suffix.onTree, Suffix.whole?]

/-! ## A parsed tree has the tokens it was parsed from -/

namespace Suffix

/-- A control word is in front of the tokens then. -/
theorem tokens_of_control {k : Keyword} {spelled : Spelled k} {s t : (p : Place) × Suffix p}
    (h : control spelled s = some t) : t.2.tokens = spelled.token :: s.2.tokens := by
  unfold control at h
  split at h
  · cases h
    rfl
  · cases h
    rfl
  · cases h
    rfl
  · cases h
    rfl
  · rename_i opener p yes closer rest
    cases h
    have hfront : ∀ tree, (Tree.branch opener yes closer tree).tokens =
        (opener.token :: (yes.tokens ++ [closer.token])) ++ tree.tokens := by
      simp [Tree.tokens]
    simp [tokens_onTree hfront, tokens]
  · rename_i opener p yes divider no closer rest
    cases h
    have hfront : ∀ tree, (Tree.choice opener yes divider no closer tree).tokens =
        (opener.token :: (yes.tokens ++ divider.token :: (no.tokens ++ [closer.token]))) ++
          tree.tokens := by
      simp [Tree.tokens]
    simp [tokens_onTree hfront, tokens]
  · rename_i opener p inner closer rest
    cases h
    have hfront : ∀ tree, (Tree.loop opener inner closer tree).tokens =
        (opener.token :: (inner.tokens ++ [closer.token])) ++ tree.tokens := by
      simp [Tree.tokens]
    simp [tokens_onTree hfront, tokens]
  · rename_i opener name plain body closer rest
    cases h
    have hfront : ∀ tree, (Tree.definition opener name plain body closer tree).tokens =
        (opener.token :: .word name :: (body.tokens ++ [closer.token])) ++ tree.tokens := by
      simp [Tree.tokens]
    simp [tokens_onTree hfront, tokens, Tree.tokens]
  · cases h

/-- A token in front of a suffix is its first token. -/
theorem tokens_of_prepend {token : Token} {s t : (p : Place) × Suffix p}
    (h : prepend token s = some t) : t.2.tokens = token :: s.2.tokens := by
  obtain ⟨p, s⟩ := s
  cases token with
  | number n =>
    cases h
    have hfront : ∀ tree : Tree p, (Tree.literal (.int n) tree).tokens =
        [Token.number n] ++ tree.tokens := fun _ => rfl
    exact tokens_onTree hfront s
  | text text =>
    cases h
    have hfront : ∀ tree : Tree p, (Tree.literal (.text text) tree).tokens =
        [Token.text text] ++ tree.tokens := fun _ => rfl
    exact tokens_onTree hfront s
  | word name =>
    rw [prepend] at h
    split at h
    · rename_i plain
      cases h
      have hfront : ∀ tree : Tree p, (Tree.word name plain tree).tokens =
          [Token.word name] ++ tree.tokens := fun _ => rfl
      exact tokens_onTree hfront s
    · exact tokens_of_control h

/-- Tokens in front of a suffix are its first tokens. -/
theorem tokens_of_prependAll {tokens : List Token} {s t : (p : Place) × Suffix p}
    (h : prependAll tokens (some s) = some t) : t.2.tokens = tokens ++ s.2.tokens := by
  induction tokens generalizing t with
  | nil =>
    cases h
    rfl
  | cons token tokens ih =>
    rw [prependAll_cons, Option.bind_eq_some_iff] at h
    obtain ⟨mid, hmid, ht⟩ := h
    rw [tokens_of_prepend ht, ih hmid, List.cons_append]

end Suffix

/-- A parsed tree has the tokens it was parsed from. -/
theorem Tree.tokens_of_parse {p : Place} {tokens : List Token} {tree : Tree p}
    (h : parse p tokens = some tree) : tree.tokens = tokens := by
  rw [parse, Option.bind_eq_some_iff] at h
  obtain ⟨s, hs, hwhole⟩ := h
  have htokens := Suffix.tokens_of_prependAll hs
  unfold Suffix.whole? at hwhole
  split at hwhole
  · cases hwhole
    simpa [Suffix.tokens, Tree.tokens] using htokens
  · cases hwhole
    simpa [Suffix.tokens, Tree.tokens] using htokens
  · cases hwhole

end HexArena.Script
