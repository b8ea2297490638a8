import HexArena.Proofs.Script.Spelling

/-!
# The grammar of scripts

A script is made up of atoms, branches, loops and definitions, one after another, and
the body of a definition of the same but definitions.  The structure check scans a
script from left to right with a stack of what is open; what the grammar derives
leaves that stack as it was, and what the check accepts has a tree, which is a
derivation.

Main results:

- Definition {lit}`Derives`: the grammar.
- Theorem {lit}`Derives.checkFrom_append`: the check passes over what the grammar
  derives.
- Theorem {lit}`Tree.derives`: every tree is a derivation of its tokens.
- Theorem {lit}`checkStructure_eq_ok_iff`: the check accepts exactly what the grammar
  derives.
-/

namespace HexArena.Script

/-! ## The grammar -/

/-- The token is a number, a text or a word that is no control word. -/
def Token.IsAtom (token : Token) : Prop :=
  ∀ k : Keyword, token.isWord k.name = false

/-- The name is neither that of a control word nor that of a built-in word. -/
def Dictionary.Free (d : Dictionary) (name : String) : Prop :=
  (∀ k : Keyword, Text.same name k.name = false) ∧
    ∀ word : Builtin, d.lookup name ≠ some (.builtin word)

/-- The tokens are those of a script, or of a body, in which constructs follow one
another; definitions stand in scripts alone. -/
inductive Derives (d : Dictionary) : Place → List Token → Prop
  | nil {p : Place} : Derives d p []
  | append {p : Place} {first later : List Token} :
    Derives d p first → Derives d p later → Derives d p (first ++ later)
  | atom {p : Place} {token : Token} : token.IsAtom → Derives d p [token]
  | branch {p : Place} {opener closer : Token} {yes : List Token} :
    opener.isWord "if" → Derives d p yes → closer.isWord "then" →
      Derives d p (opener :: yes ++ [closer])
  | choice {p : Place} {opener divider closer : Token} {yes no : List Token} :
    opener.isWord "if" → Derives d p yes → divider.isWord "else" → Derives d p no →
      closer.isWord "then" → Derives d p (opener :: yes ++ divider :: no ++ [closer])
  | loop {p : Place} {opener closer : Token} {inner : List Token} :
    opener.isWord "begin" → Derives d p inner → closer.isWord "until" →
      Derives d p (opener :: inner ++ [closer])
  | definition {opener closer : Token} {name : String} {body : List Token} :
    opener.isWord ":" → d.Free name → Derives d .body body → closer.isWord ";" →
      Derives d .script (opener :: .word name :: body ++ [closer])

/-! ## Tokens by their spelling -/

/-- A token is a control word if it is spelled like it, in any letter case. -/
theorem Token.keyword?_eq_some_iff {token : Token} {k : Keyword} :
    token.keyword? = some k ↔ token.isWord k.name = true := by
  cases token with
  | number _ | text _ => simp [keyword?, isWord]
  | word name =>
    simp only [keyword?, isWord, Text.same_iff, Keyword.fold_name]
    constructor
    · intro h
      have hname := List.find?_some h
      exact (beq_iff_eq.mp hname).symm
    · intro h
      rw [← Keyword.ofName?_fold, h, Keyword.ofName?_name]

/-- The atoms are the tokens that are no control words. -/
theorem Token.isAtom_iff {token : Token} : token.IsAtom ↔ token.keyword? = none := by
  simp [IsAtom, Option.eq_none_iff_forall_ne_some, Token.keyword?_eq_some_iff]

/-- A name is free in a dictionary exactly if it is not reserved there. -/
theorem Dictionary.free_iff {d : Dictionary} {name : String} :
    d.Free name ↔ d.isReserved name = false := by
  have hkeyword : (∀ k : Keyword, Text.same name k.name = false) ↔ Keyword.ofName? name = none :=
    @Token.isAtom_iff (.word name)
  rw [Free, hkeyword, isReserved_eq_false_iff]

/-! ## What the grammar derives is accepted -/

section Check

variable {d : Dictionary} {c : Context} {token : Token} {rest : List Token}

theorem checkFrom_atom (h : token.IsAtom) : checkFrom d c (token :: rest) = checkFrom d c rest := by
  rw [checkFrom.eq_def]
  simp only [Token.isAtom_iff.mp h]

theorem checkFrom_if (h : token.isWord "if") :
    checkFrom d c (token :: rest) = checkFrom d { c with opened := .branch :: c.opened } rest := by
  have hk : token.keyword? = some .branch := Token.keyword?_eq_some_iff.mpr h
  rw [checkFrom.eq_def]
  simp only [hk]

theorem checkFrom_else (h : token.isWord "else") {opened : List Opened} :
    checkFrom d { c with opened := .branch :: opened } (token :: rest) =
      checkFrom d { c with opened := .otherwise :: opened } rest := by
  have hk : token.keyword? = some .otherwise := Token.keyword?_eq_some_iff.mpr h
  rw [checkFrom.eq_def]
  simp only [hk]

theorem checkFrom_then (h : token.isWord "then") {construct : Opened}
    (hbranch : construct = .branch ∨ construct = .otherwise) {opened : List Opened} :
    checkFrom d { c with opened := construct :: opened } (token :: rest) =
      checkFrom d { c with opened := opened } rest := by
  have hk : token.keyword? = some .join := Token.keyword?_eq_some_iff.mpr h
  rw [checkFrom.eq_def]
  rcases hbranch with rfl | rfl <;> simp only [hk]

theorem checkFrom_begin (h : token.isWord "begin") :
    checkFrom d c (token :: rest) = checkFrom d { c with opened := .loop :: c.opened } rest := by
  have hk : token.keyword? = some .loop := Token.keyword?_eq_some_iff.mpr h
  rw [checkFrom.eq_def]
  simp only [hk]

theorem checkFrom_until (h : token.isWord "until") {opened : List Opened} :
    checkFrom d { c with opened := .loop :: opened } (token :: rest) =
      checkFrom d { c with opened := opened } rest := by
  have hk : token.keyword? = some .again := Token.keyword?_eq_some_iff.mpr h
  rw [checkFrom.eq_def]
  simp only [hk]

/-- A definition sets aside what is open around it. -/
theorem checkFrom_colon (h : token.isWord ":") {name : String} (free : d.isReserved name = false)
    {opened : List Opened} :
    checkFrom d ⟨opened, none⟩ (token :: .word name :: rest) =
      checkFrom d ⟨[], some (name, opened)⟩ rest := by
  have hk : token.keyword? = some .colon := Token.keyword?_eq_some_iff.mpr h
  rw [checkFrom.eq_def]
  simp only [hk, definitionName_word (Dictionary.isReserved_eq_false_iff.mp free).1]
  exact if_neg (by simp [free])

/-- A definition that passes stands outside of other ones, and its name is not reserved. -/
theorem checkFrom_colon_eq_ok (h : token.isWord ":") {name : String}
    (plain : Keyword.ofName? name = none)
    (hcheck : checkFrom d c (token :: .word name :: rest) = .ok ()) :
    c.definition = none ∧ d.isReserved name = false ∧
      checkFrom d ⟨[], some (name, c.opened)⟩ rest = .ok () := by
  have hk : token.keyword? = some .colon := Token.keyword?_eq_some_iff.mpr h
  rw [checkFrom.eq_def] at hcheck
  simp only [hk] at hcheck
  cases houtside : c.definition with
  | some around =>
    rw [houtside] at hcheck
    cases hcheck
  | none =>
    rw [houtside] at hcheck
    simp only [definitionName_word plain] at hcheck
    change (if d.isReserved name = true then _ else _) = _ at hcheck
    split at hcheck
    · cases hcheck
    · exact ⟨rfl, eq_false_of_ne_true ‹_›, hcheck⟩

theorem checkFrom_semicolon (h : token.isWord ";") {name : String} {opened : List Opened} :
    checkFrom d ⟨[], some (name, opened)⟩ (token :: rest) = checkFrom d ⟨opened, none⟩ rest := by
  have hk : token.keyword? = some .semicolon := Token.keyword?_eq_some_iff.mpr h
  rw [checkFrom.eq_def]
  simp only [hk]

end Check

/-- The check passes over what the grammar derives, whatever is open around it; a
script with its definitions must not stand inside of a definition. -/
theorem Derives.checkFrom_append {d : Dictionary} {p : Place} {tokens : List Token}
    (h : Derives d p tokens) (c : Context) (hplace : p = .script → c.definition = none)
    (rest : List Token) : checkFrom d c (tokens ++ rest) = checkFrom d c rest := by
  induction h generalizing c rest with
  | nil => rfl
  | append _ _ ihFirst ihLater =>
    rw [List.append_assoc, ihFirst c hplace, ihLater c hplace]
  | atom hatom => exact checkFrom_atom hatom
  | branch hif _ hthen ih =>
    rw [List.append_assoc, List.cons_append, checkFrom_if hif,
      ih { c with opened := .branch :: c.opened } hplace]
    exact checkFrom_then hthen (.inl rfl)
  | choice hif _ helse _ hthen ihYes ihNo =>
    simp only [List.append_assoc, List.cons_append]
    rw [checkFrom_if hif, ihYes { c with opened := .branch :: c.opened } hplace,
      checkFrom_else helse, ihNo { c with opened := .otherwise :: c.opened } hplace]
    exact checkFrom_then hthen (.inr rfl)
  | loop hbegin _ huntil ih =>
    rw [List.append_assoc, List.cons_append, checkFrom_begin hbegin,
      ih { c with opened := .loop :: c.opened } hplace]
    exact checkFrom_until huntil
  | definition hcolon hfree _ hsemicolon ih =>
    obtain ⟨opened, definition⟩ := c
    obtain rfl : definition = none := hplace rfl
    have free := Dictionary.free_iff.mp hfree
    simp only [List.append_assoc, List.cons_append]
    -- The body is a derivation of its own, in the context the definition starts with.
    rw [checkFrom_colon hcolon free, ih _ nofun]
    exact checkFrom_semicolon hsemicolon

/-! ## What is accepted has a derivation -/

/-- A written control word is spelled like it. -/
theorem Spelled.isWord {k : Keyword} (s : Spelled k) : s.token.isWord k.name = true :=
  Token.keyword?_eq_some_iff.mp s.keyword?_token

/-- Every definition in a tree that the check passes over gives a name that is not reserved,
and the check goes on behind the tree. -/
theorem Tree.named_of_checkFrom {d : Dictionary} {p : Place} (tree : Tree p) {c : Context}
    {rest : List Token} (h : checkFrom d c (tree.tokens ++ rest) = .ok ()) :
    tree.Named (fun name => d.isReserved name = false) ∧ checkFrom d c rest = .ok () := by
  induction tree generalizing c rest with
  | done => exact ⟨trivial, h⟩
  | literal value later ih =>
    rw [tokens, List.cons_append, checkFrom_atom (Token.isAtom_iff.mpr value.keyword?_token)] at h
    exact ih h
  | word name plain later ih =>
    have hatom : (Token.word name).IsAtom := Token.isAtom_iff.mpr plain
    rw [tokens, List.cons_append, checkFrom_atom hatom] at h
    exact ih h
  | branch opener yes closer later ihYes ihLater =>
    simp only [tokens, List.cons_append, List.append_assoc] at h
    rw [checkFrom_if opener.isWord] at h
    obtain ⟨hyes, hrest⟩ := ihYes h
    rw [checkFrom_then closer.isWord (.inl rfl)] at hrest
    obtain ⟨hlater, hend⟩ := ihLater hrest
    exact ⟨⟨hyes, hlater⟩, hend⟩
  | choice opener yes divider no closer later ihYes ihNo ihLater =>
    simp only [tokens, List.cons_append, List.append_assoc] at h
    rw [checkFrom_if opener.isWord] at h
    obtain ⟨hyes, hmiddle⟩ := ihYes h
    rw [checkFrom_else divider.isWord] at hmiddle
    obtain ⟨hno, hrest⟩ := ihNo hmiddle
    rw [checkFrom_then closer.isWord (.inr rfl)] at hrest
    obtain ⟨hlater, hend⟩ := ihLater hrest
    exact ⟨⟨hyes, hno, hlater⟩, hend⟩
  | loop opener inner closer later ihInner ihLater =>
    simp only [tokens, List.cons_append, List.append_assoc] at h
    rw [checkFrom_begin opener.isWord] at h
    obtain ⟨hinner, hrest⟩ := ihInner h
    rw [checkFrom_until closer.isWord] at hrest
    obtain ⟨hlater, hend⟩ := ihLater hrest
    exact ⟨⟨hinner, hlater⟩, hend⟩
  | definition opener name plain body closer later ihBody ihLater =>
    simp only [tokens, List.cons_append, List.append_assoc] at h
    obtain ⟨outside, free, hbody⟩ := checkFrom_colon_eq_ok opener.isWord plain h
    obtain ⟨-, hrest⟩ := ihBody hbody
    rw [checkFrom_semicolon closer.isWord] at hrest
    have hcontext : (⟨c.opened, none⟩ : Context) = c := by
      cases c
      cases outside
      rfl
    rw [hcontext] at hrest
    obtain ⟨hlater, hend⟩ := ihLater hrest
    exact ⟨⟨free, hlater⟩, hend⟩

/-- A tree is a derivation of its tokens, if its definitions give names that are not
reserved. -/
theorem Tree.derives {d : Dictionary} {p : Place} {tree : Tree p}
    (h : tree.Named fun name => d.isReserved name = false) : Derives d p tree.tokens := by
  induction tree with
  | done => exact .nil
  | literal value rest ih =>
    exact .append (.atom (Token.isAtom_iff.mpr value.keyword?_token)) (ih h)
  | word name plain rest ih =>
    have hatom : (Token.word name).IsAtom := Token.isAtom_iff.mpr plain
    exact .append (.atom hatom) (ih h)
  | branch opener yes closer rest ihYes ihRest =>
    have hderives := Derives.append (.branch opener.isWord (ihYes h.1) closer.isWord)
      (ihRest h.2)
    simpa [tokens] using hderives
  | choice opener yes divider no closer rest ihYes ihNo ihRest =>
    have hderives := Derives.append
      (.choice opener.isWord (ihYes h.1) divider.isWord (ihNo h.2.1) closer.isWord)
      (ihRest h.2.2)
    simpa [tokens] using hderives
  | loop opener inner closer rest ihInner ihRest =>
    have hderives := Derives.append (.loop opener.isWord (ihInner h.1) closer.isWord)
      (ihRest h.2)
    simpa [tokens] using hderives
  | definition opener name plain body closer rest ihBody ihRest =>
    have hfree : d.Free name := Dictionary.free_iff.mpr h.1
    have hbody := ihBody (Tree.named_of_body rfl body)
    have hderives := Derives.append
      (.definition opener.isWord hfree hbody closer.isWord) (ihRest h.2)
    simpa [tokens] using hderives

/-- The structure check accepts exactly what the grammar derives. -/
theorem checkStructure_eq_ok_iff (d : Dictionary) (tokens : List Token) :
    checkStructure d tokens = .ok () ↔ Derives d .script tokens := by
  constructor
  · intro hcheck
    obtain ⟨tree, hparse⟩ := exists_parse_of_checkStructure hcheck
    obtain rfl := Tree.tokens_of_parse hparse
    rw [checkStructure, ← List.append_nil tree.tokens] at hcheck
    exact Tree.derives (tree.named_of_checkFrom hcheck).1
  · intro hderives
    have hpasses := hderives.checkFrom_append .top (fun _ => rfl) []
    rw [List.append_nil] at hpasses
    exact hpasses

end HexArena.Script
