import HexArena.Proofs.Script.Dictionary
import HexArena.Proofs.Script.Tree

/-!
# Scripts in order have trees

The structure check reads a script from its start and keeps what is open; a
tree is put together from the end of the script and keeps what is still to be
closed.  The two meet: whatever the check accepts with some constructs open is
a suffix that closes exactly these.

Main results:

- Definition {lit}`Suffix.Closes`: a suffix closes what a context has open.
- Theorem {lit}`exists_parse_of_checkStructure`: a script whose structure is in
  order has a tree.
- Theorem {lit}`exists_parse_of_checkWord`: so has the body of a user word.
-/

namespace HexArena.Script

/-! ## Tokens by their control words -/

/-- A token that is a control word is written as one. -/
theorem Token.eq_spelled {token : Token} {k : Keyword} (h : token.keyword? = some k) :
    ∃ spelled : Spelled k, token = spelled.token := by
  cases token with
  | number n => cases h
  | text s => cases h
  | word name => exact ⟨⟨name, h⟩, rfl⟩

/-- The name of a definition is a word. -/
theorem definitionName_eq_ok {token : Token} {name : String}
    (h : definitionName token = .ok name) : token = .word name := by
  cases token with
  | number n => cases h
  | text s => cases h
  | word written =>
    simp only [definitionName] at h
    split at h
    · cases h
    · cases h
      rfl

/-- A word that is no control word names a definition. -/
theorem definitionName_word {name : String} (plain : Keyword.ofName? name = none) :
    definitionName (.word name) = .ok name := by
  have hne : name ≠ ";" := by
    rintro rfl
    cases plain
  rw [definitionName, if_neg hne]

/-- A token that is no control word extends the tree of a suffix. -/
theorem Suffix.prepend_plain {token : Token} (h : token.keyword? = none) {p : Place}
    (s : Suffix p) : ∃ f : Tree p → Tree p, prepend token ⟨p, s⟩ = some ⟨p, s.onTree f⟩ := by
  cases token with
  | number n => exact ⟨_, rfl⟩
  | text s => exact ⟨_, rfl⟩
  | word name => exact ⟨_, prepend_word h s⟩

/-! ## What a suffix closes -/

/-- The suffix closes what a context has open, and ends at a given place. -/
def Suffix.Closes (p : Place) {q : Place} : Suffix q → Context → Prop
  | last _, c => q = p ∧ c = .top
  | join _ _ rest, c =>
    ∃ construct opened, c.opened = construct :: opened ∧ construct ≠ .loop ∧
      rest.Closes p { c with opened := opened }
  | divide _ _ _ _ rest, c =>
    ∃ opened, c.opened = .branch :: opened ∧ rest.Closes p { c with opened := opened }
  | again _ _ rest, c =>
    ∃ opened, c.opened = .loop :: opened ∧ rest.Closes p { c with opened := opened }
  | semicolon _ _ rest, c =>
    c.opened = [] ∧ ∃ name around, c.definition = some (name, around) ∧
      rest.Closes p ⟨around, none⟩

namespace Suffix

variable {p q : Place}

/-- What a suffix closes does not depend on the tree it starts with. -/
@[simp]
theorem closes_onTree (f : Tree q → Tree q) (s : Suffix q) (c : Context) :
    (s.onTree f).Closes p c ↔ s.Closes p c := by
  cases s <;> rfl

/-- Outside of definitions a suffix stands at the place it ends at. -/
theorem Closes.place_eq {s : Suffix q} {c : Context} (h : s.Closes p c)
    (outside : c.definition = none) : q = p := by
  induction s generalizing c with
  | last tree => exact h.1
  | join tree closer rest ih =>
    obtain ⟨construct, opened, -, -, hrest⟩ := h
    exact ih hrest outside
  | divide tree divider no closer rest ih =>
    obtain ⟨opened, -, hrest⟩ := h
    exact ih hrest outside
  | again tree closer rest ih =>
    obtain ⟨opened, -, hrest⟩ := h
    exact ih hrest outside
  | semicolon tree closer rest ih =>
    obtain ⟨-, name, around, hdef, -⟩ := h
    rw [outside] at hdef
    cases hdef

end Suffix

/-! ## Control words in front of a suffix -/

namespace Suffix.Closes

variable {p : Place} {c : Context} {s : (q : Place) × Suffix q}

/-- The word that opens a branch completes the branch the suffix closes. -/
theorem branch (opener : Spelled .branch)
    (h : s.2.Closes p { c with opened := .branch :: c.opened }) :
    ∃ t, control opener s = some t ∧ t.2.Closes p c := by
  obtain ⟨q, s⟩ := s
  cases s with
  | last tree =>
    obtain ⟨-, htop⟩ := h
    cases htop
  | join yes closer rest =>
    obtain ⟨construct, opened, hopened, -, hrest⟩ := h
    cases hopened
    exact ⟨_, rfl, (closes_onTree _ _ _).mpr hrest⟩
  | divide yes divider no closer rest =>
    obtain ⟨opened, hopened, hrest⟩ := h
    cases hopened
    exact ⟨_, rfl, (closes_onTree _ _ _).mpr hrest⟩
  | again inner closer rest =>
    obtain ⟨opened, hopened, -⟩ := h
    cases hopened
  | semicolon body closer rest =>
    obtain ⟨hopened, -⟩ := h
    cases hopened

/-- The word that opens a loop completes the loop the suffix closes. -/
theorem loop (opener : Spelled .loop)
    (h : s.2.Closes p { c with opened := .loop :: c.opened }) :
    ∃ t, control opener s = some t ∧ t.2.Closes p c := by
  obtain ⟨q, s⟩ := s
  cases s with
  | last tree =>
    obtain ⟨-, htop⟩ := h
    cases htop
  | join yes closer rest =>
    obtain ⟨construct, opened, hopened, hloop, -⟩ := h
    cases hopened
    exact absurd rfl hloop
  | divide yes divider no closer rest =>
    obtain ⟨opened, hopened, -⟩ := h
    cases hopened
  | again inner closer rest =>
    obtain ⟨opened, hopened, hrest⟩ := h
    cases hopened
    exact ⟨_, rfl, (closes_onTree _ _ _).mpr hrest⟩
  | semicolon body closer rest =>
    obtain ⟨hopened, -⟩ := h
    cases hopened

/-- The word that divides a branch makes an undivided branch divided. -/
theorem otherwise (divider : Spelled .otherwise) {opened : List Opened}
    (hopen : c.opened = .branch :: opened)
    (h : s.2.Closes p { c with opened := .otherwise :: opened }) :
    ∃ t, control divider s = some t ∧ t.2.Closes p c := by
  obtain ⟨q, s⟩ := s
  cases s with
  | last tree =>
    obtain ⟨-, htop⟩ := h
    cases htop
  | join no closer rest =>
    obtain ⟨construct, opened', hopened, -, hrest⟩ := h
    cases hopened
    exact ⟨_, rfl, opened, hopen, hrest⟩
  | divide yes divider no closer rest =>
    obtain ⟨opened', hopened, -⟩ := h
    cases hopened
  | again inner closer rest =>
    obtain ⟨opened', hopened, -⟩ := h
    cases hopened
  | semicolon body closer rest =>
    obtain ⟨hopened, -⟩ := h
    cases hopened

/-- The name of a definition and the word that opens it complete the definition
the suffix closes. -/
theorem colon (opener : Spelled .colon) {name : String} (plain : Keyword.ofName? name = none)
    (outside : c.definition = none)
    (h : s.2.Closes p ⟨[], some (name, c.opened)⟩) :
    ∃ t, (prepend (.word name) s).bind (prepend opener.token) = some t ∧ t.2.Closes p c := by
  obtain ⟨q, s⟩ := s
  cases s with
  | last tree =>
    obtain ⟨-, htop⟩ := h
    cases htop
  | join no closer rest =>
    obtain ⟨construct, opened, hopened, -⟩ := h
    cases hopened
  | divide yes divider no closer rest =>
    obtain ⟨opened, hopened, -⟩ := h
    cases hopened
  | again inner closer rest =>
    obtain ⟨opened, hopened, -⟩ := h
    cases hopened
  | semicolon body closer rest =>
    obtain ⟨-, name', around, hdef, hrest⟩ := h
    cases hdef
    have hcontext : (⟨c.opened, none⟩ : Context) = c := by
      cases c
      cases outside
      rfl
    rw [hcontext] at hrest
    refine ⟨⟨.script, rest.onTree (.definition opener name plain body closer)⟩, ?_,
      (closes_onTree _ _ _).mpr hrest⟩
    rw [prepend_word plain, Option.bind_some, prepend_control, onTree_semicolon, control]

end Suffix.Closes

/-! ## Scripts and bodies -/

/-- One more token in front of tokens that make a suffix. -/
theorem exists_suffix_cons {p : Place} {c c' : Context} {token : Token} {tokens : List Token}
    (htokens : ∃ s : (q : Place) × Suffix q,
      Suffix.prependAll tokens (some ⟨p, .last .done⟩) = some s ∧ s.2.Closes p c')
    (hstep : ∀ s : (q : Place) × Suffix q, s.2.Closes p c' →
      ∃ t, Suffix.prepend token s = some t ∧ t.2.Closes p c) :
    ∃ s : (q : Place) × Suffix q,
      Suffix.prependAll (token :: tokens) (some ⟨p, .last .done⟩) = some s ∧
        s.2.Closes p c := by
  obtain ⟨s, hs, hcloses⟩ := htokens
  obtain ⟨t, ht, hcloses'⟩ := hstep s hcloses
  exact ⟨t, by rw [Suffix.prependAll_cons, hs, Option.bind_some, ht], hcloses'⟩

/-- Tokens the check accepts in a context make a suffix that closes what the
context has open; a body must not close a definition. -/
theorem exists_suffix_of_checkFrom {d : Dictionary} {p : Place} {c : Context}
    {tokens : List Token} (hcheck : checkFrom d c tokens = .ok ())
    (hplace : p = .script ∨ ∀ token ∈ tokens, token.keyword? ≠ some .semicolon) :
    ∃ s : (q : Place) × Suffix q,
      Suffix.prependAll tokens (some ⟨p, .last .done⟩) = some s ∧ s.2.Closes p c := by
  have htail : ∀ {token : Token} {rest : List Token},
      (p = .script ∨ ∀ t ∈ token :: rest, t.keyword? ≠ some .semicolon) →
        p = .script ∨ ∀ t ∈ rest, t.keyword? ≠ some .semicolon :=
    fun h => h.imp_right fun h t ht => h t (List.mem_cons_of_mem _ ht)
  fun_induction checkFrom d c tokens with
  | case2 c hopened hdef =>
    have htop : c = .top := by
      cases c
      cases hopened
      cases hdef
      rfl
    exact ⟨_, rfl, rfl, htop⟩
  | case4 c token rest hplain ih =>
    refine exists_suffix_cons (ih hcheck (htail hplace)) fun ⟨q, s⟩ hs => ?_
    obtain ⟨f, hf⟩ := Suffix.prepend_plain hplain s
    exact ⟨_, hf, (Suffix.closes_onTree f s c).mpr hs⟩
  | case7 c token hcolon next rest outside ih =>
    obtain ⟨opener, rfl⟩ := Token.eq_spelled hcolon
    cases hname : definitionName next with
    | error error =>
      rw [hname] at hcheck
      cases hcheck
    | ok name =>
      rw [hname] at hcheck
      change (if d.isReserved name = true then _ else _) = _ at hcheck
      split at hcheck
      · cases hcheck
      · rename_i hfree
        have plain := (Dictionary.isReserved_eq_false_iff.mp (eq_false_of_ne_true hfree)).1
        rw [definitionName_eq_ok hname]
        obtain ⟨s, hs, hcloses⟩ := ih name hcheck (htail (htail hplace))
        obtain ⟨t, ht, hcloses'⟩ := hcloses.colon opener plain outside
        refine ⟨t, ?_, hcloses'⟩
        rw [Suffix.prependAll_cons, Suffix.prependAll_cons, hs, Option.bind_some, ht]
  | case8 c token rest hsemi name around hopened hdef ih =>
    obtain ⟨closer, rfl⟩ := Token.eq_spelled hsemi
    refine exists_suffix_cons (ih hcheck (htail hplace)) fun ⟨q, s⟩ hs => ?_
    -- A body has no semicolon, so this suffix belongs to a script.
    have hscript : p = .script := by
      rcases hplace with hp | hnone
      · exact hp
      · exact absurd hsemi (hnone _ List.mem_cons_self)
    have hq : q = .script := (hs.place_eq rfl).trans hscript
    subst hq
    exact ⟨_, Suffix.prepend_control closer _, hopened, name, around, hdef, hs⟩
  | case11 c token rest hbranch ih =>
    obtain ⟨opener, rfl⟩ := Token.eq_spelled hbranch
    refine exists_suffix_cons (ih hcheck (htail hplace)) fun s hs => ?_
    rw [Suffix.prepend_control]
    exact hs.branch opener
  | case12 c token rest hloop ih =>
    obtain ⟨opener, rfl⟩ := Token.eq_spelled hloop
    refine exists_suffix_cons (ih hcheck (htail hplace)) fun s hs => ?_
    rw [Suffix.prepend_control]
    exact hs.loop opener
  | case13 c token rest hotherwise opened hopened ih =>
    obtain ⟨divider, rfl⟩ := Token.eq_spelled hotherwise
    refine exists_suffix_cons (ih hcheck (htail hplace)) fun s hs => ?_
    rw [Suffix.prepend_control]
    exact hs.otherwise divider hopened
  | case15 c token rest hjoin opened hopened ih =>
    obtain ⟨closer, rfl⟩ := Token.eq_spelled hjoin
    refine exists_suffix_cons (ih hcheck (htail hplace)) fun ⟨q, s⟩ hs => ?_
    exact ⟨_, Suffix.prepend_control closer _, .branch, opened, hopened, nofun, hs⟩
  | case16 c token rest hjoin opened hopened ih =>
    obtain ⟨closer, rfl⟩ := Token.eq_spelled hjoin
    refine exists_suffix_cons (ih hcheck (htail hplace)) fun ⟨q, s⟩ hs => ?_
    exact ⟨_, Suffix.prepend_control closer _, .otherwise, opened, hopened, nofun, hs⟩
  | case18 c token rest hagain opened hopened ih =>
    obtain ⟨closer, rfl⟩ := Token.eq_spelled hagain
    refine exists_suffix_cons (ih hcheck (htail hplace)) fun ⟨q, s⟩ hs => ?_
    exact ⟨_, Suffix.prepend_control closer _, opened, hopened, hs⟩
  | _ => cases hcheck

/-- Tokens the check accepts at the top have a tree. -/
theorem exists_parse {d : Dictionary} {p : Place} {tokens : List Token}
    (hcheck : checkStructure d tokens = .ok ())
    (hplace : p = .script ∨ ∀ token ∈ tokens, token.keyword? ≠ some .semicolon) :
    ∃ tree : Tree p, Tree.parse p tokens = some tree := by
  obtain ⟨⟨q, s⟩, hs, hcloses⟩ := exists_suffix_of_checkFrom hcheck hplace
  have hq : q = p := hcloses.place_eq rfl
  subst hq
  cases s with
  | last tree =>
    refine ⟨tree, ?_⟩
    rw [Tree.parse, hs, Option.bind_some]
    cases q <;> rfl
  | join tree closer rest =>
    obtain ⟨construct, opened, hopened, -⟩ := hcloses
    cases hopened
  | divide tree divider no closer rest =>
    obtain ⟨opened, hopened, -⟩ := hcloses
    cases hopened
  | again tree closer rest =>
    obtain ⟨opened, hopened, -⟩ := hcloses
    cases hopened
  | semicolon tree closer rest =>
    obtain ⟨-, name, around, hdef, -⟩ := hcloses
    cases hdef

/-- A script whose structure is in order has a tree. -/
theorem exists_parse_of_checkStructure {d : Dictionary} {tokens : List Token}
    (hcheck : checkStructure d tokens = .ok ()) :
    ∃ tree, Tree.parse .script tokens = some tree :=
  exists_parse hcheck (.inl rfl)

/-- The body of a user word whose structure is in order has a tree. -/
theorem exists_parse_of_checkWord {d : Dictionary} {word : UserWord}
    (hcheck : checkWord d word = .ok ()) :
    ∃ tree, Tree.parse .body word.body = some tree := by
  unfold checkWord at hcheck
  split at hcheck
  · cases hcheck
  · cases hcheck
  · rename_i hmark
    refine exists_parse hcheck (.inr fun token htoken hsemi => ?_)
    have hnone := List.findSome?_eq_none_iff.mp hmark token htoken
    rw [hsemi] at hnone
    cases hnone

end HexArena.Script
