import HexArena.Proofs.Script.Definitions
import HexArena.Proofs.Script.Predefined

/-!
# The history of a dictionary

The dictionary of an interpreter is what comes of making the definitions of its history,
in order, in the dictionary of the built-in words: of every name it holds the last body,
under the first spelling.  All meanings are kept in one table, so that nothing but the
guard in front of each definition keeps the built-in words in it and the control words
out of it; that they are where they belong is shown along the history.

Main results:

- Definition {lit}`remembered?`: the word that the definitions of a history make of a name.
- Definition {lit}`Dictionary.Keyed`: every entry has a key of its own, which is the name
  of its user word in lower case.
- Theorem {lit}`Dictionary.lookup_defineAll_of_reserved`: definitions leave every reserved
  name what it meant.
- Definition {lit}`Dictionary.Records`: what a dictionary keeps of a history.
- Theorem {lit}`Interpreter.records_history`: the dictionary of an interpreter in use
  keeps this of its history.
-/

namespace HexArena.Script

/-! ## What a history makes of a name -/

/-- The word that definitions in order make of a name, in any letter case: the first one
of the name has the spelling, and the last one the body. -/
def remembered? (history : List UserWord) (name : String) : Option UserWord :=
  let ours := history.filter fun word => Text.same word.name name
  ours.getLast?.map fun last => { ours.headD last with body := last.body }

/-- A definition changes what its name is remembered as, and nothing else. -/
theorem remembered?_concat (history : List UserWord) (new : UserWord) (name : String) :
    remembered? (history ++ [new]) name =
      if Text.fold name = Text.fold new.name then
        some { (remembered? history name).getD new with body := new.body }
      else remembered? history name := by
  unfold remembered?
  rw [List.filter_append, List.filter_singleton]
  by_cases hname : Text.fold name = Text.fold new.name
  · rw [if_pos hname, Text.same_iff.mpr hname.symm]
    cases hours : history.filter fun word => Text.same word.name name with
    | nil => simp
    | cons first later => simp [List.getLast?_cons]
  · have hother : Text.same new.name name = false :=
      eq_false_of_ne_true fun hsame => hname (Text.same_iff.mp hsame).symm
    simp [hname, hother]

namespace Dictionary

variable {d d' : Dictionary} {history : List UserWord} {word : UserWord} {name : String}

/-- Definitions in the dictionary of the built-in words make of every name what it is
remembered as. -/
theorem userWord?_of_defineAll (h : standard.defineAll history = .ok () d) (name : String) :
    d.userWord? name = remembered? history name := by
  -- The last definition decides on the body, so the induction starts from the end.
  induction history using List.reverseRecOn generalizing d with
  | nil =>
    cases h
    rw [userWord?, lookup_standard]
    cases Builtin.ofName? name with
    | none => rfl
    | some native => rfl
  | append_singleton history new ih =>
    obtain ⟨before, hbefore, hnew⟩ := defineAll_append_eq_ok.mp h
    rw [defineAll_singleton] at hnew
    obtain ⟨-, rfl⟩ := define_eq_ok_iff.mp hnew
    rw [userWord?_bind, ih hbefore, remembered?_concat]

/-! ## Names that no definition changes -/

/-- A definition that is accepted leaves every reserved name what it meant. -/
theorem lookup_define_of_reserved (h : d.define word = .ok () d')
    (hname : d.isReserved name = true) : d'.lookup name = d.lookup name := by
  obtain ⟨free, rfl⟩ := define_eq_ok_iff.mp h
  rw [lookup_bind, if_neg]
  intro hsame
  rw [← isReserved_fold, hsame, isReserved_fold, free] at hname
  cases hname

/-- So do definitions in order, as no name is reserved or freed by one of them. -/
theorem lookup_defineAll_of_reserved (h : d.defineAll history = .ok () d')
    (hname : d.isReserved name = true) : d'.lookup name = d.lookup name := by
  let kept (d' : Dictionary) := d'.isReserved name = true ∧ d'.lookup name = d.lookup name
  have hkept : kept d' := by
    refine defineAll_induction ?_ ⟨hname, rfl⟩ h
    rintro next word defined ⟨hreserved, hlookup⟩ hword
    refine ⟨?_, (lookup_define_of_reserved hword hreserved).trans hlookup⟩
    rw [isReserved_define hword]
    exact hreserved
  exact hkept.2

/-! ## Keys -/

/-- Every entry has a key of its own, and that of a user word is its name in lower
case. -/
structure Keyed (d : Dictionary) : Prop where
  distinct : (d.entries.map Entry.key).Nodup
  stored : ∀ entry ∈ d.entries, ∀ word, entry.meaning = .user word →
    entry.key = Text.fold word.name

theorem keyed_standard : standard.Keyed where
  distinct := by decide
  stored := by simp [standard]

/-- Binding a word keeps the keys. -/
theorem Keyed.bind (h : d.Keyed) (new : UserWord) : (d.bind new).Keyed := by
  let rebound (entry : Entry) : Entry := { entry with meaning := entry.meaning.rebind new }
  unfold Dictionary.bind
  cases hfound : d.lookup new.name with
  | some old =>
    constructor
    case distinct =>
      have hkeys : (updateFirst (·.key == Text.fold new.name) rebound d.entries).map Entry.key =
          d.entries.map Entry.key :=
        map_updateFirst fun _ _ _ => rfl
      dsimp only
      rw [hkeys]
      exact h.distinct
    case stored =>
      intro entry hentry word hword
      rcases mem_updateFirst hentry with hold | ⟨before, hbefore, hkey, rfl⟩
      · exact h.stored entry hold word hword
      · dsimp only at hword ⊢
        cases hmeaning : before.meaning with
        | builtin native =>
          rw [hmeaning] at hword
          cases hword
          exact beq_iff_eq.mp hkey
        | user bound =>
          rw [hmeaning] at hword
          cases hword
          exact h.stored before hbefore bound hmeaning
  | none =>
    constructor
    case distinct =>
      have hnew : Text.fold new.name ∉ d.entries.map Entry.key := by
        intro hmem
        obtain ⟨entry, hentry, hkey⟩ := List.mem_map.mp hmem
        have hnone := Option.map_eq_none_iff.mp hfound
        exact List.find?_eq_none.mp hnone entry hentry (beq_iff_eq.mpr hkey)
      dsimp only
      rw [List.map_append, List.map_singleton, ← List.concat_eq_append]
      exact h.distinct.concat hnew
    case stored =>
      intro entry hentry word hword
      rcases List.mem_append.mp hentry with hold | hlast
      · exact h.stored entry hold word hword
      · rw [List.mem_singleton.mp hlast] at hword ⊢
        cases hword
        rfl

/-- Definitions in order keep the keys. -/
theorem Keyed.defineAll (hd : d.Keyed) (h : d.defineAll history = .ok () d') : d'.Keyed := by
  refine defineAll_induction ?_ hd h
  intro next word defined hnext hword
  obtain ⟨-, rfl⟩ := define_eq_ok_iff.mp hword
  exact hnext.bind word

/-- A user word is what its name means, in any letter case, and nothing else means it. -/
theorem Keyed.lookup_eq_user_iff (h : d.Keyed) (hword : word ∈ d.words) :
    d.lookup name = some (.user word) ↔ Text.fold name = Text.fold word.name := by
  obtain ⟨entry, hentry, hmeaning⟩ := mem_words_iff.mp hword
  have hkey := h.stored entry hentry word hmeaning
  constructor
  · intro hlookup
    obtain ⟨found, hfound, hsame⟩ := Option.map_eq_some_iff.mp hlookup
    have hstored := h.stored found (List.mem_of_find?_eq_some hfound) word hsame
    exact (key_of_find? hfound).symm.trans hstored
  · intro hname
    cases hfound : d.entries.find? (·.key == Text.fold name) with
    | none =>
      have hother := List.find?_eq_none.mp hfound entry hentry
      exact absurd (beq_iff_eq.mpr (hkey.trans hname.symm)) hother
    | some found =>
      have hkeys : found.key = entry.key := (key_of_find? hfound).trans (hname.trans hkey.symm)
      have hsame : found = entry :=
        List.inj_on_of_nodup_map h.distinct (List.mem_of_find?_eq_some hfound) hentry hkeys
      rw [lookup, hfound, Option.map_some, hsame, hmeaning]

end Dictionary

/-! ## What is kept of a history -/

/-- A spelling of a built-in word in any letter case names it. -/
theorem Builtin.ofName?_of_same {word : Builtin} {name : String}
    (h : Text.same name word.name = true) : Builtin.ofName? name = some word := by
  rw [← Builtin.ofName?_fold, Text.same_iff.mp h, Builtin.ofName?_fold, Builtin.ofName?_name]

/-- No control word is a built-in word. -/
theorem Keyword.builtin?_of_same {word : Keyword} {name : String}
    (h : Text.same name word.name = true) : Builtin.ofName? name = none := by
  have hword : Builtin.ofName? word.name = none := by cases word <;> rfl
  rw [← Builtin.ofName?_fold, Text.same_iff.mp h, Builtin.ofName?_fold, hword]

/-- Every spelling of a control word is reserved. -/
theorem Keyword.isReserved_of_same {d : Dictionary} {word : Keyword} {name : String}
    (h : Text.same name word.name = true) : d.isReserved name = true := by
  have hword : d.isReserved word.name = true := by simp [Dictionary.isReserved]
  rw [← Dictionary.isReserved_fold, Text.same_iff.mp h, Dictionary.isReserved_fold, hword]

/-- A body with a tree passes the check of its word, with any dictionary. -/
theorem UserWord.Sound.checkWord {word : UserWord} (h : word.Sound) (d : Dictionary) :
    checkWord d word = .ok () := by
  obtain ⟨tree, htree⟩ := h
  have htokens := Tree.tokens_of_parse htree
  have hunmarked := tree.unmarked rfl
  have hderives : Derives d .body tree.tokens := Tree.derives (Tree.named_of_body rfl tree)
  have hpasses := hderives.checkFrom_append .top nofun []
  rw [List.append_nil] at hpasses
  rw [htokens] at hunmarked hpasses
  exact checkWord_eq_ok_iff.mpr ⟨hunmarked, hpasses⟩

/-- What a dictionary keeps of the definitions that were made, in their order. -/
structure Dictionary.Records (d : Dictionary) (history : List UserWord) : Prop where
  /-- Every built-in word is what its name means in any letter case. -/
  builtin : ∀ (word : Builtin) (name : String), Text.same name word.name = true →
    d.lookup name = some (.builtin word)
  /-- No control word means anything. -/
  control : ∀ (word : Keyword) (name : String), Text.same name word.name = true →
    d.lookup name = none
  /-- Every user word is stored under its name in lower case, and no key is there twice. -/
  keyed : d.Keyed
  /-- A user word is what the names mean that have its name in lower case, and no others. -/
  meant : ∀ word ∈ d.words, ∀ name,
    d.lookup name = some (.user word) ↔ Text.fold name = Text.fold word.name
  /-- No body opens or closes a definition. -/
  unmarked : ∀ word ∈ d.words, ∀ token ∈ word.body,
    token.isWord ":" = false ∧ token.isWord ";" = false
  /-- Every body is in order on its own. -/
  balanced : ∀ word ∈ d.words, checkStructure d word.body = .ok ()
  /-- Every name means what it is remembered as. -/
  latest : ∀ name, d.userWord? name = remembered? history name

namespace Interpreter

/-- The words of a reachable interpreter pass. -/
theorem Reachable.checkWord {i : Interpreter} (hi : i.Reachable) {word : UserWord}
    (hword : word ∈ i.dictionary.words) : checkWord i.dictionary word = .ok () :=
  (hi.sound word hword).checkWord i.dictionary

/-- Whatever an interpreter has been used for, its dictionary is a record of the
definitions that were made. -/
theorem records_history {owner : PieceId} {limits : Limits} {uses : List Use}
    {i : Interpreter} (huses : (fresh owner limits).useAll uses = .ok i) :
    i.dictionary.Records ((fresh owner limits).history uses) := by
  have hmade : Dictionary.standard.defineAll ((fresh owner limits).history uses) =
      .ok () i.dictionary := defineAll_of_useAll huses
  have hkeyed := Dictionary.keyed_standard.defineAll hmade
  have hi : i.Reachable := ⟨owner, limits, uses, huses⟩
  constructor
  case builtin =>
    intro word name hname
    exact hi.lookup_eq_builtin_iff.mpr (Builtin.ofName?_of_same hname)
  case control =>
    intro word name hname
    have hreserved := Keyword.isReserved_of_same (d := .standard) hname
    rw [Dictionary.lookup_defineAll_of_reserved hmade hreserved, Dictionary.lookup_standard,
      Keyword.builtin?_of_same hname]
    rfl
  case keyed => exact hkeyed
  case meant =>
    intro word hword name
    exact hkeyed.lookup_eq_user_iff hword
  case unmarked =>
    intro word hword token htoken
    have hmarks := (checkWord_eq_ok_iff.mp (hi.checkWord hword)).1 token htoken
    simpa [Token.keyword?_eq_some_iff, Keyword.name] using hmarks
  case balanced =>
    intro word hword
    exact (checkWord_eq_ok_iff.mp (hi.checkWord hword)).2
  case latest => exact Dictionary.userWord?_of_defineAll hmade

/-- A word is defined ahead of turns.  A turn skips a definition of it and goes twice
through another one; a reserved name is refused, and a turn faults behind a definition. -/
def dashes : List Use :=
  [.define ⟨"Dash", [.number 1], by decide⟩,
    .turn "0 if : dash 2 ; then 0 begin : DASH 3 ; 1 + dup 2 = until" .lone [],
    .define ⟨"until", [], by decide⟩,
    .turn ": dash 4 ; drop" .lone []]

/-- The word keeps its first spelling, with the last body of a turn that did not fault. -/
theorem records_history_dashes :
    ∃ i, (fresh .ada .default).useAll dashes = .ok i ∧
      i.dictionary.Records [⟨"Dash", [.number 1], by decide⟩, ⟨"DASH", [.number 3], by decide⟩,
        ⟨"DASH", [.number 3], by decide⟩] ∧
      i.userWord? "dash" = some ⟨"Dash", [.number 3], by decide⟩ := by
  obtain ⟨i, huses⟩ : ∃ i, (fresh .ada .default).useAll dashes = .ok i := ⟨_, rfl⟩
  have hhistory : (fresh .ada .default).history dashes =
      [⟨"Dash", [.number 1], by decide⟩, ⟨"DASH", [.number 3], by decide⟩,
        ⟨"DASH", [.number 3], by decide⟩] := by rfl
  have hrecords := records_history huses
  rw [hhistory] at hrecords
  exact ⟨i, huses, hrecords, hrecords.latest "dash"⟩

end Interpreter

end HexArena.Script
