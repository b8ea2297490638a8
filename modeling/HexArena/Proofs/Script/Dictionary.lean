import HexArena.Proofs.Lookup
import HexArena.Proofs.Text.Fold
import HexArena.Script.Dictionary

/-!
# What names mean

A dictionary has one table for built-in words and user words, and nothing but the guard
in front of a definition keeps the two apart.  Binding a word changes the meaning of its
name, in any letter case, and of no other one.  As the names of built-in words are
reserved, a definition that is accepted leaves every built-in word its meaning, and the
same names are reserved after it as before.

Main results:

- Theorem {lit}`Dictionary.lookup_bind`: what names mean after a word is bound.
- Theorem {lit}`Dictionary.define_eq_ok_iff`: which definitions are accepted.
- Theorem {lit}`Dictionary.define_error`: a definition that is refused changes nothing.
- Theorem {lit}`Dictionary.isReserved_define`: a definition that is accepted changes no
  reserved name.
- Theorem {lit}`Dictionary.lookup_standard`: what names mean before any definition.
-/

namespace HexArena.Script

/-! ## Names in any letter case -/

@[simp]
theorem Keyword.ofName?_fold (s : String) : ofName? (Text.fold s) = ofName? s := by
  simp [ofName?]

@[simp]
theorem Keyword.fold_name (k : Keyword) : Text.fold k.name = k.name := by
  cases k <;> decide

@[simp]
theorem Builtin.ofName?_fold (s : String) : ofName? (Text.fold s) = ofName? s := by
  simp [ofName?]

namespace Dictionary

variable {d d' : Dictionary} {name name' : String} {word new : UserWord}

/-- A name means the same in any letter case. -/
theorem lookup_congr (h : Text.fold name = Text.fold name') : d.lookup name = d.lookup name' := by
  simp only [lookup, h]

/-- A name is reserved in any letter case. -/
@[simp]
theorem isReserved_fold (d : Dictionary) (name : String) :
    d.isReserved (Text.fold name) = d.isReserved name := by
  simp [isReserved, isBuiltin, lookup]

/-! ## Built-in words and user words -/

theorem isBuiltin_eq_true_iff :
    d.isBuiltin name = true ↔ ∃ native, d.lookup name = some (.builtin native) := by
  unfold isBuiltin
  rcases d.lookup name with _ | native | word <;> simp

theorem isBuiltin_eq_false_iff :
    d.isBuiltin name = false ↔ ∀ native, d.lookup name ≠ some (.builtin native) := by
  unfold isBuiltin
  rcases d.lookup name with _ | native | word <;> simp

/-- A name is not reserved if it is no control word and means no built-in word. -/
theorem isReserved_eq_false_iff :
    d.isReserved name = false ↔
      Keyword.ofName? name = none ∧ ∀ native, d.lookup name ≠ some (.builtin native) := by
  rw [isReserved, Bool.or_eq_false_iff, isBuiltin_eq_false_iff, Option.isSome_eq_false_iff,
    Option.isNone_iff_eq_none]

/-- The same names are reserved if the same names mean built-in words. -/
theorem isReserved_congr
    (h : ∀ name native,
      d'.lookup name = some (.builtin native) ↔ d.lookup name = some (.builtin native)) :
    d'.isReserved = d.isReserved := by
  funext name
  have hbuiltin : d'.isBuiltin name = d.isBuiltin name := by
    rw [Bool.eq_iff_iff, isBuiltin_eq_true_iff, isBuiltin_eq_true_iff]
    exact exists_congr (h name)
  rw [isReserved, isReserved, hbuiltin]

/-- The user words are the meanings of the entries that mean one. -/
theorem mem_words_iff : word ∈ d.words ↔ ∃ entry ∈ d.entries, entry.meaning = .user word := by
  have huser (meaning : Meaning) : meaning.userWord? = some word ↔ meaning = .user word := by
    cases meaning <;> simp [Meaning.userWord?]
  simp only [words, List.mem_filterMap, huser]

/-- The entry that is found for a name has the name in lower case as key. -/
theorem key_of_find? {entry : Entry} (h : d.entries.find? (·.key == Text.fold name) = some entry) :
    entry.key = Text.fold name :=
  beq_iff_eq.mp (List.find?_some (p := fun entry : Entry => entry.key == Text.fold name) h)

/-- A user word that a name means is one of the dictionary. -/
theorem mem_of_lookup (h : d.lookup name = some (.user word)) : word ∈ d.words := by
  obtain ⟨entry, hentry, hmeaning⟩ := Option.map_eq_some_iff.mp h
  exact mem_words_iff.mpr ⟨entry, List.mem_of_find?_eq_some hentry, hmeaning⟩

/-! ## Binding a word -/

/-- After a word is bound, its name means what the word makes of the earlier meaning, and
every other name means what it meant. -/
theorem lookup_bind (d : Dictionary) (new : UserWord) (name : String) :
    (d.bind new).lookup name =
      if Text.fold name = Text.fold new.name then
        some (((d.lookup name).map (Meaning.rebind new)).getD (.user new))
      else d.lookup name := by
  let rebound (entry : Entry) : Entry := { entry with meaning := entry.meaning.rebind new }
  unfold bind
  by_cases hname : Text.fold name = Text.fold new.name
  · rw [if_pos hname, lookup_congr hname, lookup_congr hname]
    cases hfound : d.lookup new.name with
    | some old =>
      have hkeeps : ∀ entry ∈ d.entries, (entry.key == Text.fold new.name) = true →
          ((rebound entry).key == Text.fold new.name) = true := fun _ _ hentry => hentry
      unfold lookup at hfound ⊢
      dsimp only
      rw [find?_updateFirst hkeeps, Option.map_map]
      obtain ⟨entry, hentry, rfl⟩ := Option.map_eq_some_iff.mp hfound
      rw [hentry]
      rfl
    | none =>
      unfold lookup at hfound ⊢
      dsimp only
      rw [List.find?_append, Option.map_eq_none_iff.mp hfound]
      simp
  · have hother : ∀ entry : Entry, (entry.key == Text.fold new.name) = true →
        (entry.key == Text.fold name) = false := by
      intro entry hentry
      rw [beq_iff_eq.mp hentry]
      exact beq_false_of_ne (Ne.symm hname)
    rw [if_neg hname]
    cases d.lookup new.name with
    | some old =>
      have hrebound : ∀ entry ∈ d.entries, (entry.key == Text.fold new.name) = true →
          ((rebound entry).key == Text.fold name) = false := fun entry _ => hother entry
      unfold lookup
      dsimp only
      rw [find?_updateFirst_of_disjoint (fun entry _ => hother entry) hrebound]
    | none =>
      have hnew := hother ⟨Text.fold new.name, .user new⟩ (beq_self_eq_true _)
      unfold lookup
      dsimp only
      rw [List.find?_append, List.find?_cons_of_neg (by simp [hnew]), List.find?_nil,
        Option.or_none]

/-- After a word is bound, its name means a user word with the new body, under the spelling
it had, if it had one. -/
theorem userWord?_bind (d : Dictionary) (new : UserWord) (name : String) :
    (d.bind new).userWord? name =
      if Text.fold name = Text.fold new.name then
        some { (d.userWord? name).getD new with body := new.body }
      else d.userWord? name := by
  unfold userWord?
  rw [lookup_bind]
  split
  · rcases d.lookup name with _ | native | old <;> rfl
  · rfl

/-- Once a word is bound, every word is an old one or has the new body. -/
theorem mem_bind (h : word ∈ (d.bind new).words) : word ∈ d.words ∨ word.body = new.body := by
  obtain ⟨entry, hentry, hword⟩ := mem_words_iff.mp h
  unfold bind at hentry
  split at hentry
  · rcases mem_updateFirst hentry with hold | ⟨old, hold, -, rfl⟩
    · exact Or.inl (mem_words_iff.mpr ⟨entry, hold, hword⟩)
    · dsimp only at hword
      cases hmeaning : old.meaning with
      | builtin native =>
        rw [hmeaning] at hword
        cases hword
        exact Or.inr rfl
      | user word =>
        rw [hmeaning] at hword
        cases hword
        exact Or.inr rfl
  · rcases List.mem_append.mp hentry with hold | hlast
    · exact Or.inl (mem_words_iff.mpr ⟨entry, hold, hword⟩)
    · rw [List.mem_singleton.mp hlast] at hword
      cases hword
      exact Or.inr rfl

/-! ## Definitions -/

/-- A definition is accepted exactly if its name is not reserved, and then binds the word. -/
theorem define_eq_ok_iff :
    d.define word = .ok () d' ↔ d.isReserved word.name = false ∧ d' = d.bind word := by
  unfold define
  cases d.isReserved word.name <;> simp [eq_comm]

/-- A word is bound if its name is not reserved. -/
theorem define_of_free (d : Dictionary) (word : UserWord) (free : d.isReserved word.name = false) :
    d.define word = .ok () (d.bind word) :=
  define_eq_ok_iff.mpr ⟨free, rfl⟩

/-- A definition is refused exactly if its name is reserved, and then changes nothing. -/
theorem define_eq_error_iff {error : Error} :
    d.define word = .error error d' ↔
      d.isReserved word.name = true ∧ error = .reservedWord word.name ∧ d' = d := by
  unfold define
  cases d.isReserved word.name <;> simp [eq_comm]

/-- A definition that is refused changes nothing. -/
theorem define_error {error : Error} (h : d.define word = .error error d') : d' = d :=
  (define_eq_error_iff.mp h).2.2

/-- Binding a word to a name that is not reserved leaves every built-in word its meaning,
and gives no other name one. -/
theorem lookup_bind_eq_builtin_iff (free : d.isReserved new.name = false) {native : Builtin} :
    (d.bind new).lookup name = some (.builtin native) ↔ d.lookup name = some (.builtin native) := by
  rw [lookup_bind]
  split
  · rename_i hname
    have hold := (isReserved_eq_false_iff.mp free).2
    rw [← lookup_congr hname] at hold
    rcases hlookup : d.lookup name with _ | other | old
    · simp
    · exact absurd hlookup (hold other)
    · simp [Meaning.rebind]
  · rfl

/-- A definition that is accepted leaves the built-in words their meanings. -/
theorem lookup_define_eq_builtin_iff (h : d.define word = .ok () d') {native : Builtin} :
    d'.lookup name = some (.builtin native) ↔ d.lookup name = some (.builtin native) := by
  obtain ⟨free, rfl⟩ := define_eq_ok_iff.mp h
  exact lookup_bind_eq_builtin_iff free

/-- A definition that is accepted changes no reserved name. -/
theorem isReserved_define (h : d.define word = .ok () d') : d'.isReserved = d.isReserved :=
  isReserved_congr fun _ _ => lookup_define_eq_builtin_iff h

/-! ## The dictionary without definitions -/

/-- Before any definition, the names of the built-in words mean these, in any letter case,
and no other name means anything. -/
theorem lookup_standard (name : String) :
    standard.lookup name = (Builtin.ofName? name).map .builtin := by
  unfold lookup standard Builtin.ofName?
  rw [List.find?_map, Option.map_map]
  rfl

/-- Before any definition there are no user words. -/
@[simp]
theorem words_standard : standard.words = [] := by
  rfl

end Dictionary

end HexArena.Script
