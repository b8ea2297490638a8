import HexArena.Proofs.Script.Rendering
import HexArena.Proofs.Script.Sight
import Mathlib.Data.Nat.Digits.Defs

/-!
# Numbers in texts

Integers become texts and texts become integers in three places: a value is written
out in decimal, an unquoted run of a script is told from a word, and a word converts
whatever text a script has put together.  The three agree.  The conversion is only more
lenient than a script: it looks past the blanks around the text, it takes a plus sign,
and what is no integer in range counts as zero.

Main results:

- Definition {lit}`Text.decimal`: the value of decimal digits.
- Theorem {lit}`Text.readInt64?_eq_some_iff`: which texts are read as which integer.
- Theorem {lit}`Lexer.classify_eq_number_iff`: which unquoted runs are numbers.
- Theorem {lit}`Text.trimChars_of_solid`: nothing is trimmed without blanks.
- Definition {lit}`Builtin.Converts`: what the conversion makes of a text.
- Theorem {lit}`Builtin.converts_like_scripts`: it agrees with written integers and
  with scripts.
-/

namespace HexArena

namespace Text

/-! ## Values of digits -/

/-- The value of decimal digits, of which the last one counts the units. -/
def decimal (digits : List Char) : Nat :=
  Nat.ofDigits 10 (digits.reverse.map fun c => c.toNat - '0'.toNat)

/-- Digits that are read from the front have the value of the decimal number. -/
theorem ofDigitChars_eq_decimal (digits : List Char) :
    Nat.ofDigitChars 10 digits 0 = decimal digits := by
  rw [decimal, Nat.ofDigits_eq_foldr, List.foldr_map, List.foldr_reverse,
    Nat.ofDigitChars_eq_foldl]
  simp only [Nat.add_comm, Nat.cast_id]

theorem readDigits?_eq_some_iff {cs : List Char} {v : Nat} :
    readDigits? cs = some v ↔ isDigits cs = true ∧ v = decimal cs := by
  rw [readDigits?, ofDigitChars_eq_decimal]
  split
  · simp [*, eq_comm]
  · simp [*]

/-! ## Written integers -/

/-- An integer is read from one or more digits behind a minus sign, a plus sign or
nothing, and from nothing else. -/
theorem readInt?_eq_some_iff {cs : List Char} {n : Int} :
    readInt? cs = some n ↔ ∃ digits, isDigits digits = true ∧
      (cs = '-' :: digits ∧ n = -(decimal digits : Int) ∨
        (cs = '+' :: digits ∨ cs = digits) ∧ n = decimal digits) := by
  have hminus : ∀ digits, isDigits ('-' :: digits) = false := not_isDigits_minus
  have hplus : ∀ digits, isDigits ('+' :: digits) = false := by simp [isDigits]
  unfold readInt?
  split <;> simp only [Option.map_eq_some_iff, bind, Option.bind_eq_some_iff, pure,
    Option.some.injEq, readDigits?_eq_some_iff]
  · rename_i rest
    constructor
    · rintro ⟨_, ⟨v, ⟨hdigits, rfl⟩, rfl⟩, rfl⟩
      exact ⟨rest, hdigits, .inl ⟨rfl, rfl⟩⟩
    · rintro ⟨digits, hdigits, ⟨hcs, rfl⟩ | ⟨hcs | rfl, -⟩⟩
      · cases hcs
        exact ⟨_, ⟨_, ⟨hdigits, rfl⟩, rfl⟩, rfl⟩
      · cases hcs
      · rw [hminus] at hdigits
        cases hdigits
  · rename_i rest
    constructor
    · rintro ⟨_, ⟨v, ⟨hdigits, rfl⟩, rfl⟩, rfl⟩
      exact ⟨rest, hdigits, .inr ⟨.inl rfl, rfl⟩⟩
    · rintro ⟨digits, hdigits, ⟨hcs, -⟩ | ⟨hcs | rfl, rfl⟩⟩
      · cases hcs
      · cases hcs
        exact ⟨_, ⟨_, ⟨hdigits, rfl⟩, rfl⟩, rfl⟩
      · rw [hplus] at hdigits
        cases hdigits
  · rename_i hnominus hnoplus
    constructor
    · rintro ⟨_, ⟨v, ⟨hdigits, rfl⟩, rfl⟩, rfl⟩
      exact ⟨cs, hdigits, .inr ⟨.inr rfl, rfl⟩⟩
    · rintro ⟨digits, hdigits, ⟨hcs, -⟩ | ⟨hcs | rfl, rfl⟩⟩
      · exact absurd hcs (hnominus digits)
      · exact absurd hcs (hnoplus digits)
      · exact ⟨_, ⟨_, ⟨hdigits, rfl⟩, rfl⟩, rfl⟩

/-- The integers that are read are those in range. -/
theorem readInt64?_eq_some_iff {cs : List Char} {n : Int} :
    readInt64? cs = some n ↔ readInt? cs = some n ∧ Fits64 n := by
  rw [readInt64?, Option.filter_eq_some_iff, decide_eq_true_iff]

/-- What is read as an integer is a numeral, or the digits of one behind a plus
sign. -/
theorem numeral_or_plus {cs : List Char} {n : Int} (h : readInt? cs = some n) :
    Numeral cs ∨ ∃ digits, cs = '+' :: digits ∧ isDigits digits = true ∧ n = decimal digits := by
  obtain ⟨digits, hdigits, ⟨hcs, -⟩ | ⟨hcs | hcs, hn⟩⟩ := readInt?_eq_some_iff.mp h
  · exact .inl (.inr ⟨digits, hdigits, hcs⟩)
  · exact .inr ⟨digits, hcs, hdigits, hn⟩
  · rw [← hcs] at hdigits
    exact .inl (.inl hdigits)

/-! ## Blanks around a text -/

/-- Nothing is trimmed where there are no blanks. -/
theorem trimChars_of_solid {cs : List Char} (h : ∀ c ∈ cs, isBlank c = false) :
    trimChars cs = cs := by
  have hkeeps : ∀ cs : List Char, (∀ c ∈ cs, isBlank c = false) → cs.dropWhile isBlank = cs := by
    intro cs hcs
    cases cs with
    | nil => rfl
    | cons c rest => rw [List.dropWhile_cons_of_neg (by simp [hcs c List.mem_cons_self])]
  rw [trimChars, hkeeps cs h, hkeeps cs.reverse (by simpa using h), List.reverse_reverse]

/-- The text of an integer has no blanks around it. -/
theorem trimChars_toString (n : Int) : trimChars (toString n).toList = (toString n).toList := by
  apply trimChars_of_solid
  intro c hc
  rcases (numeral_toString n).minus_or_digit hc with rfl | hdigit
  · decide
  · exact isBlank_of_isDigit hdigit

end Text

namespace Script

/-- An unquoted run is a number if it is a numeral and what it writes is in range. -/
theorem Lexer.classify_eq_number_iff {raw : List Char} {n : Int} :
    classify raw = .ok (.number n) ↔ Text.Numeral raw ∧ Text.readInt64? raw = some n := by
  by_cases hraw : Text.Numeral raw
  · rw [classify_of_numeral hraw]
    cases Text.readInt64? raw with
    | some m => simp [hraw]
    | none => simp
  · simp [classify_of_not_numeral hraw, hraw]

/-! ## The conversion -/

namespace Builtin

/-- The conversion replaces a text by an integer, in every scene and on every
machine. -/
def Converts (t : String) (n : Int) : Prop :=
  ∀ (scene : Scene) (m : Machine), toNumber.Answers scene m [.text t] (.int n)

variable {t : String} {n : Int}

/-- A text is converted to the integer it stands for. -/
theorem converts_of_eq (h : Word.numberOf (.text t) = n) : Converts t n := by
  subst h
  intro scene m rest hroom
  apply perform_of_action
  exact push_of_room (m := { m with stack := rest }) hroom _

/-- A text is converted to the integer that is read from it without the blanks around
it. -/
theorem converts_of_read (h : Text.readInt64? (Text.trimChars t.toList) = some n) :
    Converts t n := by
  apply converts_of_eq
  rw [Word.numberOf, h, Option.getD_some]

/-- A text is converted to zero if no integer is read from it. -/
theorem converts_of_unread (h : Text.readInt64? (Text.trimChars t.toList) = none) :
    Converts t 0 := by
  apply converts_of_eq
  rw [Word.numberOf, h, Option.getD_none]

/-- The text form of an integer in range is converted back to it.  Any text is
converted to the number that a script would read in its place, without the blanks around
it; digits behind a plus sign are converted to their value, if that is in range; and every
other text is converted to zero. -/
theorem converts_like_scripts :
    (∀ n, Fits64 n → Converts (Value.int n).toText n) ∧
    ∀ t : String,
      (∀ n, Lexer.classify (Text.trimChars t.toList) = .ok (.number n) → Converts t n) ∧
      (∀ digits, Text.trimChars t.toList = '+' :: digits → Text.isDigits digits = true →
        Fits64 (Text.decimal digits) → Converts t (Text.decimal digits)) ∧
      ((∀ n, Lexer.classify (Text.trimChars t.toList) ≠ .ok (.number n)) →
        (∀ digits, Text.trimChars t.toList = '+' :: digits → Text.isDigits digits = true →
          ¬ Fits64 (Text.decimal digits)) →
        Converts t 0) := by
  constructor
  · intro n hn
    apply converts_of_read
    rw [Value.toText, Text.trimChars_toString, Text.readInt64?_toString hn]
  · intro t
    refine ⟨?_, ?_, ?_⟩
    · intro n hnumber
      exact converts_of_read (Lexer.classify_eq_number_iff.mp hnumber).2
    · intro digits hplus hdigits hfits
      have hint : Text.readInt? (Text.trimChars t.toList) = some (Text.decimal digits : Int) :=
        Text.readInt?_eq_some_iff.mpr ⟨digits, hdigits, .inr ⟨.inl hplus, rfl⟩⟩
      exact converts_of_read (Text.readInt64?_eq_some_iff.mpr ⟨hint, hfits⟩)
    · intro hnumber hplus
      apply converts_of_unread
      refine Option.eq_none_iff_forall_ne_some.mpr fun n hn => ?_
      obtain ⟨hint, hfits⟩ := Text.readInt64?_eq_some_iff.mp hn
      rcases Text.numeral_or_plus hint with hnumeral | ⟨digits, hcs, hdigits, rfl⟩
      · exact hnumber n (Lexer.classify_eq_number_iff.mpr ⟨hnumeral, hn⟩)
      · exact hplus digits hcs hdigits hfits

/-- The least integer is converted back; blanks, zeros in front and a plus sign are
looked past, and a number beyond the range and a second sign are not. -/
theorem converts_like_scripts_extremes :
    Converts (Value.int (-9223372036854775808)).toText (-9223372036854775808) ∧
      Converts " -007\n" (-7) ∧ Converts "+12 " 12 ∧ Converts "9223372036854775808" 0 ∧
      Converts "+-5" 0 := by
  obtain ⟨hwritten, htexts⟩ := converts_like_scripts
  refine ⟨hwritten _ (by decide), ?_, ?_, ?_, ?_⟩
  · exact (htexts " -007\n").1 (-7) rfl
  · exact (htexts "+12 ").2.1 ['1', '2'] rfl rfl (by decide)
  · have hbeyond : Lexer.classify (Text.trimChars "9223372036854775808".toList) =
        .error (.literalOutOfRange "9223372036854775808") := rfl
    refine (htexts _).2.2 (by rw [hbeyond]; nofun) ?_
    intro digits hcs
    cases hcs
  · have hword : Lexer.classify (Text.trimChars "+-5".toList) = .ok (.word "+-5") := rfl
    refine (htexts _).2.2 (by rw [hword]; nofun) ?_
    intro digits hcs
    cases hcs
    decide

end Builtin

end Script

end HexArena
