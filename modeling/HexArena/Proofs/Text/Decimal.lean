import HexArena.Text.Decimal

/-!
# Integers as they are written

The decimal text of an integer is a run of digits, behind a minus sign if the integer
is negative.  It is read back as the integer it was written for.

Main results:

- Theorem {lit}`Text.toList_toString`: the characters of the text of an integer.
- Theorem {lit}`Text.readInt?_toString`: an integer is read back from its text.
- Theorem {lit}`Text.readInt64?_toString`: and so within the signed 64-bit range.
-/

namespace HexArena.Text

/-! ## Digits -/

theorem isDigits_iff {cs : List Char} :
    isDigits cs = true ↔ cs ≠ [] ∧ ∀ c ∈ cs, c.isDigit = true := by
  simp [isDigits]

/-- A number is written with one or more digits. -/
theorem isDigits_toDigits (n : Nat) : isDigits (Nat.toDigits 10 n) = true := by
  apply isDigits_iff.mpr
  constructor
  · exact Nat.toDigits_ne_nil
  · intro c hc
    exact Nat.isDigit_of_mem_toDigits (by omega) (by omega) hc

/-- A number is read back from its digits. -/
theorem readDigits?_toDigits (n : Nat) : readDigits? (Nat.toDigits 10 n) = some n := by
  rw [readDigits?, if_pos (isDigits_toDigits n), Nat.ofDigitChars_ten_toDigits]

/-- Digits without a sign are the value they have as a number. -/
theorem readInt?_of_isDigits {cs : List Char} (h : isDigits cs = true) :
    readInt? cs = (readDigits? cs).map fun n => (n : Int) := by
  -- Neither sign is a digit, so the third clause reads the characters.
  have hhead : ∀ c rest, cs = c :: rest → c.isDigit = true := by
    rintro c rest rfl
    exact (isDigits_iff.mp h).2 c List.mem_cons_self
  unfold readInt?
  split
  · have hminus := hhead '-' _ rfl
    simp at hminus
  · have hplus := hhead '+' _ rfl
    simp at hplus
  · rfl

/-! ## Integers -/

/-- An integer is written as its absolute value, behind a minus sign if it is
negative. -/
theorem toList_toString (n : Int) :
    (toString n).toList =
      if n < 0 then '-' :: Nat.toDigits 10 n.natAbs else Nat.toDigits 10 n.natAbs := by
  cases n with
  | ofNat n => simp [ToString.toString, Int.repr, Nat.toList_repr]
  | negSucc n => simp [ToString.toString, Int.repr, Nat.toList_repr]

/-- An integer is read back from its text. -/
theorem readInt?_toString (n : Int) : readInt? (toString n).toList = some n := by
  rw [toList_toString]
  by_cases h : n < 0
  · have habs : -(n.natAbs : Int) = n := by omega
    rw [if_pos h, readInt?, readDigits?_toDigits]
    exact congrArg some habs
  · have habs : (n.natAbs : Int) = n := by omega
    rw [if_neg h, readInt?_of_isDigits (isDigits_toDigits _), readDigits?_toDigits]
    exact congrArg some habs

/-- An integer in the signed 64-bit range is read back from its text. -/
theorem readInt64?_toString {n : Int} (h : Fits64 n) :
    readInt64? (toString n).toList = some n := by
  rw [readInt64?, readInt?_toString, Option.filter_some_pos]
  exact decide_eq_true h

/-- What is read in the signed 64-bit range lies in it. -/
theorem fits_of_readInt64? {cs : List Char} {n : Int} (h : readInt64? cs = some n) :
    Fits64 n := by
  simpa using (Option.filter_eq_some_iff.mp h).2

end HexArena.Text
