/-!
# Letter case

Names are compared without regard to the case of ASCII letters; every other
character counts as it is written.

Main results:

- Definition {lit}`Text.fold`: a text with its ASCII letters in lower case.
- Definition {lit}`Text.same`: equality of texts up to the case of ASCII
  letters.
-/

namespace HexArena.Text

/-- The text with its ASCII letters in lower case. -/
def fold (s : String) : String :=
  String.ofList (s.toList.map Char.toLower)

/-- The texts are equal up to the case of ASCII letters. -/
def same (a b : String) : Bool :=
  fold a == fold b

/-- Two texts are the same exactly if they fold to one text. -/
theorem same_iff {a b : String} : same a b = true ↔ fold a = fold b := by
  simp [same]

end HexArena.Text
