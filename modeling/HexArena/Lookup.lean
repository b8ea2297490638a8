/-!
# The first match in a list

Pieces, mailboxes, words and entrants are kept in lists whose order shows.  An
operation on one of them concerns the first element that matches.

Main results:

- Definition {lit}`updateFirst`: the list with its first matching element
  changed.
- Theorem {lit}`length_updateFirst`: the length stays.
-/

namespace HexArena

/-- The list with its first matching element changed by {lit}`f`. -/
def updateFirst {α : Type} (p : α → Bool) (f : α → α) : List α → List α
  | [] => []
  | a :: rest => if p a then f a :: rest else a :: updateFirst p f rest

/-- Changing an element keeps the length. -/
@[simp] theorem length_updateFirst {α : Type} (p : α → Bool) (f : α → α) (l : List α) :
    (updateFirst p f l).length = l.length := by
  induction l with
  | nil => rfl
  | cons a rest ih => by_cases h : p a <;> simp [updateFirst, h, ih]

end HexArena
