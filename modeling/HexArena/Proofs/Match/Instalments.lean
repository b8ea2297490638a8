import HexArena.Proofs.Match.Course

/-!
# Playing in instalments

A match may be played at once, or in two instalments of which the second goes on where
the first stopped.  Nobody can tell which from what is left: a match that is concluded
is not played any further, so an instalment that comes too late does nothing, and as
long as it is not concluded the next round does not depend on who asks for it.

Main results:

- Theorem {lit}`Match.playRounds_of_concluded`: a concluded match is left as it is.
- Theorem {lit}`Match.playRounds_add`: rounds can be played in two parts.
- Theorem {lit}`Match.play_add`: two instalments are one.
-/

namespace HexArena

@[simp]
theorem Transcript.empty_append (t : Transcript) : empty ++ t = t :=
  rfl

theorem Transcript.append_assoc (r s t : Transcript) : r ++ s ++ t = r ++ (s ++ t) := by
  ext1
  · exact List.append_assoc r.events s.events t.events
  · exact List.append_assoc r.log s.log t.log

namespace Match

variable {m : Match}

/-- No round of a concluded match is played. -/
theorem playRounds_of_concluded (h : m.world.concluded = true) (rounds : Nat) :
    m.playRounds rounds = .ok (0, m, .empty) := by
  cases rounds with
  | zero => rfl
  | succ rounds => simp only [playRounds, h, if_true, pure, Except.pure]

/-- A round is played first, and the others go on from there. -/
theorem playRounds_succ (h : m.world.concluded = false) (rounds : Nat) :
    m.playRounds (rounds + 1) = do
      let (mid, round) ← m.playRound
      let (played, last, later) ← mid.playRounds rounds
      return (played + 1, last, round ++ later) := by
  simp only [playRounds, h, Bool.false_eq_true, if_false]

/-- Rounds can be played in two parts, wherever the match is concluded. -/
theorem playRounds_add (m : Match) (first second : Nat) :
    m.playRounds (first + second) = do
      let (played, mid, done) ← m.playRounds first
      let (more, last, later) ← mid.playRounds second
      return (played + more, last, done ++ later) := by
  induction first generalizing m with
  | zero =>
    rw [Nat.zero_add]
    cases hplayed : m.playRounds second with
    | error cause => simp only [playRounds, bind, Except.bind, hplayed]
    | ok result =>
      simp only [playRounds, bind, Except.bind, hplayed, pure, Except.pure, Nat.zero_add,
        Transcript.empty_append]
  | succ first ih =>
    rw [Nat.succ_add]
    cases hconcluded : m.world.concluded with
    | true =>
      -- The match is over before the seam, and neither part plays anything.
      simp only [playRounds_of_concluded hconcluded, bind, Except.bind, pure, Except.pure,
        Nat.zero_add, Transcript.empty_append]
    | false =>
      rw [playRounds_succ hconcluded, playRounds_succ hconcluded]
      cases m.playRound with
      | error cause => rfl
      | ok result =>
        obtain ⟨mid, round⟩ := result
        simp only [bind, Except.bind, ih mid]
        cases mid.playRounds first with
        | error cause => rfl
        | ok result =>
          obtain ⟨played, seam, done⟩ := result
          simp only [pure, Except.pure]
          cases seam.playRounds second with
          | error cause => rfl
          | ok result =>
            obtain ⟨more, last, later⟩ := result
            simp only [Nat.add_right_comm, Transcript.append_assoc]

/-- Playing a match in two instalments leaves the same match, the same events and the
same log as playing it at once.  The rounds of both instalments are counted together,
and the second tells what came of the match.  One way overflows if the other does. -/
theorem play_add (m : Match) (first second : Nat) :
    m.play (first + second) = do
      let (score, mid, done) ← m.play first
      let (score', last, later) ← mid.play second
      return (⟨score.roundsPlayed + score'.roundsPlayed, score'.concluded, score'.winner⟩, last,
        done ++ later) := by
  unfold play
  rw [playRounds_add]
  cases m.playRounds first with
  | error cause => rfl
  | ok result =>
    obtain ⟨played, mid, done⟩ := result
    simp only [bind, Except.bind, pure, Except.pure]
    cases mid.playRounds second with
    | error cause => rfl
    | ok result => rfl

end Match

end HexArena
