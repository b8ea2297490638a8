import HexArena.Proofs.Match.Protocol

/-!
# The verdict of a match

A shot never hits the piece that fires it, so whoever takes a turn is still there
when it is over, and a match with somebody on the board never runs out of pieces.
Teams only shrink, so the team that lives alone when a match is concluded lives
alone ever after.

Main results:

- Theorem {lit}`World.livingTeams_eq_singleton`: when one team lives alone.
- Theorem {lit}`World.Turn.stands`: whoever has taken a turn is active.
- Theorem {lit}`World.Course.judged`: somebody stays active, and a verdict stays
  right.
- Theorem {lit}`Match.decided_of_callAll`: no match wipes everybody out, and its
  winner is final.
-/

namespace HexArena

namespace World

variable {w w' : World} {team : Team} {id : PieceId} {piece : Piece} {events log : List Event}

/-! ## Teams -/

theorem mem_insertTeam {other : Team} {teams : List Team} :
    other ∈ insertTeam team teams ↔ other = team ∨ other ∈ teams := by
  induction teams with
  | nil => simp [insertTeam]
  | cons first rest ih =>
    unfold insertTeam
    split
    · simp
    · split
      · rename_i heq
        simp [heq]
      · simp only [List.mem_cons, ih]
        tauto

/-- The living teams are those of the living pieces. -/
theorem mem_livingTeams :
    team ∈ w.livingTeams ↔ ∃ p ∈ w.pieces, p.alive = true ∧ p.team = team := by
  have hfold : ∀ teams : List Team, team ∈ teams.foldr insertTeam [] ↔ team ∈ teams := by
    intro teams
    induction teams with
    | nil => rfl
    | cons first rest ih => rw [List.foldr_cons, mem_insertTeam, ih, List.mem_cons]
  rw [livingTeams, hfold]
  simp [and_assoc]

/-- Teams that are all the same are one team. -/
theorem foldr_insertTeam {teams : List Team} (hne : teams ≠ [])
    (hall : ∀ other ∈ teams, other = team) : teams.foldr insertTeam [] = [team] := by
  induction teams with
  | nil => exact absurd rfl hne
  | cons first rest ih =>
    rw [List.foldr_cons, hall first List.mem_cons_self]
    cases rest with
    | nil => rfl
    | cons second rest =>
      rw [ih (List.cons_ne_nil _ _) fun other hother => hall other (List.mem_cons_of_mem _ hother)]
      simp [insertTeam]

/-- A team lives alone if somebody lives and everybody who lives is of that team. -/
theorem livingTeams_eq_singleton :
    w.livingTeams = [team] ↔
      (∃ p ∈ w.pieces, p.alive = true) ∧ ∀ p ∈ w.pieces, p.alive = true → p.team = team := by
  constructor
  · intro hteams
    have hmem : team ∈ w.livingTeams := by simp [hteams]
    obtain ⟨p, hp, halive, -⟩ := mem_livingTeams.mp hmem
    refine ⟨⟨p, hp, halive⟩, ?_⟩
    intro q hq halive
    have hmem : q.team ∈ w.livingTeams := mem_livingTeams.mpr ⟨q, hq, halive, rfl⟩
    rw [hteams] at hmem
    exact List.mem_singleton.mp hmem
  · rintro ⟨⟨p, hp, halive⟩, hall⟩
    refine foldr_insertTeam ?_ ?_
    · exact List.ne_nil_of_mem (List.mem_map.mpr ⟨p, List.mem_filter.mpr ⟨hp, halive⟩, rfl⟩)
    · intro other hother
      obtain ⟨q, hq, rfl⟩ := List.mem_map.mp hother
      obtain ⟨hq, halive⟩ := List.mem_filter.mp hq
      exact hall q hq halive

/-! ## Survivors -/

/-- Somebody is active. -/
def Stands (w : World) : Prop :=
  ∃ p ∈ w.pieces, p.isActive = true

theorem stands_of_isActive (h : w.isActive id = true) : w.Stands := by
  obtain ⟨p, hpiece, hactive⟩ := exists_of_isActive h
  exact ⟨p, mem_of_piece? hpiece, hactive⟩

theorem Stands.exists_alive (h : w.Stands) : ∃ p ∈ w.pieces, p.alive = true := by
  obtain ⟨p, hp, hactive⟩ := h
  exact ⟨p, hp, (Bool.and_eq_true_iff.mp hactive).1⟩

/-- Whoever has taken a turn is active: its shot went at somebody else. -/
theorem Turn.stands (h : w.Turn id piece w' events) (hw : w.Distinct)
    (hpiece : w.piece? id = some piece) (hactive : piece.isActive = true) : w'.Stands := by
  have hbefore : w.isActive id = true := by simp [isActive, hpiece, hactive]
  have hnone : events.countP (·.downs id) = 0 := by
    rcases h.record hw hpiece with rfl | ⟨r, rfl, rfl, htells⟩
    · rfl
    · rw [r.countP_downs, if_neg]
      exact htells.downed?_ne
  have hspends : events.countP (·.downs id) + (w'.isActive id).toNat = (w.isActive id).toNat :=
    h.spends_active hw hpiece id
  rw [hnone, hbefore, Nat.zero_add] at hspends
  exact stands_of_isActive (Bool.toNat_eq_one.mp hspends)

/-- Whoever is active when a round ends is active when it has ended. -/
theorem Stands.finishRound (h : w.Stands) (hw : w.Distinct) : w.finishRound.1.Stands := by
  obtain ⟨p, hp, hactive⟩ := h
  have hbefore : w.isActive p.id = true := by simp [isActive, hw.piece?_eq hp, hactive]
  have hspends : w.finishRound.2.countP (·.downs p.id) + (w.finishRound.1.isActive p.id).toNat =
      (w.isActive p.id).toNat := spends_active_finishRound hw p.id
  have hnone : w.finishRound.2.countP (·.downs p.id) = 0 := by
    rw [finishRound_eq w []]
    exact RoundRecord.countP_downs _ p.id
  rw [hnone, hbefore, Nat.zero_add] at hspends
  exact stands_of_isActive (Bool.toNat_eq_one.mp hspends)

/-- Teams only shrink: a team that lives alone lives alone as long as somebody
stands. -/
theorem Accounts.livingTeams {teamOf : PieceId → Option Team} (h : w.Accounts teamOf events w')
    (hteams : w.livingTeams = [team]) (hstands : w'.Stands) : w'.livingTeams = [team] := by
  obtain ⟨-, hall⟩ := livingTeams_eq_singleton.mp hteams
  refine livingTeams_eq_singleton.mpr ⟨hstands.exists_alive, ?_⟩
  intro p' hp' halive
  obtain ⟨p, hp, hcounts⟩ := h.pieces p' hp'
  rw [hcounts.team]
  refine hall p hp ?_
  have hdestroyed := hcounts.destroyed
  rw [halive] at hdestroyed
  simpa using (Bool.or_eq_false_iff.mp hdestroyed.symm).1

/-! ## Verdicts -/

/-- The match goes on and nobody was told to have won, or one team was, and lives
alone. -/
def Judged (w : World) (log : List Event) : Prop :=
  log.filterMap (·.verdict?) = [] ∧ w.concluded = false ∨
    ∃ team, log.filterMap (·.verdict?) = [some team] ∧ w.concluded = true ∧
      w.livingTeams = [team]

/-- A turn leaves a verdict as it is. -/
theorem Judged.turn (h : w.Judged log) (hw : w.Distinct) (hpiece : w.piece? id = some piece)
    (hactive : piece.isActive = true) (hturn : w.Turn id piece w' events) :
    w'.Judged (log ++ events) := by
  have hstands := hturn.stands hw hpiece hactive
  have haccounts := hturn.accounts hw hw.teamed hpiece
  have hnone := Event.filterMap_verdict? (hturn.countP_concludes hw hpiece)
  have hconcluded : w'.concluded = w.concluded := by
    obtain ⟨_, _, _, rfl⟩ := hturn.frame
    rfl
  unfold Judged
  rw [List.filterMap_append, hnone, List.append_nil, hconcluded]
  rcases h with hgoesOn | ⟨team, hverdict, hover, hteams⟩
  · exact Or.inl hgoesOn
  · exact Or.inr ⟨team, hverdict, hover, haccounts.livingTeams hteams hstands⟩

/-- The end of a round gives a verdict if one team lives alone, and leaves one that
was given as it is. -/
theorem Judged.finishRound (h : w.Judged log) (hw : w.Distinct) (hstands : w.Stands) :
    w.finishRound.1.Judged (log ++ w.finishRound.2) := by
  have hstands' := hstands.finishRound hw
  have hverdict : w.finishRound.2.filterMap (·.verdict?) = w.closeRound.verdict?.toList := by
    rw [finishRound_eq w []]
    exact RoundRecord.filterMap_verdict? _
  have hconcluded : w.finishRound.1.concluded =
      (w.concluded || w.closeRound.verdict?.isSome) := by
    rw [finishRound_eq w []]
  have hteams : w.finishRound.1.livingTeams = w.closeRound.livingTeams := by
    rw [finishRound_eq w []]
    rfl
  unfold Judged
  rw [List.filterMap_append, hverdict, hconcluded]
  rcases h with ⟨hlog, hopen⟩ | ⟨team, hlog, hover, hteam⟩
  · have hstill : w.closeRound.concluded = false := hopen
    rw [hlog, hopen, List.nil_append, Bool.false_or]
    unfold verdict?
    rw [hstill]
    -- Somebody stands, so at least one team lives.
    rcases hliving : w.closeRound.livingTeams with _ | ⟨team, _ | ⟨other, rest⟩⟩
    · obtain ⟨p, hp, halive⟩ := hstands'.exists_alive
      have hmem := mem_livingTeams.mpr ⟨p, hp, halive, rfl⟩
      rw [hteams, hliving] at hmem
      cases hmem
    · exact Or.inr ⟨team, rfl, rfl, hteams.trans hliving⟩
    · exact Or.inl ⟨rfl, rfl⟩
  · have hnone : w.closeRound.verdict? = none := if_pos hover
    rw [hlog, hnone, hover]
    have haccounts : w.Accounts (fun _ => none) w.finishRound.2 w.finishRound.1 :=
      accounts_finishRound hw
    exact Or.inr ⟨team, rfl, rfl, haccounts.livingTeams hteam hstands'⟩

/-- Along a match somebody stays active, and a verdict stays right. -/
theorem Course.judged (h : w.Course w' events) (hw : w.Distinct) (hstands : w.Stands)
    (hjudged : w.Judged log) : w'.Stands ∧ w'.Judged (log ++ events) := by
  induction h with
  | start =>
    rw [List.append_nil]
    exact ⟨hstands, hjudged⟩
  | turn hcourse hpiece hactive hturn ih =>
    have hw' := (hcourse.tracks hw).1
    rw [← List.append_assoc]
    exact ⟨hturn.stands hw' hpiece hactive, ih.2.turn hw' hpiece hactive hturn⟩
  | round hcourse ih =>
    have hw' := (hcourse.tracks hw).1
    rw [← List.append_assoc]
    exact ⟨ih.1.finishRound hw', ih.2.finishRound hw' ih.1⟩

end World

/-! ## Matches -/

namespace Match

/-- Somebody is active and stays so whoever takes turns from here; nobody was told
to have won, or one team was, and lives alone; and however the match is played on,
its score says what was told. -/
structure Decided (log : List Event) (m : Match) : Prop where
  stands : ∀ ids m' t', m.takeTurns ids = .ok (m', t') → ∃ p ∈ m'.world.pieces, p.isActive = true
  verdict : log.filterMap (·.verdict?) = [] ∨
    ∃ team, log.filterMap (·.verdict?) = [some team] ∧ m.world.livingTeams = [team]
  score : ∀ n score m' t', m.play n = .ok (score, m', t') →
    (log ++ t'.events).filterMap (·.verdict?) = [] ∧
        score.concluded = false ∧ score.winner = none ∨
      ∃ team, (log ++ t'.events).filterMap (·.verdict?) = [some team] ∧
        score.concluded = true ∧ score.winner = some team

/-- A match in which somebody was put on the board never wipes everybody out, and
its winner is final, whatever the scripts do and however it is called to go on. -/
theorem decided_of_callAll {s : Setup} {m m' : Match} {t t' : Transcript} {id : PieceId}
    {team : Team} {position : Coord} (hstart : ofSetup s = .ok (m, t))
    (hspawned : .pieceSpawned id team position ∈ t.events) (roster : Roster) {calls : List Call}
    (hcalls : { m with roster := roster }.callAll calls = .ok (m', t')) :
    m'.Decided (t.events ++ t'.events) := by
  have hassembled := ofSetup_assembled hstart
  have hdistinct := (World.Tidy.assembled hassembled).1.distinct
  have hcourse := callAll_course hcalls
  have hcourse : m.world.Course m'.world t'.events := hcourse
  have hstands : m.world.Stands := by
    have hid : id ∈ m.world.pieces.map (·.id) := by
      rw [hassembled.ids]
      exact List.mem_filterMap.mpr ⟨_, hspawned, rfl⟩
    have hfresh : ∀ p ∈ m.world.pieces, p.isActive = true :=
      hassembled.forall_pieces fun _ _ => rfl
    obtain ⟨p, hp, -⟩ := List.mem_map.mp hid
    exact ⟨p, hp, hfresh p hp⟩
  have hjudged : m.world.Judged t.events := by
    have hcount : t.events.countP Event.concludes = 0 :=
      hassembled.countP_eq_zero (fun _ => rfl) (fun _ _ _ => rfl) fun _ _ => rfl
    exact Or.inl ⟨Event.filterMap_verdict? hcount, hassembled.unplayed.2⟩
  obtain ⟨hstands', hjudged'⟩ := hcourse.judged hdistinct hstands hjudged
  have hdistinct' := (hcourse.tracks hdistinct).1
  refine ⟨?_, ?_, ?_⟩
  · intro ids m'' t'' hturns
    exact ((takeTurns_course hturns).judged hdistinct' hstands' hjudged').1
  · rcases hjudged' with ⟨hnone, -⟩ | ⟨team, hverdict, -, hteams⟩
    · exact Or.inl hnone
    · exact Or.inr ⟨team, hverdict, hteams⟩
  · intro n score m'' t'' hplay
    obtain ⟨played, hplayed, rfl⟩ := play_eq_ok hplay
    rcases ((playRounds_course hplayed).judged hdistinct' hstands' hjudged').2 with
      ⟨hnone, hopen⟩ | ⟨team, hverdict, hover, hteams⟩
    · exact Or.inl ⟨hnone, hopen, by simp [winner?, hopen]⟩
    · exact Or.inr ⟨team, hverdict, hover, by simp [winner?, hover, hteams]⟩

theorem decided_of_callAll_ambush :
    ∃ m t m' t', ofSetup ambush = .ok (m, t) ∧ m.callAll ambushCalls = .ok (m', t') ∧
      t'.events.filterMap (·.verdict?) = [some ⟨"red"⟩] ∧
      m'.Decided (t.events ++ t'.events) := by
  obtain ⟨m, t, m', t', hstart, hcalls, hspawned, hevents⟩ := exists_ambush
  refine ⟨m, t, m', t', hstart, hcalls, ?_, decided_of_callAll hstart hspawned m.roster hcalls⟩
  rw [hevents]
  rfl

end Match

end HexArena
