import HexArena.Proofs.Match.Record

/-!
# The protocol of a match

The order of the turns is fixed when a round starts, but who is downed in the
round does not take its turn any more, and a script may break off or do anything
it likes with its one shot.  Whatever happens, the events of a match come in a
fixed form, round by round and turn by turn.

Main results:

- Definition {lit}`Match.TakesTurns`: pieces take the turns that are told, each in
  its place.
- Definitions {lit}`Match.PlaysRound` and {lit}`Match.Plays`: a round and a match go
  as they are told.
- Definition {lit}`Match.FollowsProtocol`: the events of a match are of the fixed
  form.
- Theorem {lit}`Match.callAll_followsProtocol`: those of every match are.
-/

namespace HexArena

/-! ## Worlds -/

namespace World

variable {w w' : World} {events : List Event}

/-- Nobody who is downed is alive. -/
def Calm (w : World) : Prop :=
  ∀ x, w.isAlive x = w.isActive x

theorem calm_of_pieces (h : ∀ p ∈ w.pieces, p.alive = p.isActive) : w.Calm := by
  intro x
  unfold isAlive isActive
  cases hpiece : w.piece? x with
  | none => rfl
  | some p => exact h p (mem_of_piece? hpiece)

/-- The end of a round leaves nobody alive who is downed. -/
theorem calm_finishRound (w : World) : w.finishRound.1.Calm := by
  refine calm_of_pieces ?_
  intro p' hp'
  obtain ⟨p, -, rfl⟩ := mem_finishRound hp'
  show p.isActive = (p.isActive && !p.deathFlag)
  unfold Piece.isActive
  cases p.alive <;> cases p.deathFlag <;> rfl

/-- Those who are destroyed when a round ends are alive and downed. -/
theorem mem_dying (hw : w.Distinct) {x : PieceId} :
    x ∈ (w.pieces.filter (·.isDying)).map (·.id) ↔ w.isAlive x = true ∧ w.isActive x = false := by
  have hdying : ∀ p : Piece, p.isDying = true ↔ p.alive = true ∧ p.isActive = false := by
    intro p
    unfold Piece.isDying Piece.isActive
    cases p.alive <;> cases p.deathFlag <;> simp
  constructor
  · intro hx
    obtain ⟨p, hp, rfl⟩ := List.mem_map.mp hx
    obtain ⟨hmem, hp⟩ := List.mem_filter.mp hp
    unfold isAlive isActive
    rw [hw.piece?_eq hmem]
    exact (hdying p).mp hp
  · unfold isAlive isActive
    cases hpiece : w.piece? x with
    | none => simp
    | some p =>
      intro hx
      have hmem := List.mem_filter.mpr ⟨mem_of_piece? hpiece, (hdying p).mpr hx⟩
      exact List.mem_map.mpr ⟨p, hmem, id_of_piece? hpiece⟩

/-- Of a world in which the downed are dead, those who are downed in a round are
destroyed when it ends. -/
theorem mem_dying_iff (hcalm : w.Calm) (hw' : w'.Distinct) {x : PieceId}
    (hactive : Spends (·.isActive x) (·.downs x) w events w')
    (halive : Spends (·.isAlive x) (·.destroys x) w events w')
    (hnone : events.countP (·.destroys x) = 0) :
    x ∈ (w'.pieces.filter (·.isDying)).map (·.id) ↔ events.any (·.downs x) = true := by
  have hany : events.any (·.downs x) = true ↔ 0 < events.countP (·.downs x) := by
    rw [List.any_eq_true, List.countP_pos_iff]
  have hactive : events.countP (·.downs x) + (w'.isActive x).toNat = (w.isActive x).toNat := hactive
  have halive : (w'.isAlive x).toNat = (w.isActive x).toNat := by
    rw [← hcalm x, ← halive, hnone, Nat.zero_add]
  have hle := Bool.toNat_le (w.isActive x)
  rw [mem_dying hw', hany, ← Bool.toNat_eq_one, ← Bool.toNat_eq_zero, halive]
  constructor
  · rintro ⟨hbefore, hafter⟩
    omega
  · intro hpos
    exact ⟨by omega, by omega⟩

/-- No turn starts after its piece was downed. -/
theorem Course.silent (h : w.Course w' events) (hw : w.Distinct) :
    events.Pairwise fun e e' => ∀ x, e.downs x = true → e'.starts x = false := by
  induction h with
  | start => exact .nil
  | @turn w' w'' events turn id piece hcourse hpiece hactive hturn ih =>
    rcases hturn.record (hcourse.tracks hw).1 hpiece with rfl | ⟨r, rfl, rfl, -⟩
    · rw [List.append_nil]
      exact ih
    · have hlater : ∀ e' ∈ r.ending.events r.piece, ∀ x, e'.starts x = false := by
        intro e' he' x
        exact eq_false_of_ne_true (List.countP_eq_zero.mp (r.ending.countP_starts r.piece x) e' he')
      refine List.pairwise_append.mpr ⟨ih, ?_, ?_⟩
      · refine List.pairwise_cons.mpr ⟨nofun, ?_⟩
        exact List.pairwise_of_forall_mem_list fun e _ e' he' x _ => hlater e' he' x
      · -- The piece acts in this turn, so it was not downed before.
        intro e he e' he' x hdowns
        rcases List.mem_cons.mp he' with rfl | he'
        · refine decide_eq_false ?_
          rintro rfl
          have hgone := (hcourse.spends_active hw r.piece).eq_false he hdowns
          have hstands : w'.isActive r.piece = true := by
            simp [isActive, hpiece, hactive]
          rw [hstands] at hgone
          cases hgone
        · exact hlater e' he' x
  | @round w' events hcourse ih =>
    have hlater : ∀ e' ∈ w'.finishRound.2, ∀ x, e'.starts x = false := by
      intro e' he' x
      rw [finishRound_eq w' []] at he'
      exact eq_false_of_ne_true (List.countP_eq_zero.mp (RoundRecord.countP_starts _ x) e' he')
    refine List.pairwise_append.mpr ⟨ih, ?_, ?_⟩
    · exact List.pairwise_of_forall_mem_list fun e _ e' he' x _ => hlater e' he' x
    · exact fun e _ e' he' x _ => hlater e' he' x

end World

/-! ## Turns -/

namespace Match

variable {m m' : Match} {id : PieceId} {t : Transcript}

/-- The piece is enlisted and active. -/
def Acts (m : Match) (id : PieceId) : Prop :=
  (m.roster.find? id).isSome = true ∧ m.world.isActive id = true

/-- Pieces take the turns that are told, in order: whoever acts when its place
comes, and nobody else. -/
inductive TakesTurns : Match → List PieceId → List TurnRecord → Match → Prop
  | done (m : Match) : TakesTurns m [] [] m
  | taken {m mid m' : Match} {ids : List PieceId} {r : TurnRecord} {later : List TurnRecord}
    {t : Transcript} (hacts : m.Acts r.piece) (hturn : m.takeTurn r.piece = .ok (mid, t))
    (hevents : t.events = r.events) (htells : r.Tells m.world mid.world)
    (hrest : TakesTurns mid ids later m') : TakesTurns m (r.piece :: ids) (r :: later) m'
  | passed {m m' : Match} {id : PieceId} {ids : List PieceId} {turns : List TurnRecord}
    (hpasses : ¬ m.Acts id) (hrest : TakesTurns m ids turns m') : TakesTurns m (id :: ids) turns m'

/-- The turns are taken in order. -/
theorem TakesTurns.sublist {ids : List PieceId} {turns : List TurnRecord}
    (h : TakesTurns m ids turns m') : (turns.map (·.piece)).Sublist ids := by
  induction h with
  | done => exact .slnil
  | taken _ _ _ _ _ ih => exact ih.cons_cons _
  | passed _ _ ih => exact ih.cons _

/-- Turns do not count rounds. -/
theorem TakesTurns.round {ids : List PieceId} {turns : List TurnRecord}
    (h : TakesTurns m ids turns m') : m'.world.round = m.world.round := by
  induction h with
  | done => rfl
  | taken hacts hturn _ _ _ ih =>
    obtain ⟨piece, hpiece, hactive⟩ := World.exists_of_isActive hacts.2
    obtain ⟨_, _, _, hframe⟩ := (takeTurn_turn hpiece hactive hturn).frame
    rw [ih, hframe]
  | passed _ _ ih => exact ih

/-- The turn of an active piece is told by a record if the piece is enlisted, and
nothing happens if it is not. -/
theorem takeTurn_told (hw : m.world.Distinct) (hactive : m.world.isActive id = true)
    (h : m.takeTurn id = .ok (m', t)) :
    ¬ m.Acts id ∧ m' = m ∧ t.events = [] ∨
      m.Acts id ∧ ∃ r : TurnRecord, r.piece = id ∧ t.events = r.events ∧
        r.Tells m.world m'.world := by
  cases hentrant : m.roster.find? id with
  | none =>
    unfold takeTurn at h
    rw [hentrant] at h
    cases h
    refine Or.inl ⟨?_, rfl, rfl⟩
    rintro ⟨henlisted, -⟩
    rw [hentrant] at henlisted
    cases henlisted
  | some entrant =>
    have hacts : m.Acts id := ⟨by rw [hentrant]; rfl, hactive⟩
    obtain ⟨piece, hpiece, hactive⟩ := World.exists_of_isActive hactive
    rcases (takeTurn_turn hpiece hactive h).record hw hpiece with hnone | ⟨r, hr, hevents, htells⟩
    · -- The start of the turn is told, so the piece is not passed over in silence.
      rw [takeTurn_of_active hpiece hactive hentrant] at h
      let begun : Match := { m with world := m.world.begun id piece }
      cases hscript : begun.runScript entrant piece.beginTurn with
      | error cause =>
        rw [hscript] at h
        cases h
      | ok result =>
        rw [hscript] at h
        cases h
        cases hnone
    · exact Or.inr ⟨hacts, r, hr, hevents.symm, htells⟩

/-- Pieces that were active when their round started take their turns as they are
told, and all others are passed over. -/
theorem takeTurns_told {start : World} {ids : List PieceId} (hw : m.world.Distinct)
    (hactive : ∀ x, m.world.isActive x = true → start.isActive x = true)
    (h : m.takeTurns (ids.filter start.isActive) = .ok (m', t)) :
    ∃ turns, TakesTurns m ids turns m' ∧ t.events = turns.flatMap (·.events) := by
  induction ids generalizing m t with
  | nil =>
    cases h
    exact ⟨[], .done _, rfl⟩
  | cons id rest ih =>
    have hpasses : m.world.isActive id = false → ¬ m.Acts id := by
      rintro hidle ⟨-, hacts⟩
      rw [hidle] at hacts
      cases hacts
    by_cases hstart : start.isActive id = true
    · rw [List.filter_cons_of_pos hstart] at h
      unfold takeTurns at h
      split at h
      · rename_i hact
        obtain ⟨⟨mid, turn⟩, hturn, hrest⟩ := bind_eq_ok.mp h
        obtain ⟨⟨final, later⟩, hlater, hdone⟩ := bind_eq_ok.mp hrest
        cases hdone
        obtain ⟨piece, hpiece, hactive'⟩ := World.exists_of_isActive hact
        have hturn' := takeTurn_turn hpiece hactive' hturn
        obtain ⟨_, _, -, hled, -⟩ := hturn'.led hw hpiece
        obtain ⟨turns, htakes, hevents⟩ := ih (hled.distinct hw)
          (fun x hx => hactive x ((hturn'.spends_active hw hpiece x).held hx)) hlater
        rw [Transcript.events_append, hevents]
        rcases takeTurn_told hw hact hturn with ⟨hnot, rfl, hnone⟩ | ⟨hacts, r, rfl, htold, htells⟩
        · rw [hnone]
          exact ⟨turns, .passed hnot htakes, rfl⟩
        · rw [htold]
          exact ⟨r :: turns, .taken hacts hturn htold htells htakes, rfl⟩
      · rename_i hidle
        obtain ⟨turns, htakes, hevents⟩ := ih hw hactive h
        exact ⟨turns, .passed (hpasses (eq_false_of_ne_true hidle)) htakes, hevents⟩
    · rw [List.filter_cons_of_neg hstart] at h
      obtain ⟨turns, htakes, hevents⟩ := ih hw hactive h
      exact ⟨turns, .passed (hpasses (eq_false_of_ne_true fun hx => hstart (hactive id hx))) htakes,
        hevents⟩

/-! ## Rounds -/

/-- A round goes as it is told: the pieces take their turns in the order in which
they were put on the board, and those who were downed in the round are destroyed
when it ends. -/
structure PlaysRound (order : List PieceId) (m : Match) (r : RoundRecord) (m' : Match) : Prop where
  played : ∃ t, m.playRound = .ok (m', t) ∧ t.events = r.events
  turns : ∃ mid, TakesTurns m order r.turns mid ∧
    m' = { mid with world := mid.world.finishRound.1 }
  nodup : (r.turns.map (·.piece)).Nodup
  destroyed : ∀ x, x ∈ r.destroyed ↔ (r.turns.flatMap (·.events)).any (·.downs x) = true
  number : r.number = addCount m.world.round 1
  round : m'.world.round = r.number

/-- The active pieces are those of all pieces that are active. -/
theorem turnOrder_eq {w : World} (hw : w.Distinct) :
    w.turnOrder = (w.pieces.map (·.id)).filter w.isActive := by
  unfold World.turnOrder
  rw [List.filter_map]
  refine congrArg _ (List.filter_congr ?_)
  intro p hp
  show p.isActive = (w.piece? p.id).any (·.isActive)
  rw [hw.piece?_eq hp]
  rfl

/-- Turns neither count rounds nor destroy anybody. -/
theorem countP_turns {tells : Event → Bool} (turns : List TurnRecord)
    (hnone : ∀ r : TurnRecord, r.events.countP tells = 0) :
    (turns.flatMap (·.events)).countP tells = 0 := by
  induction turns with
  | nil => rfl
  | cons r rest ih => rw [List.flatMap_cons, List.countP_append, hnone, ih]

/-- A round is its turns and its end. -/
theorem playRound_eq_ok (h : m.playRound = .ok (m', t)) :
    ∃ mid turns, m.takeTurns m.world.turnOrder = .ok (mid, turns) ∧
      m' = { mid with world := mid.world.finishRound.1 } ∧
      t = turns ++ .ofEvents mid.world.finishRound.2 := by
  unfold playRound at h
  obtain ⟨⟨mid, turns⟩, hturns, hrest⟩ := bind_eq_ok.mp h
  obtain ⟨⟨world, finished⟩, hfinish, hdone⟩ := bind_eq_ok.mp hrest
  cases hdone
  cases hfinish
  exact ⟨mid, turns, hturns, rfl, rfl⟩

/-- A round that starts when nobody is dying is told by a record. -/
theorem playRound_told (hw : m.world.Distinct) (hcalm : m.world.Calm)
    (h : m.playRound = .ok (m', t)) :
    ∃ r, m.PlaysRound (m.world.pieces.map (·.id)) r m' ∧ t.events = r.events := by
  obtain ⟨mid, turns, hturns, rfl, rfl⟩ := playRound_eq_ok h
  have hcourse := takeTurns_course hturns
  have hmid := (hcourse.tracks hw).1
  rw [turnOrder_eq hw] at hturns
  obtain ⟨records, htakes, hevents⟩ := takeTurns_told hw (fun _ hx => hx) hturns
  have hclosing := World.finishRound_eq mid.world records
  have htold : (turns ++ Transcript.ofEvents mid.world.finishRound.2).events =
      (mid.world.closingRecord records).events := by
    rw [Transcript.events_append, hevents, hclosing]
    rfl
  refine ⟨mid.world.closingRecord records, ⟨⟨_, h, htold⟩, ⟨mid, htakes, rfl⟩, ?_, ?_, ?_, ?_⟩,
    htold⟩
  · exact hw.sublist htakes.sublist
  · intro x
    have hnone := countP_turns records fun r => r.countP_destroys x
    show x ∈ (mid.world.pieces.filter (·.isDying)).map (·.id) ↔
      (records.flatMap (·.events)).any (·.downs x) = true
    rw [← hevents] at hnone ⊢
    exact World.mem_dying_iff hcalm hmid (hcourse.spends_active hw x) (hcourse.spends_alive hw x)
      hnone
  · show addCount mid.world.round 1 = addCount m.world.round 1
    rw [htakes.round]
  · rw [hclosing]
    rfl

/-! ## Matches -/

/-- A match goes as it is told, round by round; in between pieces may be
enlisted. -/
inductive Plays (order : List PieceId) : Match → List RoundRecord → Match → Prop
  | done (m : Match) : Plays order m [] m
  | round {m mid m' : Match} {r : RoundRecord} {later : List RoundRecord}
    (hround : m.PlaysRound order r mid) (hrest : Plays order mid later m') :
    Plays order m (r :: later) m'
  | enlisted {m m' : Match} {rounds : List RoundRecord} (piece : PieceId) (script : String)
    (limits : Script.Limits)
    (hrest : Plays order { m with roster := m.roster.enlist piece script limits } rounds m') :
    Plays order m rounds m'

namespace Plays

variable {order : List PieceId} {m'' : Match} {rounds later : List RoundRecord}

theorem trans (h : Plays order m rounds m') (h' : Plays order m' later m'') :
    Plays order m (rounds ++ later) m'' := by
  induction h with
  | done => exact h'
  | round hround _ ih => exact .round hround (ih h')
  | enlisted piece script limits _ ih => exact .enlisted piece script limits (ih h')

/-- The rounds are numbered in order, as far as the counter goes. -/
theorem numbers (h : Plays order m rounds m') {k : Nat} (hk : m.world.round = min k maxCount) :
    rounds.map (·.number) = (List.range' (k + 1) rounds.length).map (min · maxCount) := by
  induction h generalizing k with
  | done => rfl
  | @round m mid m' r later hround _ ih =>
    have hnumber : r.number = min (k + 1) maxCount := by
      rw [hround.number, hk, addCount]
      omega
    rw [List.map_cons, List.length_cons, List.range'_succ, List.map_cons,
      ih (hround.round.trans hnumber), hnumber]
  | enlisted _ _ _ _ ih => exact ih hk

end Plays

/-- What is asked of a match when a round starts, and holds again when it has
ended. -/
structure Ready (order : List PieceId) (m : Match) : Prop where
  distinct : m.world.Distinct
  calm : m.world.Calm
  ids : m.world.pieces.map (·.id) = order

variable {order : List PieceId}

theorem Ready.playRound (h : m.Ready order) (hround : m.playRound = .ok (m', t)) :
    m'.Ready order ∧ ∃ r, m.PlaysRound order r m' ∧ t.events = r.events := by
  obtain ⟨r, hplays, hevents⟩ := playRound_told h.distinct h.calm hround
  rw [h.ids] at hplays
  obtain ⟨hids, -, -⟩ := (playRound_course hround).accounts h.distinct h.distinct.teamed
  refine ⟨⟨h.distinct.of_ids hids, ?_, hids.trans h.ids⟩, r, hplays, hevents⟩
  obtain ⟨mid, turns, -, rfl, -⟩ := playRound_eq_ok hround
  exact World.calm_finishRound mid.world

theorem Ready.playRounds {n played : Nat} (h : m.Ready order)
    (hrounds : m.playRounds n = .ok (played, m', t)) :
    m'.Ready order ∧ ∃ rounds, Plays order m rounds m' ∧ t.events = rounds.flatMap (·.events) := by
  induction n generalizing m played t with
  | zero =>
    cases hrounds
    exact ⟨h, [], .done _, rfl⟩
  | succ n ih =>
    unfold Match.playRounds at hrounds
    split at hrounds
    · cases hrounds
      exact ⟨h, [], .done _, rfl⟩
    · obtain ⟨⟨mid, first⟩, hfirst, hrest⟩ := bind_eq_ok.mp hrounds
      obtain ⟨⟨count, final, later⟩, hlater, hdone⟩ := bind_eq_ok.mp hrest
      cases hdone
      obtain ⟨hmid, r, hround, hevents⟩ := h.playRound hfirst
      obtain ⟨hfinal, rounds, hplays, hevents'⟩ := ih hmid hlater
      refine ⟨hfinal, r :: rounds, .round hround hplays, ?_⟩
      rw [Transcript.events_append, hevents, hevents']
      rfl

theorem Ready.call {call : Call} (h : m.Ready order) (hcall : m.call call = .ok (m', t)) :
    m'.Ready order ∧ ∃ rounds, Plays order m rounds m' ∧ t.events = rounds.flatMap (·.events) := by
  cases call with
  | round =>
    obtain ⟨hready, r, hround, hevents⟩ := h.playRound hcall
    refine ⟨hready, [r], .round hround (.done _), ?_⟩
    rw [hevents, List.flatMap_singleton]
  | play n =>
    obtain ⟨score, hplay⟩ := call_play_eq_ok hcall
    obtain ⟨played, hplayed, -⟩ := play_eq_ok hplay
    exact h.playRounds hplayed
  | enlist piece script limits =>
    cases hcall
    exact ⟨⟨h.distinct, h.calm, h.ids⟩, [], .enlisted piece script limits (.done _), rfl⟩

theorem Ready.callAll {calls : List Call} (h : m.Ready order)
    (hcalls : m.callAll calls = .ok (m', t)) :
    ∃ rounds, Plays order m rounds m' ∧ t.events = rounds.flatMap (·.events) := by
  induction calls generalizing m t with
  | nil =>
    cases hcalls
    exact ⟨[], .done _, rfl⟩
  | cons first rest ih =>
    unfold Match.callAll at hcalls
    obtain ⟨⟨mid, done⟩, hfirst, hrest⟩ := bind_eq_ok.mp hcalls
    obtain ⟨⟨final, later⟩, hlater, hend⟩ := bind_eq_ok.mp hrest
    cases hend
    obtain ⟨hmid, rounds, hplays, hevents⟩ := h.call hfirst
    obtain ⟨rounds', hplays', hevents'⟩ := ih hmid hlater
    refine ⟨rounds ++ rounds', hplays.trans hplays', ?_⟩
    rw [Transcript.events_append, hevents, hevents', List.flatMap_append]

end Match

/-! ## Setups -/

/-- The piece that is put on the board. -/
def Event.spawned? : Event → Option PieceId
  | .pieceSpawned piece _ _ => some piece
  | _ => none

namespace World

variable {s : Setup} {w : World} {events : List Event}

/-- Nothing but spawns is told while a match is set up. -/
theorem Assembled.countP_eq_zero {tells : Event → Bool} (h : w.Assembled s events)
    (hconfigured : ∀ radius, tells (.boardConfigured radius) = false)
    (hspawned : ∀ piece team position, tells (.pieceSpawned piece team position) = false)
    (hrejected : ∀ piece reason, tells (.pieceSpawnRejected piece reason) = false) :
    events.countP tells = 0 := by
  induction h with
  | blank => simp [hconfigured]
  | spawned _ _ _ ih => simp [List.countP_append, ih, hspawned]
  | rejected _ _ _ ih => simp [List.countP_append, ih, hrejected]

/-- The pieces are those that were put on the board, in order. -/
theorem Assembled.ids (h : w.Assembled s events) :
    w.pieces.map (·.id) = events.filterMap (·.spawned?) := by
  induction h with
  | blank => rfl
  | spawned _ _ hspawn ih =>
    obtain ⟨-, -, -, mailboxes, rfl⟩ := spawn_eq_ok hspawn
    rw [List.filterMap_append, ← ih, List.map_append]
    rfl
  | rejected _ _ _ ih =>
    rw [List.filterMap_append, ← ih]
    exact (List.append_nil _).symm

/-- A match is set up before its first round and is not concluded. -/
theorem Assembled.unplayed (h : w.Assembled s events) : w.round = 0 ∧ w.concluded = false := by
  induction h with
  | blank => exact ⟨rfl, rfl⟩
  | spawned _ _ hspawn ih =>
    obtain ⟨-, -, -, mailboxes, rfl⟩ := spawn_eq_ok hspawn
    exact ih
  | rejected _ _ _ ih => exact ih

end World

namespace Match

/-- The events of a match are of the fixed form: {lit}`setup` are those of its
setup, {lit}`play` those of its rounds. -/
structure FollowsProtocol (setup : List Event) (m : Match) (rounds : List RoundRecord)
    (play : List Event) (m' : Match) : Prop where
  events : play = rounds.flatMap (·.events)
  /-- The rounds go as they are told, in the order the pieces were put on the
  board. -/
  plays : Plays (setup.filterMap (·.spawned?)) m rounds m'
  numbers : rounds.map (·.number) = (List.range' 1 rounds.length).map (min · maxCount)
  silent : (setup ++ play).Pairwise fun e e' => ∀ x, e.downs x = true → e'.starts x = false
  downed : ∀ x, (setup ++ play).countP (·.downs x) ≤ 1
  destroyed : ∀ x, (setup ++ play).countP (·.destroys x) ≤ 1
  concluded : (setup ++ play).countP (·.concludes) ≤ 1

/-- The events of every match are of the fixed form, whatever scripts are enlisted
for its pieces and however it is called to go on. -/
theorem callAll_followsProtocol {s : Setup} {m m' : Match} {t t' : Transcript}
    (hstart : ofSetup s = .ok (m, t)) (roster : Roster) {calls : List Call}
    (hcalls : { m with roster := roster }.callAll calls = .ok (m', t')) :
    ∃ rounds, FollowsProtocol t.events { m with roster := roster } rounds t'.events m' := by
  have hassembled := ofSetup_assembled hstart
  have hdistinct := (World.Tidy.assembled hassembled).1.distinct
  have hcourse := callAll_course hcalls
  have hcourse : m.world.Course m'.world t'.events := hcourse
  have hcalm : m.world.Calm :=
    World.calm_of_pieces (hassembled.forall_pieces fun _ _ => rfl)
  have hready : { m with roster := roster }.Ready (t.events.filterMap Event.spawned?) :=
    ⟨hdistinct, hcalm, hassembled.ids⟩
  obtain ⟨rounds, hplays, hevents⟩ := hready.callAll hcalls
  -- The setup tells of no turn, no death and no conclusion.
  have hsetup : ∀ {tells : Event → Bool}, (∀ radius, tells (.boardConfigured radius) = false) →
      (∀ piece team position, tells (.pieceSpawned piece team position) = false) →
      (∀ piece reason, tells (.pieceSpawnRejected piece reason) = false) →
      (t.events ++ t'.events).countP tells = t'.events.countP tells := by
    intro tells hconfigured hspawned hrejected
    rw [List.countP_append, hassembled.countP_eq_zero hconfigured hspawned hrejected, Nat.zero_add]
  refine ⟨rounds, hevents, hplays, hplays.numbers (k := 0) hassembled.unplayed.1, ?_, ?_, ?_, ?_⟩
  · have hquiet : ∀ e ∈ t.events, ∀ x, e.downs x ≠ true := by
      intro e he x
      exact List.countP_eq_zero.mp
        (hassembled.countP_eq_zero (fun _ => rfl) (fun _ _ _ => rfl) fun _ _ => rfl) e he
    refine List.pairwise_append.mpr ⟨?_, hcourse.silent hdistinct, ?_⟩
    · exact List.pairwise_of_forall_mem_list fun e he _ _ x hdowns => absurd hdowns (hquiet e he x)
    · exact fun e he _ _ x hdowns => absurd hdowns (hquiet e he x)
  · intro x
    rw [hsetup (fun _ => rfl) (fun _ _ _ => rfl) fun _ _ => rfl]
    exact (hcourse.spends_active hdistinct x).le_one
  · intro x
    rw [hsetup (fun _ => rfl) (fun _ _ _ => rfl) fun _ _ => rfl]
    exact (hcourse.spends_alive hdistinct x).le_one
  · rw [hsetup (fun _ => rfl) (fun _ _ _ => rfl) fun _ _ => rfl]
    exact (hcourse.spends_open hdistinct).le_one

/-- The ambush, and a round that the sniper spends on a script that faults. -/
def ambushCalls : List Call :=
  [.play 3, .enlist .ada "drop" .default, .round]

/-- The events of the ambush after its setup. -/
def ambushEvents : List Event :=
  [.turnStarted .bob 1, .pieceMoved .bob ⟨4, 0, 0⟩ ⟨3, 0, 0⟩ 1, .turnEnded .bob,
    .turnStarted .ada 1, .shotResolved .ada .bob 2, .pieceDowned .bob .ada,
    .pieceMoved .ada ⟨0, 0, 0⟩ ⟨1, 0, 0⟩ 1, .turnEnded .ada, .pieceDestroyed .bob,
    .roundFinished 1, .matchConcluded (some ⟨"red"⟩), .turnStarted .ada 2,
    .turnFaulted .ada "`drop` failed: stack underflow", .roundFinished 2]

/-- The events of a setup, and those of the calls after it. -/
def eventsAfter (s : Setup) (calls : List Call) : Checked (List Event × List Event) := do
  let (m, t) ← ofSetup s
  let (_, t') ← m.callAll calls
  return (t.events, t'.events)

theorem exists_ambush :
    ∃ m t m' t', ofSetup ambush = .ok (m, t) ∧ m.callAll ambushCalls = .ok (m', t') ∧
      .pieceSpawned .ada ⟨"red"⟩ .origin ∈ t.events ∧ t'.events = ambushEvents := by
  have hevents : eventsAfter ambush ambushCalls =
      .ok ([.boardConfigured 4, .pieceSpawned .bob ⟨"blue"⟩ ⟨4, 0, 0⟩,
        .pieceSpawned .ada ⟨"red"⟩ .origin], ambushEvents) := by
    rfl
  obtain ⟨⟨m, t⟩, hstart, hrest⟩ := bind_eq_ok.mp hevents
  obtain ⟨⟨m', t'⟩, hcalls, hread⟩ := bind_eq_ok.mp hrest
  obtain ⟨hsetup, hplay⟩ := Prod.mk.inj (Except.ok.inj hread)
  exact ⟨m, t, m', t', hstart, hcalls, by simp [hsetup], hplay⟩

theorem callAll_followsProtocol_ambush :
    ∃ m t m' t' rounds, ofSetup ambush = .ok (m, t) ∧ m.callAll ambushCalls = .ok (m', t') ∧
      t'.events = ambushEvents ∧ FollowsProtocol t.events m rounds t'.events m' := by
  obtain ⟨m, t, m', t', hstart, hcalls, -, hevents⟩ := exists_ambush
  obtain ⟨rounds, hprotocol⟩ := callAll_followsProtocol hstart m.roster hcalls
  exact ⟨m, t, m', t', rounds, hstart, hcalls, hevents, hprotocol⟩

end Match

end HexArena
