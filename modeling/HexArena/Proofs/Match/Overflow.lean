import HexArena.File.MatchFile
import HexArena.Proofs.Match.Legal
import HexArena.Proofs.Script.Headroom
import Mathlib.Algebra.GroupWithZero.Nat

/-!
# Matches of match files do not overflow

A match file places its pieces near the board and limits the radius.  From there
a triple grows by the movement of a piece at most in every round, since a piece
takes one turn in a round, so it takes more than a hundred million rounds until
a computation with coordinates can overflow.

Main results:

- Theorem {lit}`World.Regular.headroom`: a machine has headroom throughout a turn.
- Theorem {lit}`Match.takeTurns_defined`: in a round every triple grows by the
  movement of a piece at most.
- Theorem {lit}`Match.callAll_defined`: rounds are played without overflow as long
  as there is headroom.
- Theorem {lit}`MatchFile.defined_of_resolve`: the match of a match file has
  headroom for a hundred million rounds.
-/

namespace HexArena

open Script Checked

/-! ## Stats -/

/-- The most spaces any kind of piece moves in a turn. -/
def Kind.maxMovement : Nat := 3

/-- No kind moves farther than the largest movement. -/
theorem Kind.movement_le (k : Kind) : k.stats.movement ≤ maxMovement := by
  cases k <;> decide

/-- No kind shoots farther than four hexes. -/
theorem Kind.range_le (k : Kind) : k.stats.range ≤ 4 := by
  cases k <;> decide

/-! ## Worlds with headroom -/

namespace World

variable {w w' : World} {id : PieceId} {piece : Piece} {events : List Event} {n : Nat}

/-- The board is legal and as large as a match file allows at most, and every
piece has the stats of its kind. -/
structure Regular (w : World) : Prop where
  tidy : w.Tidy
  radius_le : w.radius ≤ MatchFile.maxRadius
  stats : ∀ p ∈ w.pieces, p.stats = p.kind.stats

/-- The triples of all pieces have bounded components. -/
def Confined (w : World) (n : Nat) : Prop :=
  ∀ p ∈ w.pieces, p.position.reach ≤ n

/-- The triples of pieces that still have to take their turn are bounded, and
those of the others by as much more as a turn can add. -/
def Pending (w : World) (n : Nat) (ids : List PieceId) : Prop :=
  ∀ p ∈ w.pieces, p.position.reach ≤ n + Kind.maxMovement ∧
    (p.id ∈ ids → p.position.reach ≤ n)

/-- The bound leaves room for the moves of a round and for the farthest look
after them. -/
def Spacious (n : Nat) : Prop :=
  n + Kind.maxMovement + (2 * MatchFile.maxRadius + 1) ≤ Coord.safeReach

/-- Pieces that are near are near by any larger bound. -/
theorem Confined.mono {n' : Nat} (h : w.Confined n) (hle : n ≤ n') : w.Confined n' :=
  fun p hp => Nat.le_trans (h p hp) hle

/-- A smaller bound leaves as much room. -/
theorem Spacious.mono {n' : Nat} (h : Spacious n') (hle : n ≤ n') : Spacious n := by
  unfold Spacious at h ⊢
  omega

/-- A turn leaves a regular world. -/
theorem Regular.turn (h : w.Regular) (hpiece : w.piece? id = some piece)
    (hactive : piece.isActive = true) (hturn : w.Turn id piece w' events) : w'.Regular := by
  obtain ⟨stackLimit, m, hreaches, hled, -⟩ := hturn.led h.tidy.distinct hpiece
  have hsame := (conduct_of_reaches hreaches).piece.same
  refine ⟨h.tidy.turn hpiece hactive hturn, ?_, ?_⟩
  · rw [hled.radius]
    exact h.radius_le
  · intro p' hp'
    rcases hled.pieces p' hp' with ⟨p, hp, -, hsteady⟩ | hsteady
    · rw [hsteady.stats, hsteady.kind]
      exact h.stats p hp
    · rw [hsteady.stats, hsteady.kind, hsame.stats, hsame.kind]
      exact h.stats piece (mem_of_piece? hpiece)

/-- So does the end of a round. -/
theorem Regular.finishRound (h : w.Regular) : w.finishRound.1.Regular := by
  refine ⟨h.tidy.finishRound, radius_finishRound w ▸ h.radius_le, ?_⟩
  intro p' hp'
  obtain ⟨p, hp, rfl⟩ := mem_finishRound hp'
  exact h.stats p hp

/-- The end of a round moves no piece. -/
theorem Confined.finishRound (h : w.Confined n) : w.finishRound.1.Confined n := by
  intro p' hp'
  obtain ⟨p, hp, rfl⟩ := mem_finishRound hp'
  exact h p hp

/-- In its turn, a piece gains in reach what it pays in movement. -/
theorem Regular.reach_le (h : w.Regular) (hpiece : w.piece? id = some piece)
    (hreach : piece.position.reach ≤ n) {stackLimit : Nat} {m : Machine}
    (hreaches : (w.turnStart id piece).Reaches (w.turnScene id piece stackLimit) m) :
    m.piece.position.reach + m.piece.movement ≤ n + Kind.maxMovement := by
  have hstats := h.stats piece (mem_of_piece? hpiece)
  have hmovement : (w.turnStart id piece).piece.movement ≤ Kind.maxMovement := by
    show piece.stats.movement ≤ Kind.maxMovement
    rw [hstats]
    exact piece.kind.movement_le
  have hstart : (w.turnStart id piece).piece.position.reach +
      (w.turnStart id piece).piece.movement ≤ n + Kind.maxMovement :=
    Nat.add_le_add hreach hmovement
  exact (Machine.reach_stable _ (n + Kind.maxMovement)).of_reaches hstart hreaches

/-- A machine has headroom throughout a turn. -/
theorem Regular.headroom (h : w.Regular) (hpiece : w.piece? id = some piece)
    (hactive : piece.isActive = true) (hn : Spacious n) (hreach : piece.position.reach ≤ n)
    (hconfined : w.Confined (n + Kind.maxMovement)) {stackLimit : Nat} {m : Machine}
    (hreaches : (w.turnStart id piece).Reaches (w.turnScene id piece stackLimit) m) :
    m.Headroom (w.turnScene id piece stackLimit) := by
  have hsame := (conduct_of_reaches hreaches).piece.same
  have hmoved := h.reach_le hpiece hreach hreaches
  have hradius : (w.turnScene id piece stackLimit).board.radius ≤ MatchFile.maxRadius :=
    h.radius_le
  have hrange : m.piece.stats.range ≤ 4 := by
    have hstats : m.piece.stats = piece.kind.stats :=
      hsame.stats.trans (h.stats piece (mem_of_piece? hpiece))
    rw [hstats]
    exact piece.kind.range_le
  unfold Spacious at hn
  refine ⟨?_, ?_, ?_, ?_, ?_⟩
  · intro s hs
    obtain ⟨p', hp', -, rfl⟩ := mem_boardView.mp hs
    obtain ⟨p, hp, hsteady⟩ := (steady_begun h.tidy.distinct hpiece).pieces p' hp'
    have hplace : p'.snapshot.position = p.position := hsteady.position
    have hp' := hconfined p hp
    rw [hplace]
    omega
  · exact (h.tidy.sited hpiece hactive hreaches).within.norm_le
  · omega
  · unfold MatchFile.maxRadius at hn
    omega
  · omega

/-- A piece that has taken its turn is no longer pending. -/
theorem Pending.turn {rest : List PieceId} (h : w.Pending n (id :: rest))
    (hnodup : (id :: rest).Nodup) (hregular : w.Regular) (hpiece : w.piece? id = some piece)
    (hturn : w.Turn id piece w' events) : w'.Pending n rest := by
  obtain ⟨stackLimit, m, hreaches, hled, -⟩ := hturn.led hregular.tidy.distinct hpiece
  have hid := id_of_piece? hpiece
  have hreach := (h piece (mem_of_piece? hpiece)).2 (hid ▸ List.mem_cons_self)
  have hmoved := hregular.reach_le hpiece hreach hreaches
  intro p' hp'
  rcases hled.pieces p' hp' with ⟨p, hp, -, hsteady⟩ | hsteady
  · rw [hsteady.position, hsteady.id]
    exact ⟨(h p hp).1, fun hrest => (h p hp).2 (List.mem_cons_of_mem id hrest)⟩
  · rw [hsteady.position, hsteady.id, id_of_reaches hpiece hreaches]
    exact ⟨by omega, fun hrest => absurd hrest (List.nodup_cons.mp hnodup).1⟩

/-- A piece that is passed over stays where it is. -/
theorem Pending.skip {rest : List PieceId} (h : w.Pending n (id :: rest)) : w.Pending n rest :=
  fun p hp => ⟨(h p hp).1, fun hrest => (h p hp).2 (List.mem_cons_of_mem id hrest)⟩

/-- During a round, no piece is farther than one move. -/
theorem Pending.confined {ids : List PieceId} (h : w.Pending n ids) :
    w.Confined (n + Kind.maxMovement) :=
  fun p hp => (h p hp).1

/-- No piece takes two turns in a round. -/
theorem Distinct.nodup_turnOrder (h : w.Distinct) : w.turnOrder.Nodup :=
  h.sublist (List.filter_sublist.map _)

end World

/-! ## Rounds -/

namespace Match

variable {m : Match} {n : Nat}

/-- A piece with headroom takes its turn. -/
theorem takeTurn_defined {id : PieceId} {piece : Piece} (h : m.world.Regular)
    (hpiece : m.world.piece? id = some piece) (hactive : piece.isActive = true)
    (hn : World.Spacious n) (hreach : piece.position.reach ≤ n)
    (hconfined : m.world.Confined (n + Kind.maxMovement)) :
    ∃ m' t, m.takeTurn id = .ok (m', t) ∧ m.world.Turn id piece m'.world t.events := by
  rcases takeTurn_cases hpiece hactive with
    hdefined | ⟨cause, stackLimit, machine, -, hreaches, hoverflows⟩
  · exact hdefined
  · have hheadroom := h.headroom hpiece hactive hn hreach hconfined hreaches
    exact absurd hoverflows (hheadroom.not_overflows cause)

/-- Pieces with headroom take their turns, and every triple grows by the movement
of a piece at most. -/
theorem takeTurns_defined {ids : List PieceId} (h : m.world.Regular) (hn : World.Spacious n)
    (hnodup : ids.Nodup) (hpending : m.world.Pending n ids) :
    ∃ m' t, m.takeTurns ids = .ok (m', t) ∧ m'.world.Regular ∧
      m'.world.Confined (n + Kind.maxMovement) := by
  -- The induction is on those who still have to take their turn: their triples have not
  -- grown yet, and whoever has taken a turn does not come again.
  induction ids generalizing m with
  | nil => exact ⟨m, .empty, rfl, h, hpending.confined⟩
  | cons id rest ih =>
    have hrest := (List.nodup_cons.mp hnodup).2
    unfold takeTurns
    by_cases hisActive : m.world.isActive id = true
    · obtain ⟨piece, hpiece, hactive⟩ := World.exists_of_isActive hisActive
      have hid := World.id_of_piece? hpiece
      have hreach :=
        (hpending piece (World.mem_of_piece? hpiece)).2 (hid ▸ List.mem_cons_self)
      obtain ⟨mid, turn, htaken, hturn⟩ :=
        takeTurn_defined h hpiece hactive hn hreach hpending.confined
      obtain ⟨m', later, hlater, hregular, hconfined⟩ :=
        ih (h.turn hpiece hactive hturn) hrest (hpending.turn hnodup h hpiece hturn)
      refine ⟨m', turn ++ later, ?_, hregular, hconfined⟩
      rw [if_pos hisActive]
      exact bind_eq_ok.mpr ⟨_, htaken, bind_eq_ok.mpr ⟨_, hlater, rfl⟩⟩
    · rw [if_neg hisActive]
      exact ih h hrest hpending.skip

/-- A round does not overflow, and takes no piece farther than one move. -/
theorem playRound_defined (h : m.world.Regular) (hn : World.Spacious n)
    (hconfined : m.world.Confined n) :
    ∃ m' t, m.playRound = .ok (m', t) ∧ m'.world.Regular ∧
      m'.world.Confined (n + Kind.maxMovement) := by
  have hpending : m.world.Pending n m.world.turnOrder := by
    intro p hp
    exact ⟨Nat.le_add_right_of_le (hconfined p hp), fun _ => hconfined p hp⟩
  obtain ⟨played, turns, hturns, hregular, hconfined'⟩ :=
    takeTurns_defined h hn h.tidy.distinct.nodup_turnOrder hpending
  refine ⟨_, _, bind_eq_ok.mpr ⟨_, hturns, rfl⟩, hregular.finishRound, hconfined'.finishRound⟩

/-- Neither do rounds in a row, which take no piece farther than one move each. -/
theorem playRounds_defined (rounds : Nat) (h : m.world.Regular) (hconfined : m.world.Confined n)
    (hn : World.Spacious (n + Kind.maxMovement * rounds)) :
    ∃ played m' t, m.playRounds rounds = .ok (played, m', t) ∧ m'.world.Regular ∧
      m'.world.Confined (n + Kind.maxMovement * rounds) := by
  induction rounds generalizing m n with
  | zero => exact ⟨0, m, .empty, rfl, h, hconfined⟩
  | succ rounds ih =>
    have hmore : n + Kind.maxMovement + Kind.maxMovement * rounds =
        n + Kind.maxMovement * (rounds + 1) := by
      rw [Nat.mul_succ]
      omega
    unfold playRounds
    by_cases hconcluded : m.world.concluded = true
    · rw [if_pos hconcluded]
      exact ⟨0, m, .empty, rfl, h, hconfined.mono (Nat.le_add_right _ _)⟩
    · rw [if_neg hconcluded]
      obtain ⟨mid, round, hround, hregular, hmid⟩ :=
        playRound_defined h (hn.mono (Nat.le_add_right _ _)) hconfined
      rw [← hmore] at hn ⊢
      obtain ⟨played, m', later, hlater, hregular', hconfined'⟩ := ih hregular hmid hn
      exact ⟨played + 1, m', round ++ later,
        bind_eq_ok.mpr ⟨_, hround, bind_eq_ok.mpr ⟨_, hlater, rfl⟩⟩, hregular', hconfined'⟩

/-- Neither does a call, which takes no piece farther than its rounds do. -/
theorem call_defined (call : Call) (h : m.world.Regular) (hconfined : m.world.Confined n)
    (hn : World.Spacious (n + Kind.maxMovement * call.rounds)) :
    ∃ m' t, m.call call = .ok (m', t) ∧ m'.world.Regular ∧
      m'.world.Confined (n + Kind.maxMovement * call.rounds) := by
  cases call with
  | round => exact playRound_defined h (hn.mono (Nat.le_add_right _ _)) hconfined
  | play rounds =>
    obtain ⟨played, m', t, hplayed, hregular, hconfined'⟩ :=
      playRounds_defined rounds h hconfined hn
    refine ⟨m', t, ?_, hregular, hconfined'⟩
    simp only [Match.call, play, hplayed]
    rfl
  | enlist piece script limits => exact ⟨_, _, rfl, h, hconfined⟩

/-- A match goes on without overflow as long as there is headroom. -/
theorem callAll_defined (calls : List Call) (h : m.world.Regular)
    (hconfined : m.world.Confined n)
    (hn : World.Spacious (n + Kind.maxMovement * (calls.map Call.rounds).sum)) :
    ∃ m' t, m.callAll calls = .ok (m', t) := by
  induction calls generalizing m n with
  | nil => exact ⟨m, .empty, rfl⟩
  | cons first rest ih =>
    rw [List.map_cons, List.sum_cons, Nat.mul_add, ← Nat.add_assoc] at hn
    obtain ⟨mid, done, hfirst, hregular, hmid⟩ :=
      call_defined first h hconfined (hn.mono (Nat.le_add_right _ _))
    obtain ⟨m', later, hlater⟩ := ih hregular hmid hn
    exact ⟨m', done ++ later, bind_eq_ok.mpr ⟨_, hfirst, bind_eq_ok.mpr ⟨_, hlater, rfl⟩⟩⟩

end Match

/-! ## Setups -/

/-- The computation has a result, unless there is no room for mailboxes of a
capacity. -/
def Checked.DefinedFor {α : Type} (capacity : Nat) (c : Checked α) : Prop :=
  Defined c ∨ Mailbox.maxCapacity < capacity ∧ c = .error .capacity

namespace Checked.DefinedFor

variable {α β : Type} {capacity : Nat}

/-- A result is there. -/
theorem ok (a : α) : DefinedFor capacity (.ok a) :=
  Or.inl (.ok a)

/-- Computations in a row are defined if both are. -/
theorem bind {first : Checked α} {later : α → Checked β} (hfirst : DefinedFor capacity first)
    (hlater : ∀ a, first = .ok a → DefinedFor capacity (later a)) :
    DefinedFor capacity (first >>= later) := by
  rcases hfirst with ⟨a, rfl⟩ | ⟨hroom, rfl⟩
  · exact hlater a rfl
  · exact Or.inr ⟨hroom, rfl⟩

/-- A choice is defined if both computations are. -/
theorem ite {p : Prop} [Decidable p] {yes no : Checked α} (hyes : DefinedFor capacity yes)
    (hno : DefinedFor capacity no) : DefinedFor capacity (if p then yes else no) := by
  split
  · exact hyes
  · exact hno

end Checked.DefinedFor

/-- The board is as large as a match file allows at most, and the contestants
stand near it. -/
structure Setup.Near (s : Setup) : Prop where
  radius_le : s.boardRadius ≤ MatchFile.maxRadius
  reach_le : ∀ c ∈ s.contestants, c.placement.position.reach ≤ MatchFile.maxRadius

namespace World

variable {s : Setup} {w : World} {events : List Event}

/-- A world that is assembled from a setup is regular. -/
theorem Assembled.regular (h : w.Assembled s events) (hs : s.Near) : w.Regular := by
  obtain ⟨htidy, hradius⟩ := Tidy.assembled h
  exact ⟨htidy, hradius ▸ hs.radius_le, h.forall_pieces fun _ _ => rfl⟩

/-- Its pieces stand where the setup puts them. -/
theorem Assembled.confined (h : w.Assembled s events) (hs : s.Near) :
    w.Confined MatchFile.maxRadius :=
  h.forall_pieces hs.reach_le

/-- Its mailboxes are as large as the setup says. -/
theorem Assembled.mailboxCapacity (h : w.Assembled s events) :
    w.mailboxCapacity = s.mailboxCapacity := by
  induction h with
  | blank => rfl
  | rejected _ _ _ ih => exact ih
  | spawned hc _ hspawn ih =>
    obtain ⟨-, -, -, mailboxes, rfl⟩ := spawn_eq_ok hspawn
    exact ih

/-- Looking for a living piece on a hex near the middle does not overflow. -/
theorem anyAliveOn_defined {cell : Coord} {pieces : List Piece}
    (hpieces : ∀ p ∈ pieces, p.position.reach ≤ Coord.safeReach)
    (hcell : cell.reach ≤ Coord.safeReach) : Defined (anyAliveOn cell pieces) := by
  induction pieces with
  | nil => exact .ok false
  | cons p rest ih =>
    obtain ⟨hp, hrest⟩ := List.forall_mem_cons.mp hpieces
    unfold anyAliveOn
    refine .ite ?_ (ih hrest)
    exact (Coord.sameHex_of_reach hp hcell).bind fun same _ => .ite (.ok true) (ih hrest)

/-- A piece near the board is put on it or refused, unless there is no room for
its mailbox. -/
theorem spawn_definedFor {new : Placement} (hconfined : w.Confined MatchFile.maxRadius)
    (hnew : new.position.reach ≤ MatchFile.maxRadius) :
    DefinedFor w.mailboxCapacity (w.spawn new) := by
  have hsafe : MatchFile.maxRadius ≤ Coord.safeReach := by decide
  have hcell := Nat.le_trans hnew hsafe
  have hinside : Defined (w.isOnBoard new.position) :=
    (Coord.distance_of_reach (Nat.zero_le _) hcell).bind fun steps _ => .ok _
  have hoccupied : Defined (w.isOccupied new.position) :=
    anyAliveOn_defined (hconfined.mono hsafe) hcell
  unfold spawn
  refine .ite (.ok _) (.bind (.inl hinside) fun inside _ => .ite (.ok _) ?_)
  refine .bind (.inl hoccupied) fun occupied _ => .ite (.ok _) ?_
  refine .bind ?_ fun opened _ => ?_
  · unfold Directory.openBox
    split
    · exact .ok _
    · split
      · exact .ok _
      · rename_i hroom
        exact Or.inr ⟨Nat.lt_of_not_le hroom, rfl⟩
  · cases opened with
    | error cause => exact .ok _
    | ok mailboxes => exact .ok _

/-- Contestants near the board are put on it or refused, unless there is no room
for their mailboxes. -/
theorem Assembled.applyAll_definedFor (hs : s.Near) {contestants : List Contestant}
    (hsub : ∀ c ∈ contestants, c ∈ s.contestants) (hassembled : w.Assembled s events) :
    DefinedFor s.mailboxCapacity (w.applyAll (contestants.map (.spawnPiece ·.placement))) := by
  induction contestants generalizing w events with
  | nil => exact .ok _
  | cons c rest ih =>
    have hc := hsub c List.mem_cons_self
    have hrest := fun c' hc' => hsub c' (List.mem_cons_of_mem c hc')
    have hspawned := spawn_definedFor (hassembled.confined hs) (hs.reach_le c hc)
    rw [hassembled.mailboxCapacity] at hspawned
    have happlied : DefinedFor s.mailboxCapacity (w.apply (.spawnPiece c.placement)) := by
      refine hspawned.bind fun spawned _ => ?_
      cases spawned with
      | ok mid => exact .ok _
      | error reason => exact .ok _
    refine happlied.bind fun ⟨mid, first⟩ hfirst => ?_
    have happly : w.applyAll ([c].map (.spawnPiece ·.placement)) = .ok (mid, first) :=
      applyAll_singleton hfirst
    have hmid := hassembled.applyAll (by simpa using hc) happly
    exact (ih hrest hmid).bind fun ⟨final, later⟩ _ => .ok _

end World

/-- A setup near the board is put on it, unless there is no room for its
mailboxes. -/
theorem Match.ofSetup_definedFor {s : Setup} (hs : s.Near) :
    DefinedFor s.mailboxCapacity (ofSetup s) := by
  unfold ofSetup
  refine .bind ?_ fun _ _ => .ok _
  refine .bind (.ok _) fun ⟨configured, first⟩ hboard => ?_
  cases hboard
  refine .bind (.bind (.ok _) fun ⟨configured, first⟩ hmailboxes => ?_) fun _ _ => .ok _
  cases hmailboxes
  exact (World.Assembled.blank.applyAll_definedFor hs fun c hc => hc).bind fun _ _ => .ok _

/-! ## Match files -/

namespace MatchFile

variable {file : MatchFile} {load : String → Except String String}

/-- A contestant of a match file stands near the board. -/
theorem reach_of_contestant {entry : PieceEntry} {c : Contestant}
    (h : contestant load entry = .ok c) : c.placement.position.reach ≤ maxRadius := by
  unfold contestant at h
  obtain ⟨id, -, h⟩ := bind_eq_ok.mp h
  dsimp only at h
  split at h
  · cases h
  obtain ⟨script, -, h⟩ := bind_eq_ok.mp h
  split at h
  · cases h
  rename_i hnear
  cases h
  simp only [isFar, Bool.or_eq_true, decide_eq_true_eq, not_or, Nat.not_lt] at hnear
  exact Coord.reach_le.mpr ⟨hnear.1.1, hnear.1.2, hnear.2⟩

/-- The contestants of a match file stand near the middle. -/
theorem reach_of_contestants {entries : List PieceEntry} {cs : List Contestant}
    (h : contestants load entries = .ok cs) :
    ∀ c ∈ cs, c.placement.position.reach ≤ maxRadius := by
  induction entries generalizing cs with
  | nil =>
    cases h
    intro c hc
    cases hc
  | cons entry rest ih =>
    unfold contestants at h
    obtain ⟨first, hfirst, h⟩ := bind_eq_ok.mp h
    obtain ⟨others, hothers, h⟩ := bind_eq_ok.mp h
    cases h
    exact List.forall_mem_cons.mpr ⟨reach_of_contestant hfirst, ih hothers⟩

/-- A resolved match file is a setup near the board. -/
theorem near_of_resolve {s : Setup} (h : file.resolve load = .ok s) : s.Near := by
  unfold resolve at h
  dsimp only at h
  split at h
  · cases h
  split at h
  · cases h
  split at h
  · cases h
  rename_i hradius
  obtain ⟨cs, hcs, h⟩ := bind_eq_ok.mp h
  cases h
  exact ⟨Nat.le_of_not_lt hradius, reach_of_contestants hcs⟩

/-- The rounds for which the match of a match file has headroom. -/
def safeRounds : Nat := 100000000

/-- The match of a match file is set up, unless there is no room for its
mailboxes, and then goes on without overflow for a hundred million rounds,
however it is called to go on. -/
theorem defined_of_resolve {s : Setup} (h : file.resolve load = .ok s) :
    (∃ m t, Match.ofSetup s = .ok (m, t) ∧
      ∀ calls : List Match.Call, (calls.map Match.Call.rounds).sum ≤ safeRounds →
        ∃ m' t', m.callAll calls = .ok (m', t')) ∨
      Mailbox.maxCapacity < s.mailboxCapacity ∧ Match.ofSetup s = .error .capacity := by
  have hnear := near_of_resolve h
  rcases Match.ofSetup_definedFor hnear with ⟨⟨m, t⟩, hstart⟩ | hroom
  · refine Or.inl ⟨m, t, hstart, ?_⟩
    intro calls hrounds
    have hassembled := Match.ofSetup_assembled hstart
    refine Match.callAll_defined calls (hassembled.regular hnear) (hassembled.confined hnear) ?_
    unfold World.Spacious Kind.maxMovement maxRadius Coord.safeReach
    unfold safeRounds at hrounds
    omega
  · exact Or.inr hroom

/-- A scout in the center of the largest board, given by as large a triple as a
match file may have, and a tank just outside. -/
def vast : MatchFile where
  boardRadius := maxRadius
  mailboxCapacity := 8
  maxRounds := 100
  limits := .default
  pieces :=
    [⟨"ada", "red", .scout, ⟨65536, -65536, 65536⟩, 0, "ada.hex"⟩,
      ⟨"bob", "blue", .tank, ⟨65536, 1, 0⟩, 3, "bob.hex"⟩]

/-- The scout circles and looks around, and the tank has an empty script. -/
def vastScripts : String → Except String String
  | "ada.hex" => .ok "3 1 move drop 1 turn 0 look drop enemies drop"
  | _ => .ok ""

/-- A match on the largest board is played for as many rounds as are allowed. -/
theorem defined_of_resolve_vast :
    ∃ s m t, vast.resolve vastScripts = .ok s ∧ Match.ofSetup s = .ok (m, t) ∧
      ∃ m' t', m.callAll [.round, .play 99999999] = .ok (m', t') := by
  obtain ⟨s, hs⟩ : ∃ s, vast.resolve vastScripts = .ok s := ⟨_, rfl⟩
  have hcapacity : s.mailboxCapacity = 8 := by
    cases hs
    rfl
  rcases defined_of_resolve hs with ⟨m, t, hstart, hplay⟩ | ⟨hroom, -⟩
  · exact ⟨s, m, t, hs, hstart, hplay [.round, .play 99999999] (by decide)⟩
  · rw [hcapacity] at hroom
    exact absurd hroom (by decide)

end MatchFile

end HexArena
