import HexArena.Proofs.Match.Course
import HexArena.Proofs.World.Effect
import Mathlib.Data.List.Induction

/-!
# Whose script drives a piece

A setup is read twice.  The world puts the first entry that it can on the board and
refuses every later one with that name, in whatever case its letters are; the roster
compares identifiers letter by letter, and a later entry replaces the script of an
earlier one.  So a piece is driven by the last entry with its very identifier, which
may be one that the world has refused.

Main results:

- Definition {lit}`Setup.Admits`: an entry is put on the board.
- Definition {lit}`Match.DrivenBy`: what a piece runs is the script of an entry.
- Theorem {lit}`Roster.find?_ofSetup`: the roster has the script of the last entry.
- Theorem {lit}`Setup.Admits.piece?`: the world has the piece of the admitted entry.
- Theorem {lit}`Match.drivenBy_iff`: a piece runs the script of its own entry exactly
  when no later entry has its identifier and another script.
-/

namespace HexArena

open Script

/-- The last entry with an identifier. -/
def Contestant.last? (id : PieceId) (entries : List Contestant) : Option Contestant :=
  entries.reverse.find? (·.placement.id = id)

namespace Contestant

variable {id : PieceId} {c : Contestant}

theorem last?_concat_eq (entries : List Contestant) (h : c.placement.id = id) :
    last? id (entries ++ [c]) = some c := by
  simp [last?, h]

theorem last?_concat_ne (entries : List Contestant) (h : c.placement.id ≠ id) :
    last? id (entries ++ [c]) = last? id entries := by
  simp [last?, h]

/-- What stands before an entry with the identifier does not matter. -/
theorem last?_append_cons (before after : List Contestant) (h : c.placement.id = id) :
    last? id (before ++ c :: after) = some ((last? id after).getD c) := by
  simp only [last?, List.reverse_append, List.reverse_cons, List.append_assoc,
    List.singleton_append, List.find?_append]
  cases after.reverse.find? (·.placement.id = id) with
  | none => simp [h]
  | some later => rfl

end Contestant

/-! ## The roster of a setup -/

namespace Roster

variable {r : Roster} {id other : PieceId}

/-- A piece that is enlisted for the first time gets an interpreter of its own. -/
theorem find?_enlist_of_none (hnone : r.find? id = none) (script : String) (limits : Limits) :
    (r.enlist id script limits).find? id = some ⟨.fresh id limits, script⟩ := by
  rw [enlist, hnone]
  unfold find? at hnone ⊢
  simp [List.find?_append, hnone, Interpreter.fresh]

/-- Nobody else is concerned when a piece is enlisted. -/
theorem find?_enlist_ne (hne : other ≠ id) (script : String) (limits : Limits) :
    (r.enlist other script limits).find? id = r.find? id := by
  unfold enlist
  split
  · refine find?_updateFirst_of_disjoint ?_ ?_ <;>
    · intro entrant _ howner
      have howner : entrant.interpreter.owner = other := of_decide_eq_true howner
      simp [howner, hne]
  · simp [find?, List.find?_append, Interpreter.fresh, hne]

/-- The roster of a setup has the script of the last entry with an identifier. -/
theorem find?_ofSetup (s : Setup) (id : PieceId) :
    (ofSetup s).find? id =
      (Contestant.last? id s.contestants).map fun c => ⟨.fresh id s.limits, c.script⟩ := by
  unfold ofSetup
  -- A new entry comes last, so the induction is on the entries before it.
  induction s.contestants using List.reverseRecOn with
  | nil => rfl
  | append_singleton entries c ih =>
    rw [List.foldl_append, List.foldl_cons, List.foldl_nil]
    by_cases hid : c.placement.id = id
    · rw [Contestant.last?_concat_eq entries hid, hid]
      cases hlast : Contestant.last? id entries with
      | none =>
        rw [hlast] at ih
        exact find?_enlist_of_none ih c.script s.limits
      | some earlier =>
        rw [hlast] at ih
        exact find?_enlist ih c.script s.limits
    · rw [Contestant.last?_concat_ne entries hid, find?_enlist_ne hid]
      exact ih

end Roster

/-! ## The world of a setup -/

namespace World

variable {w w' : World} {id : PieceId} {piece : Piece} {t : Transcript}

theorem applyAll_append_eq_ok {first rest : List Command}
    (h : w.applyAll (first ++ rest) = .ok (w', t)) :
    ∃ mid done later, w.applyAll first = .ok (mid, done) ∧ mid.applyAll rest = .ok (w', later) := by
  induction first generalizing w t with
  | nil => exact ⟨w, .empty, t, rfl, h⟩
  | cons command commands ih =>
    obtain ⟨mid, now, later, hnow, hlater, -⟩ := applyAll_cons_eq_ok h
    obtain ⟨w₁, done, last, hdone, hlast⟩ := ih hlater
    refine ⟨w₁, now ++ done, last, ?_, hlast⟩
    rw [applyAll, hnow]
    simp only [bind, Except.bind, hdone]
    rfl

/-- A piece whose name is new is found as it has been put on the board. -/
theorem piece?_joined_self {new : Placement}
    (hfree : ∀ p ∈ w.pieces, p.id ≠ new.id) :
    (w.joined new).piece? new.id =
      some (.spawn new.id new.team new.kind new.position new.rotation) := by
  have hnone : w.pieces.find? (·.id = new.id) = none := by
    simpa using hfree
  simp [joined, piece?, List.find?_append, hnone, Piece.spawn]

/-- A piece on the board is found as it was when another one joins. -/
theorem piece?_joined (hpiece : w.piece? id = some piece) (new : Placement) :
    (w.joined new).piece? id = some piece := by
  unfold piece? at hpiece
  simp [joined, piece?, List.find?_append, hpiece]

/-- A piece on the board stays as it is while others are put there. -/
theorem piece?_of_spawns {entries : List Contestant} (hpiece : w.piece? id = some piece)
    (h : w.applyAll (entries.map (.spawnPiece ·.placement)) = .ok (w', t)) :
    w'.piece? id = some piece := by
  induction entries generalizing w t with
  | nil =>
    cases h
    exact hpiece
  | cons c rest ih =>
    obtain ⟨mid, first, later, hfirst, hlater, -⟩ := applyAll_cons_eq_ok h
    refine ih ?_ hlater
    have heffect := effect_of_spawn hfirst
    generalize first.events = events at heffect
    cases heffect with
    | spawned hfree => exact piece?_joined hpiece c.placement
    | rejected => exact hpiece

end World

namespace Setup

variable {s : Setup} {before between : List Contestant} {c later : Contestant}

/-- The entry is put on the board after those before it. -/
def Admits (s : Setup) (before : List Contestant) (c : Contestant) : Prop :=
  ∃ w t w', World.fresh.applyAll { s with contestants := before }.commands = .ok (w, t) ∧
    w.spawn c.placement = .ok (.ok w')

theorem commands_append (s : Setup) (before after : List Contestant) :
    { s with contestants := before ++ after }.commands =
      { s with contestants := before }.commands ++ after.map (.spawnPiece ·.placement) := by
  simp [commands]

/-- Whatever entries follow, the piece of the admitted entry is on the board. -/
theorem Admits.piece? (hc : s.Admits before c) {w : World} {t : Transcript}
    (h : World.fresh.applyAll { s with contestants := before ++ c :: between }.commands =
      .ok (w, t)) :
    w.piece? c.placement.id =
      some (.spawn c.placement.id c.placement.team c.placement.kind c.placement.position
        c.placement.rotation) := by
  obtain ⟨start, _, joined, hstart, hspawn⟩ := hc
  obtain ⟨hfree, -⟩ := World.spawn_eq_ok hspawn
  obtain ⟨-, rfl⟩ := World.eq_joined_of_spawn hspawn
  rw [commands_append] at h
  obtain ⟨mid, _, _, hmid, hrest⟩ := World.applyAll_append_eq_ok h
  rw [hstart] at hmid
  cases hmid
  obtain ⟨next, _, _, hnext, hlater, -⟩ := World.applyAll_cons_eq_ok hrest
  simp only [World.apply, hspawn, bind, Except.bind] at hnext
  cases hnext
  exact World.piece?_of_spawns (World.piece?_joined_self hfree) hlater

/-- No later entry with the identifier of an admitted one is admitted. -/
theorem Admits.id_ne (hc : s.Admits before c) (hlater : s.Admits (before ++ c :: between) later) :
    later.placement.id ≠ c.placement.id := by
  obtain ⟨w, _, _, hw, hspawn⟩ := hlater
  have hpiece := hc.piece? hw
  obtain ⟨hfree, -⟩ := World.spawn_eq_ok hspawn
  intro hid
  exact hfree _ (World.mem_of_piece? hpiece) hid.symm

end Setup

/-! ## The match of a setup -/

namespace Match

variable {s : Setup} {m : Match} {t : Transcript} {before after : List Contestant} {c : Contestant}

/-- What is looked up when the piece of an entry takes its turn is the script of that entry. -/
def DrivenBy (m : Match) (c : Contestant) : Prop :=
  ∃ entrant, m.roster.find? c.placement.id = some entrant ∧ entrant.script = c.script

/-- The piece of an admitted entry is on the board and no later entry with its
identifier is admitted.  It runs the script of its entry unless the last of these later
ones has another. -/
theorem drivenBy_iff (hs : s.contestants = before ++ c :: after) (h : ofSetup s = .ok (m, t))
    (hc : s.Admits before c) :
    m.world.piece? c.placement.id =
        some (.spawn c.placement.id c.placement.team c.placement.kind c.placement.position
          c.placement.rotation) ∧
      (∀ between later rest, after = between ++ later :: rest →
        s.Admits (before ++ c :: between) later → later.placement.id ≠ c.placement.id) ∧
      (m.DrivenBy c ↔
        ∀ later, Contestant.last? c.placement.id after = some later → later.script = c.script) := by
  obtain ⟨⟨world, _⟩, hworld, hdone⟩ := bind_eq_ok.mp h
  cases hdone
  have hcommands : s.commands = { s with contestants := before ++ c :: after }.commands := by
    rw [← hs]
  rw [hcommands] at hworld
  refine ⟨hc.piece? hworld, fun between later rest _ hlater => hc.id_ne hlater, ?_⟩
  have hentrant := Roster.find?_ofSetup s c.placement.id
  rw [hs, Contestant.last?_append_cons before after rfl] at hentrant
  unfold DrivenBy
  rw [hentrant]
  cases Contestant.last? c.placement.id after with
  | none => simp
  | some later => simp

/-- The first entry is off the board, and the last has the name of the second in
capital letters. -/
def shouted : Setup where
  boardRadius := 1
  mailboxCapacity := 1
  limits := .default
  contestants :=
    [⟨⟨.ada, ⟨"red"⟩, .scout, ⟨2, 0, 0⟩, 0⟩, "1"⟩, ⟨.ada, "2"⟩,
      ⟨⟨⟨"ADA", by decide, by decide, by decide⟩, ⟨"blue"⟩, .tank, ⟨1, 0, 0⟩, 0⟩, "3"⟩]

/-- An entry that is refused does not concern a piece whose identifier it only resembles. -/
theorem drivenBy_iff_shouted :
    ∃ m t before, ofSetup shouted = .ok (m, t) ∧ shouted.Admits before ⟨.ada, "2"⟩ ∧
      m.world.turnOrder = [.ada] ∧ m.DrivenBy ⟨.ada, "2"⟩ := by
  have hstart : ∃ m t, ofSetup shouted = .ok (m, t) ∧ m.world.turnOrder = [.ada] := ⟨_, _, rfl, rfl⟩
  obtain ⟨m, t, hstart, hids⟩ := hstart
  have hadmits : shouted.Admits [⟨⟨.ada, ⟨"red"⟩, .scout, ⟨2, 0, 0⟩, 0⟩, "1"⟩] ⟨.ada, "2"⟩ :=
    ⟨_, _, _, rfl, rfl⟩
  refine ⟨m, t, _, hstart, hadmits, hids, (drivenBy_iff rfl hstart hadmits).2.2.mpr ?_⟩
  intro later hlater
  cases hlater

/-- Two entries with one identifier. -/
def doubled : Setup where
  boardRadius := 1
  mailboxCapacity := 1
  limits := .default
  contestants := [⟨.ada, "1"⟩, ⟨⟨.ada, ⟨"red"⟩, .scout, ⟨1, 0, 0⟩, 0⟩, "2"⟩]

/-- The first entry is put on the board, and its piece runs the script of the second. -/
theorem not_drivenBy_of_doubled :
    ∃ m t, ofSetup doubled = .ok (m, t) ∧ doubled.Admits [] ⟨.ada, "1"⟩ ∧
      .pieceSpawnRejected .ada .duplicateId ∈ t.events ∧
      (m.roster.find? .ada).map (·.script) = some "2" ∧ ¬ m.DrivenBy ⟨.ada, "1"⟩ := by
  refine ⟨_, _, rfl, ⟨_, _, _, rfl, rfl⟩, by decide, rfl, ?_⟩
  rintro ⟨entrant, hentrant, hscript⟩
  cases hentrant
  exact absurd hscript (by decide)

end Match

end HexArena
