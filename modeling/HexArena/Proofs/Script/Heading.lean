import HexArena.Proofs.Hex.Rotation
import HexArena.Proofs.Script.Action
import HexArena.Proofs.Script.Turn

/-!
# Relative directions

Scripts name directions relative to where their piece faces.  Turning the piece only
shifts the names: a word that is given a direction after a turn does what it would have
done before the turn with the sum of the two, or with anything that differs from the sum
by full circles.  Nothing else that these words look at depends on the facing, and they
leave it as it is.

Main results:

- Theorems {lit}`Piece.index_spawn` and {lit}`Piece.index_rotate`: the direction a piece
  faces, by its index.
- Theorems {lit}`Piece.heading_rotate` and {lit}`Piece.index_rotate_rotate`: turns and
  relative directions add up.
- Definition {lit}`Action.Shadows`: an action on a machine whose piece is turned does what
  another one does on the machine as it was.
- Theorems {lit}`Word.shadows_move`, {lit}`Word.shadows_shoot`, {lit}`Word.shadows_look`
  and {lit}`Word.shadows_identify`: the words that are given a direction.
- Theorem {lit}`Machine.turning_rotates`: the grid, the facing and the words turn alike.
-/

namespace HexArena

/-! ## Pieces that turn -/

namespace Piece

variable (p : Piece) (s t : Int)

/-- After a turn, a relative direction counts from where the piece faces then. -/
theorem heading_rotate : (p.rotate s).heading t = p.heading (s + t) :=
  Direction.rotated_rotated p.facing s t

/-- A piece is put on the board facing the direction of a number, modulo six. -/
theorem index_spawn (id : PieceId) (team : Team) (kind : Kind) (position : Coord) (rotation : Nat) :
    (spawn id team kind position rotation).facing.index = rotation % 6 := by
  have hindex := Direction.index_ofIndex rotation
  simp only [spawn]
  omega

/-- The index of a relative direction, over unbounded integers. -/
theorem index_heading : ((p.heading s).index : Int) = (p.facing.index + s) % 6 :=
  p.facing.index_rotated s

/-- A piece that turns faces the direction of the sum, modulo six. -/
theorem index_rotate : ((p.rotate s).facing.index : Int) = (p.facing.index + s) % 6 :=
  p.index_heading s

/-- The sum that a turn is computed from never overflows. -/
theorem rotated?_facing : p.facing.rotated? s = some (p.rotate s).facing :=
  p.facing.rotated?_eq_some s

/-- Two turns lead as far as their sum. -/
theorem index_rotate_rotate :
    (((p.rotate s).rotate t).facing.index : Int) = (p.facing.index + s + t) % 6 := by
  rw [index_rotate, index_rotate, Int.emod_add_emod]

/-- A piece moves in an absolute direction, wherever it faces. -/
theorem move_rotate (spaces : Nat) (d : Direction) :
    (p.rotate s).move spaces d = (p.move spaces d).map fun moved => moved.map (·.rotate s) := by
  have hblocked : (p.rotate s).blocked? = p.blocked? := rfl
  have hmovement : (p.rotate s).movement = p.movement := rfl
  have hposition : (p.rotate s).position = p.position := rfl
  unfold move
  rw [hblocked, hmovement, hposition]
  cases p.blocked? with
  | some cause => rfl
  | none =>
    dsimp only
    split
    · rfl
    · cases p.position.offset d ((toComponent? spaces).getD maxComponent) with
      | ok position => rfl
      | error cause => rfl

/-- A piece spends its shot, wherever it faces. -/
theorem shoot_rotate :
    (p.rotate s).shoot = p.shoot.map fun shot => (shot.1, shot.2.rotate s) := by
  have hblocked : (p.rotate s).blocked? = p.blocked? := rfl
  have hshot : (p.rotate s).hasShot = p.hasShot := rfl
  unfold shoot
  rw [hblocked, hshot]
  cases p.blocked? with
  | some cause => rfl
  | none =>
    dsimp only
    split
    · rfl
    · rfl

end Piece

namespace Script

/-! ## Machines whose piece is turned -/

/-- The machine with its piece turned by sixths of a circle. -/
def Machine.turned (s : Int) (m : Machine) : Machine :=
  { m with piece := m.piece.rotate s }

namespace Action

variable {α β : Type} {s : Int} {m : Machine}

/-- The same result, with the piece of the machine that is left turned. -/
def turned (s : Int) : EStateM.Result Stop Machine α → EStateM.Result Stop Machine α
  | .ok a m => .ok a (m.turned s)
  | .error stop m => .error stop (m.turned s)

/-- With its piece turned, the machine is done to by the first action what the second
does to it as it is. -/
def Shadows (s : Int) (action action' : Action α) (m : Machine) : Prop :=
  action (m.turned s) = turned s (action' m)

/-- Actions that go on from the same result. -/
theorem Shadows.bind {first first' : Action α} {later later' : α → Action β}
    (hfirst : Shadows s first first' m)
    (hlater : ∀ a m', Shadows s (later a) (later' a) m') :
    Shadows s (first >>= later) (first' >>= later') m := by
  unfold Shadows at hfirst hlater ⊢
  simp only [Bind.bind, EStateM.bind, hfirst]
  cases first' m with
  | ok a m' => exact hlater a m'
  | error stop m' => rfl

theorem shadows_get_bind {later later' : Machine → Action α}
    (h : Shadows s (later (m.turned s)) (later' m) m) :
    Shadows s (get >>= later) (get >>= later') m :=
  h

theorem shadows_modify {f f' : Machine → Machine} (h : f (m.turned s) = (f' m).turned s) :
    Shadows s (modify f) (modify f') m :=
  congrArg (EStateM.Result.ok ()) h

theorem shadows_ofChecked (c : Checked α) : Shadows s (ofChecked c) (ofChecked c) m := by
  cases c with
  | ok a => rfl
  | error cause => rfl

theorem Shadows.ite {p : Prop} [Decidable p] {yes no yes' no' : Action α}
    (hyes : Shadows s yes yes' m) (hno : Shadows s no no' m) :
    Shadows s (if p then yes else no) (if p then yes' else no') m := by
  split
  · exact hyes
  · exact hno

theorem shadows_push (scene : Scene) (value : Value) :
    Shadows s (push scene value) (push scene value) m := by
  apply shadows_get_bind
  have hstack : (m.turned s).stack = m.stack := rfl
  rw [hstack]
  split
  · rfl
  · rfl

/-- The direction is taken from the top of the stack, and what is below it stays the
same. -/
theorem shadows_popInt_bind {t u : Int} {below : List Value} {later : Int → Action α}
    (h : Shadows s (later t) (later u) { m with stack := below }) :
    (popInt >>= later) { m.turned s with stack := .int t :: below } =
      turned s ((popInt >>= later) { m with stack := .int u :: below }) :=
  h

/-- The direction and the value below it are taken. -/
theorem shadows_popIntPair_bind {t u : Int} {first : Value} {below : List Value}
    {later : Int × Int → Action α}
    (h : ∀ n, Shadows s (later (n, t)) (later (n, u)) { m with stack := below }) :
    (popIntPair >>= later) { m.turned s with stack := .int t :: first :: below } =
      turned s ((popIntPair >>= later) { m with stack := .int u :: first :: below }) := by
  cases first with
  | int n => exact h n
  | text written => rfl

end Action

/-! ## Words that are given a direction -/

namespace Word

open HexArena.Script.Action

variable {s t u : Int} (scene : Scene) (m : Machine)

/-- Directions that differ by the turn, up to full circles, are the same from the turned
piece and from the piece as it was. -/
theorem heading_turned (h : (s + t) % 6 = u % 6) :
    (m.turned s).piece.heading t = m.piece.heading u := by
  have hsum : (m.turned s).piece.heading t = m.piece.heading (s + t) := m.piece.heading_rotate s t
  rw [hsum]
  exact m.piece.facing.rotated_congr h

theorem shadows_move (h : (s + t) % 6 = u % 6) (first : Value) (below : List Value) :
    move scene { m.turned s with stack := .int t :: first :: below } =
      turned s (move scene { m with stack := .int u :: first :: below }) := by
  refine shadows_popIntPair_bind fun spaces => shadows_get_bind ?_
  have hd := heading_turned { m with stack := below } h
  dsimp only
  rw [hd]
  refine (shadows_ofChecked _).bind fun walked m' => Shadows.ite (shadows_push scene _) ?_
  simp only [Machine.turned, Piece.move_rotate]
  cases m.piece.move walked (m.piece.heading u) with
  | error cause => rfl
  | ok moved =>
    cases moved with
    | error refusal => exact shadows_push scene _
    | ok moved =>
      show Shadows s (modify _ >>= fun _ => pushInt scene walked)
        (modify _ >>= fun _ => pushInt scene walked) m'
      exact Shadows.bind (shadows_modify (by rfl)) fun _ _ => shadows_push scene _

theorem shadows_shoot (h : (s + t) % 6 = u % 6) (first : Value) (below : List Value) :
    shoot scene { m.turned s with stack := .int t :: first :: below } =
      turned s (shoot scene { m with stack := .int u :: first :: below }) := by
  refine shadows_popIntPair_bind fun distance => shadows_get_bind ?_
  have hd := heading_turned { m with stack := below } h
  dsimp only
  rw [hd]
  refine Shadows.ite (shadows_push scene _) ?_
  simp only [Machine.turned, Piece.shoot_rotate]
  cases m.piece.shoot with
  | error refusal => exact shadows_push scene _
  | ok shot =>
    show Shadows s (modify _ >>= fun _ => _) (modify _ >>= fun _ => _) _
    refine Shadows.bind (shadows_modify (by rfl)) fun _ _ => ?_
    refine (shadows_ofChecked _).bind fun cell _ => ?_
    refine (shadows_ofChecked _).bind fun other _ => ?_
    cases other.filter (·.active) with
    | none => exact shadows_push scene _
    | some target =>
      exact Shadows.bind (shadows_modify (by rfl)) fun _ _ => shadows_push scene _

theorem shadows_look (h : (s + t) % 6 = u % 6) (below : List Value) :
    look scene { m.turned s with stack := .int t :: below } =
      turned s (look scene { m with stack := .int u :: below }) := by
  refine shadows_popInt_bind (shadows_get_bind ?_)
  have hd := heading_turned { m with stack := below } h
  dsimp only
  rw [hd]
  exact (shadows_ofChecked _).bind fun seen _ => shadows_push scene _

theorem shadows_identify (h : (s + t) % 6 = u % 6) (first : Value) (below : List Value) :
    identify scene { m.turned s with stack := .int t :: first :: below } =
      turned s (identify scene { m with stack := .int u :: first :: below }) := by
  refine shadows_popIntPair_bind fun distance => shadows_get_bind ?_
  have hd := heading_turned { m with stack := below } h
  dsimp only
  rw [hd]
  refine Shadows.ite ?_ (shadows_push scene _)
  exact (shadows_ofChecked _).bind fun other _ => shadows_push scene _

end Word

/-! ## Directions after a turn -/

namespace Machine

open Checked

variable {scene : Scene} {m m' : Machine} {word : Builtin} {s t u : Int} {below : List Value}

/-- A word is done that is given a relative direction, on top of what else it takes. -/
def ask (scene : Scene) (m : Machine) (word : Builtin) (relative : Int) (below : List Value) :
    EStateM.Result Stop Machine Flow :=
  word.perform scene { m with stack := .int relative :: below }

theorem perform_of_shadows
    (h : word.action scene m' = Action.turned s (word.action scene m)) :
    word.perform scene m' = Action.turned s (word.perform scene m) := by
  rw [Builtin.perform_eq, Builtin.perform_eq, h]
  cases word.action scene m with
  | ok a m => rfl
  | error stop m => rfl

/-- With the piece turned, a word that is given a direction does what it does with the sum
of the direction and the turn, up to full circles, before the piece is turned.  All of
these words but one take a second value. -/
theorem ask_turned (hword : word ∈ [Builtin.move, .shoot, .look, .identify])
    (hsum : (s + t) % 6 = u % 6) (hbelow : below = [] → word = .look) :
    (m.turned s).ask scene word t below = Action.turned s (m.ask scene word u below) := by
  apply perform_of_shadows
  cases below with
  | nil =>
    rw [hbelow rfl]
    exact Word.shadows_look scene m hsum []
  | cons first below =>
    simp only [List.mem_cons, List.not_mem_nil, or_false] at hword
    rcases hword with rfl | rfl | rfl | rfl
    · exact Word.shadows_move scene m hsum first below
    · exact Word.shadows_shoot scene m hsum first below
    · exact Word.shadows_look scene m hsum (first :: below)
    · exact Word.shadows_identify scene m hsum first below

/-- Without a second value, the words that take one fault and leave the direction where
it is. -/
theorem ask_alone (scene : Scene) (m : Machine)
    (hword : word ∈ [Builtin.move, .shoot, .identify]) (relative : Int) :
    m.ask scene word relative [] =
      .error (.fault .stackUnderflow) { m with stack := [.int relative] } := by
  simp only [List.mem_cons, List.not_mem_nil, or_false] at hword
  rcases hword with rfl | rfl | rfl
  · rfl
  · rfl
  · rfl

/-- The grid can be turned by a sixth of a circle: ways in the next direction lead to the
turned hexes, and neither hexes nor distances change, as far as nothing overflows.  Turns
of a piece and relative directions add up modulo six over unbounded integers, and the
sums they are computed from never overflow; so a word that is given a direction
after a turn does what it does with the sum before the turn, or faults as it does then for
want of a second value. -/
theorem turning_rotates :
    (∀ (a : Coord) (d : Direction) (n : Int),
      Agree (fun c c' => c' = c.turned) (a.offset d n) (a.turned.offset (d.rotated 1) n)) ∧
    (∀ a b : Coord, Agree Eq (a.sameHex b) (a.turned.sameHex b.turned) ∧
      Agree Eq (a.distance b) (a.turned.distance b.turned)) ∧
    (∀ (p : Piece) (s t : Int),
      p.facing.rotated? s = some (p.rotate s).facing ∧
      (p.rotate s).facing.rotated? t = some ((p.rotate s).rotate t).facing ∧
      (p.rotate s).facing.rotated? t = some ((p.rotate s).heading t) ∧
      (((p.rotate s).rotate t).facing.index : Int) = (p.facing.index + s + t) % 6 ∧
      (((p.rotate s).heading t).index : Int) = (p.facing.index + s + t) % 6) ∧
    ∀ (scene : Scene) (m : Machine) (s : Int) (rest : List Value), ∃ m',
      Builtin.turn.perform scene { m with stack := .int s :: rest } = .ok .proceed m' ∧
      (∀ word ∈ [Builtin.move, .shoot, .look, .identify], ∀ (t u : Int) (below : List Value),
        (s + t) % 6 = u % 6 → (below = [] → word = .look) →
        m'.ask scene word t below = Action.turned s (m.ask scene word u below)) ∧
      ∀ word ∈ [Builtin.move, .shoot, .identify], ∀ t u : Int,
        m'.ask scene word t [] = .error (.fault .stackUnderflow) { m' with stack := [.int t] } ∧
        m.ask scene word u [] = .error (.fault .stackUnderflow) { m with stack := [.int u] } := by
  refine ⟨Coord.agree_offset_turned, ?_, ?_, ?_⟩
  · intro a b
    exact ⟨a.agree_sameHex_turned b, a.agree_distance_turned b⟩
  · intro p s t
    refine ⟨p.rotated?_facing s, (p.rotate s).rotated?_facing t, (p.rotate s).rotated?_facing t,
      p.index_rotate_rotate s t, ?_⟩
    rw [p.heading_rotate, p.index_heading, Int.add_assoc]
  · intro scene m s rest
    refine ⟨turned s { m with stack := rest }, rfl, ?_, ?_⟩
    · intro word hword t u below hsum hbelow
      exact ask_turned (m := m) hword hsum hbelow
    · intro word hword t u
      exact ⟨ask_alone scene _ hword t, ask_alone scene m hword u⟩

/-- A scout that turns by the largest number of sixths and then moves by the least one
moves as if it had been told to move by five, before it turned; the way of the turned
grid ends in the turned hex. -/
theorem turning_rotates_extremes :
    Coord.offset ⟨-4, 0, 2⟩ .positiveY 3 = .ok ⟨-4, 3, 2⟩ ∧
    Coord.offset ⟨-2, -4, 0⟩ .positiveZ 3 = .ok (Coord.turned ⟨-4, 3, 2⟩) ∧
    ∃ m', Builtin.turn.perform ⟨⟨2, []⟩, 4⟩
        { Interpreter.startMachine .lone [] with stack := [.int 9223372036854775807] } =
          .ok .proceed m' ∧
      m'.ask ⟨⟨2, []⟩, 4⟩ .move (-9223372036854775808) [.int 1] =
        Action.turned 9223372036854775807
          ((Interpreter.startMachine .lone []).ask ⟨⟨2, []⟩, 4⟩ .move 5 [.int 1]) := by
  obtain ⟨hways, -, -, hwords⟩ := turning_rotates
  have hway : Coord.offset ⟨-4, 0, 2⟩ .positiveY 3 = .ok ⟨-4, 3, 2⟩ := rfl
  have hturned : Coord.offset ⟨-2, -4, 0⟩ .positiveZ 3 = .ok ⟨-2, -4, 3⟩ := rfl
  obtain ⟨m', hturn, hask, -⟩ := hwords ⟨⟨2, []⟩, 4⟩ (Interpreter.startMachine .lone [])
    9223372036854775807 []
  refine ⟨hway, ?_, m', hturn, ?_⟩
  · rw [← hways ⟨-4, 0, 2⟩ .positiveY 3 _ _ hway hturned]
    exact hturned
  · exact hask .move (by simp) _ 5 _ (by decide) nofun

end Machine

end Script

end HexArena
