import HexArena.Proofs.Board
import HexArena.Proofs.Script.Run
import HexArena.Script.Interpreter
import Mathlib.Logic.Relation

/-!
# What a script can change

However a script mixes its words, what it does to the machine is a sequence of a
few elementary changes: it rearranges the stack, prints, walks, turns, shoots,
sends and reads mail.  What each of these changes keeps, every word keeps, and so
does every step and every run, whether it faults or not.

Main results:

- Definition {lit}`Machine.Change`: the elementary changes of a machine.
- Definition {lit}`Machine.Stable`: a property that every elementary change
  keeps.
- Definition {lit}`Machine.Reaches`: one machine becomes another by elementary
  changes.
- Definition {lit}`Machine.Overflows`: the computations with coordinates that a
  script can fail in.
- Theorem {lit}`Builtin.preserves_perform`: every built-in word keeps a stable
  property.
- Theorem {lit}`Execution.run_stable`: so does every run, and it overflows only
  in one of these computations.
-/

namespace HexArena

/-! ## What a piece does -/

namespace Piece

/-- The steps of a move are a component, if the piece can pay for them. -/
theorem toComponent?_spaces (p : Piece) {spaces : Nat} (h : spaces ≤ p.movement) :
    (toComponent? spaces).getD maxComponent = spaces := by
  rw [toComponent?_of_fits (fits32_of_le (Nat.le_trans h p.movement_le)), Option.getD_some]

/-- The spaces a piece is asked to walk are cut off only beyond its movement. -/
theorem min_spaces (p : Piece) (spaces : Int) :
    min ((toCount? (max spaces 0)).getD maxCount) p.movement = min spaces.toNat p.movement :=
  min_toCount? spaces (Nat.le_trans p.movement_le (by decide))

/-- A distance in range is a component. -/
theorem wrap32_distance (p : Piece) {distance : Int}
    (h : ¬(distance < 1 ∨ (p.stats.range : Int) < distance)) : wrap32 distance = distance := by
  have hrange := p.stats_le.2
  unfold maxComponent at hrange
  apply wrap32_of_fits
  unfold Fits32
  omega

/-- A piece that can act pays for its steps and moves to the hex that many steps
away. -/
theorem move_eq_ok {p p' : Piece} {spaces : Nat} {d : Direction}
    (h : p.move spaces d = .ok (.ok p')) :
    p.blocked? = none ∧ spaces ≤ p.movement ∧
      ∃ position, p.position.offset d spaces = .ok position ∧ p' = p.moved position spaces := by
  unfold move at h
  split at h
  · cases h
  · rename_i hblocked
    split at h
    · cases h
    · rename_i henough
      obtain ⟨position, hposition, hmoved⟩ := bind_eq_ok.mp h
      rw [p.toComponent?_spaces (Nat.le_of_not_lt henough)] at hposition
      cases hmoved
      exact ⟨hblocked, Nat.le_of_not_lt henough, position, hposition, rfl⟩

/-- A piece that can act and has not shot spends its shot. -/
theorem shoot_eq_ok {p p' : Piece} {damage : Nat} (h : p.shoot = .ok (damage, p')) :
    p.blocked? = none ∧ p.hasShot = false ∧ damage = p.stats.attack ∧
      p' = { p with hasShot := true } := by
  unfold shoot at h
  split at h
  · cases h
  · rename_i hblocked
    split at h
    · cases h
    · rename_i hshot
      cases h
      exact ⟨hblocked, eq_false_of_ne_true hshot, rfl, rfl⟩

end Piece

namespace Script

open Checked

/-! ## What words ask the board -/

/-- Looking for another occupant of a hex overflows only in a component. -/
theorem otherOccupant_ofComponent (scene : Scene) (self : PieceId) (cell : Coord) :
    OfComponent (otherOccupant scene self cell) := by
  unfold otherOccupant
  exact (Board.occupant_ofComponent _ _).bind fun found => .ok _

/-- An occupant other than the acting piece is one of the snapshots. -/
theorem otherOccupant_eq_some {scene : Scene} {self : PieceId} {cell : Coord} {s : Snapshot}
    (h : otherOccupant scene self cell = .ok (some s)) :
    s ∈ scene.board.snapshots ∧ s.id ≠ self := by
  unfold otherOccupant at h
  obtain ⟨found, hfound, hother⟩ := bind_eq_ok.mp h
  have hfilter : found.filter (·.id ≠ self) = some s := Except.ok.inj hother
  obtain ⟨rfl, hne⟩ := Option.filter_eq_some_iff.mp hfilter
  exact ⟨Board.mem_of_occupant hfound, of_decide_eq_true hne⟩

/-- An occupant other than the acting piece stands on the hex. -/
theorem sameHex_of_otherOccupant {scene : Scene} {self : PieceId} {cell : Coord} {s : Snapshot}
    (h : otherOccupant scene self cell = .ok (some s)) : s.position.sameHex cell = .ok true := by
  unfold otherOccupant at h
  obtain ⟨found, hfound, hother⟩ := bind_eq_ok.mp h
  have hfilter : found.filter (·.id ≠ self) = some s := Except.ok.inj hother
  obtain ⟨rfl, -⟩ := Option.filter_eq_some_iff.mp hfilter
  exact Board.sameHex_of_firstOn hfound

namespace Word

/-- Asking whether a hex is free overflows only in a component. -/
theorem isFree_ofComponent (scene : Scene) (self : PieceId) (cell : Coord) :
    OfComponent (isFree scene self cell) := by
  unfold isFree
  refine (Board.contains_ofComponent _ _).bind fun inside => .ite ?_ (.ok false)
  exact (otherOccupant_ofComponent _ _ _).bind fun other => .ok _

/-- As long as the steps are components, the way is looked at hex by hex. -/
theorem freeSteps_succ_eq {scene : Scene} {actor : PieceId} {start : Coord} {d : Direction}
    {walked : Nat} (budget : Nat) (h : walked < maxComponent) :
    freeSteps scene actor start d walked (budget + 1) = (do
      let cell ← start.offset d (walked + 1)
      if ← isFree scene actor cell then freeSteps scene actor start d (walked + 1) budget
      else return walked) := by
  have hfits : Fits32 ((walked : Int) + 1) := fits32_of_le h
  rw [freeSteps, wrap32_of_fits hfits]

/-- Looking along the way ahead overflows only in a component. -/
theorem freeSteps_ofComponent (scene : Scene) (self : PieceId) (start : Coord) (d : Direction)
    (walked budget : Nat) : OfComponent (freeSteps scene self start d walked budget) := by
  induction budget generalizing walked with
  | zero => exact .ok walked
  | succ budget ih =>
    unfold freeSteps
    refine (Coord.offset_ofComponent _ _ _).bind fun cell => ?_
    exact (isFree_ofComponent _ _ _).bind fun free => .ite (ih _) (.ok walked)

/-- A free hex lies on the board, and nobody else is seen on it. -/
theorem isFree_eq_true {scene : Scene} {actor : PieceId} {cell : Coord}
    (h : isFree scene actor cell = .ok true) :
    cell.Within scene.board.radius ∧ otherOccupant scene actor cell = .ok none := by
  unfold isFree at h
  obtain ⟨inside, hinside, hrest⟩ := bind_eq_ok.mp h
  cases inside with
  | false => cases hrest
  | true =>
    obtain ⟨other, hother, hnone⟩ := bind_eq_ok.mp hrest
    refine ⟨Board.contains_eq_true hinside, ?_⟩
    cases other with
    | none => exact hother
    | some s => cases hnone

/-- The last hex of a free way is free, unless there was nothing to walk. -/
theorem freeSteps_eq_ok {scene : Scene} {actor : PieceId} {start : Coord} {d : Direction}
    {walked budget n : Nat} (hbound : walked + budget ≤ maxComponent)
    (h : freeSteps scene actor start d walked budget = .ok n) :
    n ≤ walked + budget ∧
      (n = walked ∨ ∃ cell, start.offset d n = .ok cell ∧ isFree scene actor cell = .ok true) := by
  induction budget generalizing walked with
  | zero =>
    cases h
    exact ⟨Nat.le_refl _, Or.inl rfl⟩
  | succ budget ih =>
    rw [freeSteps_succ_eq budget (by omega)] at h
    obtain ⟨cell, hcell, hrest⟩ := bind_eq_ok.mp h
    obtain ⟨free, hfree, hdone⟩ := bind_eq_ok.mp hrest
    cases free with
    | false =>
      cases hdone
      exact ⟨Nat.le_add_right _ _, Or.inl rfl⟩
    | true =>
      obtain ⟨hle, hlast⟩ := ih (by omega) hdone
      refine ⟨by omega, Or.inr ?_⟩
      rcases hlast with rfl | hlast
      · exact ⟨cell, hcell, hfree⟩
      · exact hlast

/-- Following a ray overflows only in a component. -/
theorem firstSeen_ofComponent (scene : Scene) (self : PieceId) (d : Direction) (step : Int)
    (cell : Coord) : OfComponent (firstSeen scene self d step cell) := by
  fun_induction firstSeen scene self d step cell with
  | case1 step cell cause hcause =>
    rintro cause' ⟨⟩
    exact Board.contains_ofComponent _ _ cause hcause
  | case2 => exact .ok 0
  | case3 step cell _ cause hcause =>
    rintro cause' ⟨⟩
    exact otherOccupant_ofComponent _ _ _ cause hcause
  | case4 step => exact .ok step
  | case5 step cell _ _ cause hcause =>
    rintro cause' ⟨⟩
    exact Coord.neighbor_ofComponent _ _ cause hcause
  | case6 step cell _ _ next _ ih => exact ih

end Word

/-! ## Elementary changes -/

/-- The elementary changes of a machine. -/
inductive Machine.Change (scene : Scene) : Machine → Machine → Prop
  /-- The stack becomes another one. -/
  | stack (m : Machine) (stack : List Value) : Change scene m { m with stack := stack }
  /-- A text is printed in the name of the piece. -/
  | print (m : Machine) (text : String) :
    Change scene m { m with log := m.log ++ [.printed m.piece.id text] }
  /-- The piece walks as far as the way is free. -/
  | walk (m : Machine) {d : Direction} {budget walked : Nat} {moved : Piece}
    (hbudget : budget ≤ m.piece.movement)
    (hfree : Word.freeSteps scene m.piece.id m.piece.position d 0 budget = .ok walked)
    (hmove : m.piece.move walked d = .ok (.ok moved)) : Change scene m { m with piece := moved }
  | turn (m : Machine) (steps : Int) : Change scene m { m with piece := m.piece.rotate steps }
  /-- The piece spends its shot and hits nothing. -/
  | miss (m : Machine) {damage : Nat} {spent : Piece}
    (hshoot : m.piece.shoot = .ok (damage, spent)) : Change scene m { m with piece := spent }
  /-- The piece spends its shot on an active piece. -/
  | hit (m : Machine) {damage : Nat} {spent : Piece} {cell : Coord} {target : Snapshot}
    (hshoot : m.piece.shoot = .ok (damage, spent))
    (htarget : otherOccupant scene m.piece.id cell = .ok (some target))
    (hactive : target.active = true) :
    Change scene m
      { m with
        piece := spent
        commands := m.commands ++ [.resolveShot m.piece.id target.id damage] }
  | send (m : Machine) {recipient payload : String} {mailboxes : Directory}
    (hsend : m.mailboxes.send m.piece.id recipient payload = .ok mailboxes) :
    Change scene m { m with mailboxes := mailboxes }
  | receive (m : Machine) {sender payload : String} {mailboxes : Directory}
    (hreceive : m.mailboxes.receive m.piece.id.name sender = some (payload, mailboxes)) :
    Change scene m { m with mailboxes := mailboxes }
  | clearMail (m : Machine) :
    Change scene m { m with mailboxes := m.mailboxes.clear m.piece.id.name }

/-- Every elementary change keeps the property. -/
def Machine.Stable (scene : Scene) (kept : Machine → Prop) : Prop :=
  ∀ m m', m.Change scene m' → kept m → kept m'

/-- The machine becomes another one by elementary changes. -/
def Machine.Reaches (scene : Scene) (m m' : Machine) : Prop :=
  Relation.ReflTransGen (Machine.Change scene) m m'

/-- To be reached from some machine is stable. -/
theorem Machine.Reaches.stable (scene : Scene) (start : Machine) :
    Machine.Stable scene (start.Reaches scene) :=
  fun _ _ hchange hreaches => hreaches.tail hchange

/-- What is stable holds of every machine that is reached. -/
theorem Machine.Stable.of_reaches {scene : Scene} {kept : Machine → Prop}
    (h : Machine.Stable scene kept) {m m' : Machine} (hm : kept m)
    (hreaches : m.Reaches scene m') : kept m' := by
  induction hreaches with
  | refl => exact hm
  | tail _ hchange ih => exact h _ _ hchange ih

/-! ## Overflows -/

/-- Who else stands on the hex some steps from a place. -/
def occupantAt (scene : Scene) (self : PieceId) (start : Coord) (d : Direction) (steps : Int) :
    Checked (Option Snapshot) := do
  let cell ← start.offset d steps
  otherOccupant scene self cell

/-- A computation with coordinates that a word asks for overflows. -/
inductive Machine.Overflows (scene : Scene) (m : Machine) (cause : Overflow) : Prop
  /-- The way ahead is looked at, as far as the piece can go. -/
  | survey {d : Direction} {budget : Nat} (hbudget : budget ≤ m.piece.movement)
    (h : Word.freeSteps scene m.piece.id m.piece.position d 0 budget = .error cause)
  /-- The piece walks as far as the way is free. -/
  | walk {d : Direction} {budget walked : Nat} (hbudget : budget ≤ m.piece.movement)
    (hfree : Word.freeSteps scene m.piece.id m.piece.position d 0 budget = .ok walked)
    (h : m.piece.move walked d = .error cause)
  /-- A hex in range, or not farther than the board is wide, is looked at. -/
  | occupant {d : Direction} {steps : Int} (hpositive : 1 ≤ steps)
    (hnear : steps ≤ m.piece.stats.range ∨ steps ≤ 2 * scene.board.radius)
    (h : occupantAt scene m.piece.id m.piece.position d steps = .error cause)
  /-- A ray is followed to the first piece or to the edge. -/
  | look {d : Direction}
    (h : (do
      let cell ← m.piece.position.neighbor d
      Word.firstSeen scene m.piece.id d 1 cell) = .error cause)
  /-- The pieces in range are counted. -/
  | enemies (h : scene.board.within m.piece.position m.piece.stats.range = .error cause)

/-- Only a component overflows. -/
theorem Machine.Overflows.component {scene : Scene} {m : Machine} {cause : Overflow}
    (h : m.Overflows scene cause) : cause = .component := by
  cases h with
  | survey _ h => exact Word.freeSteps_ofComponent _ _ _ _ _ _ cause h
  | walk _ _ h => exact Piece.move_ofComponent _ _ _ cause h
  | @occupant d steps _ _ h =>
    have hcell := (Coord.offset_ofComponent m.piece.position d steps).bind
      fun cell => otherOccupant_ofComponent scene m.piece.id cell
    exact hcell cause h
  | @look d h =>
    have hseen := (Coord.neighbor_ofComponent m.piece.position d).bind
      fun cell => Word.firstSeen_ofComponent scene m.piece.id d 1 cell
    exact hseen cause h
  | enemies h => exact Board.within_ofComponent _ _ _ cause h

namespace Action

/-- The action leaves a machine with the property, also when it faults, and
overflows only in a computation on such a machine. -/
def StaysIn {α : Type} (scene : Scene) (kept : Machine → Prop) (action : Action α)
    (m : Machine) : Prop :=
  match action m with
  | .ok _ m' => kept m'
  | .error (.fault _) m' => kept m'
  | .error (.overflow cause) _ => ∃ m', kept m' ∧ m'.Overflows scene cause

/-- The action keeps the property. -/
def Preserves {α : Type} (scene : Scene) (kept : Machine → Prop) (action : Action α) : Prop :=
  ∀ m, kept m → action.StaysIn scene kept m

section Preserves

variable {α β : Type} {scene : Scene} {kept : Machine → Prop}

/-- An action that only returns a value keeps every property. -/
theorem preserves_pure (a : α) : Preserves scene kept (pure a) :=
  fun _ hm => hm

/-- So does an action that faults at once. -/
theorem preserves_raise (fault : WordFault) : Preserves scene kept (raise fault : Action α) :=
  fun _ hm => hm

/-- So does an action that takes over a result. -/
theorem preserves_ofResult (result : Except WordFault α) :
    Preserves scene kept (ofResult result) := by
  cases result with
  | ok a => exact preserves_pure a
  | error fault => exact preserves_raise fault

/-- Two actions in a row keep what both keep. -/
theorem Preserves.bind {first : Action α} {later : α → Action β}
    (hfirst : Preserves scene kept first)
    (hlater : ∀ a, Preserves scene kept (later a)) : Preserves scene kept (first >>= later) := by
  intro m hm
  have hm' := hfirst m hm
  simp only [StaysIn, Bind.bind, EStateM.bind] at hm' ⊢
  cases hfirst : first m with
  | ok a m' =>
    rw [hfirst] at hm'
    exact hlater a m' hm'
  | error stop m' =>
    rw [hfirst] at hm'
    cases stop with
    | fault fault => exact hm'
    | overflow cause => exact hm'

/-- A choice between two actions keeps what both keep. -/
theorem Preserves.ite {p : Prop} [Decidable p] {yes no : Action α} (hyes : Preserves scene kept yes)
    (hno : Preserves scene kept no) : Preserves scene kept (if p then yes else no) := by
  split
  · exact hyes
  · exact hno

/-- An action that looks at the machine first keeps what it keeps for every
machine it sees. -/
theorem preserves_get_bind {later : Machine → Action β}
    (hlater : ∀ m, kept m → (later m).StaysIn scene kept m) :
    Preserves scene kept (get >>= later) :=
  hlater

/-- A change of the machine keeps what it keeps of every machine. -/
theorem preserves_modify {f : Machine → Machine} (hf : ∀ m, kept m → kept (f m)) :
    Preserves scene kept (modify f) :=
  hf

/-- An action that changes the machine first stays where the rest stays from there. -/
theorem staysIn_modify_bind {f : Machine → Machine} {later : Unit → Action β} {m : Machine}
    (hlater : (later ()).StaysIn scene kept (f m)) : StaysIn scene kept (modify f >>= later) m :=
  hlater

/-- An action that goes on with a computed value goes on from the same
machine, and overflows if the computation does. -/
theorem staysIn_ofChecked_bind {c : Checked α} {later : α → Action β} {m m₀ : Machine}
    (hm₀ : kept m₀) (hc : ∀ cause, c = .error cause → m₀.Overflows scene cause)
    (hlater : ∀ a, c = .ok a → (later a).StaysIn scene kept m) :
    StaysIn scene kept (ofChecked c >>= later) m := by
  cases c with
  | ok a => exact hlater a rfl
  | error cause => exact ⟨m₀, hm₀, hc cause rfl⟩

end Preserves

end Action

/-! ## Words -/

section Words

variable {scene : Scene} {kept : Machine → Prop}

open HexArena.Script.Action

/-- Pushing a value changes only the stack. -/
theorem preserves_push (h : Machine.Stable scene kept) (value : Value) :
    (push scene value).Preserves scene kept := by
  refine preserves_get_bind fun m hm => ?_
  split
  · exact h m _ (.stack m _) hm
  · exact hm

/-- Taking the top value changes only the stack. -/
theorem preserves_pop (h : Machine.Stable scene kept) : pop.Preserves scene kept := by
  refine preserves_get_bind fun m hm => ?_
  split
  · exact hm
  · exact h m _ (.stack m _) hm

/-- So does taking the two top values. -/
theorem preserves_popPair (h : Machine.Stable scene kept) : popPair.Preserves scene kept := by
  refine preserves_get_bind fun m hm => ?_
  split
  · exact h m _ (.stack m _) hm
  · exact hm

/-- Looking at a value changes nothing. -/
theorem preserves_peek (depth : Nat) : (peek depth).Preserves scene kept := by
  refine preserves_get_bind fun m hm => ?_
  split
  · exact hm
  · exact hm

/-- Taking an integer takes the top value, whatever it is. -/
theorem preserves_popInt (h : Machine.Stable scene kept) : popInt.Preserves scene kept :=
  (preserves_pop h).bind fun value => preserves_ofResult value.toInt

/-- So does taking a text. -/
theorem preserves_popText (h : Machine.Stable scene kept) : popText.Preserves scene kept :=
  (preserves_pop h).bind fun value => preserves_pure value.toText

/-- Taking two integers takes the two top values. -/
theorem preserves_popIntPair (h : Machine.Stable scene kept) : popIntPair.Preserves scene kept := by
  refine (preserves_popPair h).bind fun ⟨first, second⟩ => ?_
  refine (preserves_ofResult first.toInt).bind fun first => ?_
  exact (preserves_ofResult second.toInt).bind fun second => preserves_pure (first, second)

namespace Word

/-! ### The stack, numbers and texts -/

/-- Swapping the two top values changes only the stack. -/
theorem preserves_swap (h : Machine.Stable scene kept) : (swap scene).Preserves scene kept := by
  refine (preserves_popPair h).bind fun ⟨first, second⟩ => ?_
  exact (preserves_push h second).bind fun _ => preserves_push h first

/-- So does rotating the three top values. -/
theorem preserves_rot (h : Machine.Stable scene kept) : (rot scene).Preserves scene kept := by
  refine (preserves_peek 2).bind fun _ => ?_
  refine (preserves_popPair h).bind fun ⟨second, third⟩ => ?_
  refine (preserves_pop h).bind fun first => ?_
  refine (preserves_push h second).bind fun _ => ?_
  exact (preserves_push h third).bind fun _ => preserves_push h first

/-- So does pushing the height of the stack. -/
theorem preserves_depth (h : Machine.Stable scene kept) : (depth scene).Preserves scene kept := by
  refine preserves_get_bind fun m hm => ?_
  exact Preserves.ite (preserves_push h _) (preserves_raise _) m hm

/-- An operation on two integers changes only the stack. -/
theorem preserves_arithmetic (h : Machine.Stable scene kept)
    (operation : Int → Int → Except WordFault Int) :
    (arithmetic scene operation).Preserves scene kept := by
  refine (preserves_popIntPair h).bind fun ⟨left, right⟩ => ?_
  exact (preserves_ofResult _).bind fun result => preserves_push h _

/-- So does an operation on one integer. -/
theorem preserves_unary (h : Machine.Stable scene kept) (operation : Int → Except WordFault Int) :
    (unary scene operation).Preserves scene kept := by
  refine (preserves_popInt h).bind fun n => ?_
  exact (preserves_ofResult _).bind fun result => preserves_push h _

/-- So does a test of two values. -/
theorem preserves_test (h : Machine.Stable scene kept) (holds : Value → Value → Bool) :
    (test scene holds).Preserves scene kept :=
  (preserves_popPair h).bind fun _ => preserves_push h _

/-- So does a comparison of two integers. -/
theorem preserves_compare (h : Machine.Stable scene kept) (holds : Int → Int → Bool) :
    (compare scene holds).Preserves scene kept :=
  (preserves_popIntPair h).bind fun _ => preserves_push h _

/-- Printing a text is an elementary change after the text is taken. -/
theorem preserves_print (h : Machine.Stable scene kept) : print.Preserves scene kept := by
  refine (preserves_pop h).bind fun value => ?_
  exact preserves_modify fun m hm => h m _ (.print m value.toText) hm

/-- A word that asks the piece something pushes the answer. -/
theorem preserves_answer (h : Machine.Stable scene kept) (answer : Machine → Value) :
    Preserves scene kept (do let m ← get; push scene (answer m)) :=
  preserves_get_bind fun m hm => preserves_push h (answer m) m hm

/-! ### The piece -/

/-- A walk is an elementary change, along the steps that are found to be free. -/
theorem preserves_move (h : Machine.Stable scene kept) : (move scene).Preserves scene kept := by
  refine (preserves_popIntPair h).bind fun ⟨spaces, relative⟩ => ?_
  refine preserves_get_bind fun m hm => ?_
  have hbudget : min spaces.toNat m.piece.movement ≤ m.piece.movement := Nat.min_le_right _ _
  dsimp only
  rw [m.piece.min_spaces spaces]
  refine staysIn_ofChecked_bind hm (fun cause => .survey hbudget) fun walked hfree => ?_
  split
  · exact preserves_push h _ m hm
  · refine staysIn_ofChecked_bind hm (fun cause => .walk hbudget hfree) fun result hmove => ?_
    cases result with
    | ok moved =>
      have hwalked : kept { m with piece := moved } := h m _ (.walk m hbudget hfree hmove) hm
      exact preserves_push h _ _ hwalked
    | error _ => exact preserves_push h _ m hm

/-- A shot is an elementary change, be it a hit or a miss. -/
theorem preserves_shoot (h : Machine.Stable scene kept) : (shoot scene).Preserves scene kept := by
  refine (preserves_popIntPair h).bind fun ⟨distance, relative⟩ => ?_
  refine preserves_get_bind fun m hm => ?_
  dsimp only
  split
  · exact preserves_push h _ m hm
  · rename_i hrange
    split
    · exact preserves_push h _ m hm
    · rename_i damage spent hshoot
      rw [m.piece.wrap32_distance hrange]
      have hoverflow : ∀ cause,
          occupantAt scene m.piece.id m.piece.position (m.piece.heading relative) distance =
            .error cause → m.Overflows scene cause :=
        fun cause => .occupant (by omega) (Or.inl (by omega))
      -- The shot is spent before it is known whether it hits: both changes start from here.
      refine staysIn_modify_bind ?_
      refine staysIn_ofChecked_bind hm (fun cause hcell => hoverflow cause ?_) fun cell hcell => ?_
      · rw [occupantAt, hcell]
        rfl
      refine staysIn_ofChecked_bind hm (fun cause hother => hoverflow cause ?_)
        fun other hother => ?_
      · rw [occupantAt, hcell]
        exact hother
      split
      · rename_i target htarget
        obtain ⟨rfl, hactive⟩ := Option.filter_eq_some_iff.mp htarget
        refine staysIn_modify_bind ?_
        exact preserves_push h _ _ (h m _ (.hit m hshoot hother hactive) hm)
      · exact preserves_push h _ _ (h m _ (.miss m hshoot) hm)

/-- Turning the piece is an elementary change. -/
theorem preserves_turn (h : Machine.Stable scene kept) : turn.Preserves scene kept := by
  refine (preserves_popInt h).bind fun steps => ?_
  exact preserves_modify fun m hm => h m _ (.turn m steps) hm

/-! ### Sight -/

/-- Looking ahead changes only the stack. -/
theorem preserves_look (h : Machine.Stable scene kept) : (look scene).Preserves scene kept := by
  refine (preserves_popInt h).bind fun relative => ?_
  refine preserves_get_bind fun m hm => ?_
  exact staysIn_ofChecked_bind hm (fun cause => .look) fun seen _ => preserves_push h _ m hm

/-- So does asking who stands on a hex. -/
theorem preserves_identify (h : Machine.Stable scene kept) :
    (identify scene).Preserves scene kept := by
  refine (preserves_popIntPair h).bind fun ⟨distance, relative⟩ => ?_
  refine preserves_get_bind fun m hm => ?_
  split
  · rename_i hnear
    obtain ⟨-, hpositive, hnear⟩ := hnear
    exact staysIn_ofChecked_bind hm (fun cause => .occupant hpositive (Or.inr hnear))
      fun other _ => preserves_push h _ m hm
  · exact preserves_push h _ m hm

/-- So does counting the enemies in range. -/
theorem preserves_enemies (h : Machine.Stable scene kept) :
    (enemies scene).Preserves scene kept := by
  refine preserves_get_bind fun m hm => ?_
  refine staysIn_ofChecked_bind hm (fun cause => .enemies) fun near _ => ?_
  exact Preserves.ite (preserves_push h _) (preserves_raise _) m hm

/-! ### Mail -/

/-- Sending a message is an elementary change if the message is accepted. -/
theorem preserves_send (h : Machine.Stable scene kept) : (send scene).Preserves scene kept := by
  refine (preserves_popText h).bind fun recipient => ?_
  refine (preserves_popText h).bind fun payload => ?_
  refine preserves_get_bind fun m hm => ?_
  split
  · rename_i mailboxes hsend
    exact preserves_push h _ _ (h m _ (.send m hsend) hm)
  · exact preserves_push h _ m hm

/-- Receiving a message is an elementary change if there is one. -/
theorem preserves_receive (h : Machine.Stable scene kept) :
    (receive scene).Preserves scene kept := by
  refine (preserves_popText h).bind fun sender => ?_
  refine preserves_get_bind fun m hm => ?_
  split
  · rename_i payload mailboxes hreceive
    exact preserves_push h _ _ (h m _ (.receive m hreceive) hm)
  · exact preserves_push h _ m hm

/-- Asking for a message changes only the stack. -/
theorem preserves_hasMessage (h : Machine.Stable scene kept) :
    (hasMessage scene).Preserves scene kept :=
  (preserves_popText h).bind fun _ => preserves_answer h _

/-- Emptying the mailbox is an elementary change. -/
theorem preserves_clearMail (h : Machine.Stable scene kept) : clearMail.Preserves scene kept :=
  preserves_modify fun m hm => h m _ (.clearMail m) hm

end Word

end Words

/-- Every built-in word keeps what every elementary change keeps. -/
theorem Builtin.preserves_action {scene : Scene} {kept : Machine → Prop}
    (h : Machine.Stable scene kept) (word : Builtin) :
    (word.action scene).Preserves scene kept := by
  cases word with
  | dup => exact (preserves_peek 0).bind fun _ => preserves_push h _
  | drop => exact (preserves_pop h).bind fun _ => Action.preserves_pure ()
  | swap => exact Word.preserves_swap h
  | pull => exact (preserves_peek 1).bind fun _ => preserves_push h _
  | rot => exact Word.preserves_rot h
  | nip => exact (preserves_popPair h).bind fun _ => preserves_push h _
  | depth => exact Word.preserves_depth h
  | clear => exact Action.preserves_modify fun m hm => h m _ (.stack m []) hm
  | add | subtract | multiply | divide | remainder | minimum | maximum =>
    unfold action
    exact Word.preserves_arithmetic h _
  | negate | absolute => exact Word.preserves_unary h _
  | equal | notEqual | conjunction | disjunction =>
    unfold action
    exact Word.preserves_test h _
  | less | greater | lessOrEqual | greaterOrEqual =>
    unfold action
    exact Word.preserves_compare h _
  | negation => exact (preserves_pop h).bind fun _ => preserves_push h _
  | concat => exact (preserves_popPair h).bind fun _ => preserves_push h _
  | toNumber => exact (preserves_pop h).bind fun _ => preserves_push h _
  | print => exact Word.preserves_print h
  | health | moves | range | attack | facing | turns | hasShot | myId =>
    exact Word.preserves_answer h _
  | move => exact Word.preserves_move h
  | shoot => exact Word.preserves_shoot h
  | turn => exact Word.preserves_turn h
  | look => exact Word.preserves_look h
  | identify => exact Word.preserves_identify h
  | enemies => exact Word.preserves_enemies h
  | send => exact Word.preserves_send h
  | receive => exact Word.preserves_receive h
  | hasMessage => exact Word.preserves_hasMessage h
  | clearMail => exact Word.preserves_clearMail h
  | finish => exact Action.preserves_pure ()

/-- So does every built-in word as a script performs it. -/
theorem Builtin.preserves_perform {scene : Scene} {kept : Machine → Prop}
    (h : Machine.Stable scene kept) (word : Builtin) : (word.perform scene).Preserves scene kept :=
  (word.preserves_action h).bind fun _ => Action.preserves_pure word.flow

/-! ## Steps and runs -/

/-- The step leaves a machine with the property, however it ends, and overflows
only in a computation on such a machine. -/
abbrev Step.Stays (scene : Scene) (kept : Machine → Prop) (step : Step) : Prop :=
  step.Keeps (fun e => kept e.machine) (fun _ e => kept e.machine)
    (fun cause => ∃ m, kept m ∧ m.Overflows scene cause)

namespace Execution

variable {scene : Scene} {limits : Limits} {kept : Machine → Prop} {e : Execution}

/-- A step that acts keeps what its action keeps and what comes next keeps. -/
theorem stays_act {α : Type} {word : String} {action : Action α} {next : α → Execution → Step}
    (haction : action.Preserves scene kept) (hm : kept e.machine)
    (hnext : ∀ a m, kept m → (next a { e with machine := m }).Stays scene kept) :
    (e.act word action next).Stays scene kept := by
  have hm' := haction e.machine hm
  unfold Action.StaysIn at hm'
  unfold act
  cases hresult : action e.machine with
  | ok a m =>
    rw [hresult] at hm'
    exact hnext a m hm'
  | error stop m =>
    rw [hresult] at hm'
    cases stop with
    | fault fault => exact hm'
    | overflow cause => exact hm'

/-- Invoking a name keeps what every elementary change keeps. -/
theorem stays_invoke (h : Machine.Stable scene kept) (hm : kept e.machine) (name : String)
    (depth : Nat) : (e.invoke scene limits name depth).Stays scene kept := by
  unfold invoke
  split
  · rename_i word _
    refine stays_act (word.preserves_perform h) hm fun flow m hm => ?_
    cases flow with
    | proceed => exact hm
    | halt => exact hm
  · split
    · exact hm
    · exact hm
  · exact hm

/-- A jump changes only the queue. -/
theorem stays_jump (hm : kept e.machine) (opener : Keyword) (rest : Option (List Pending)) :
    (e.jump opener rest).Stays scene kept := by
  cases rest with
  | some rest => exact hm
  | none => exact hm

/-- A control word changes the machine only by the test that it takes. -/
theorem stays_control (h : Machine.Stable scene kept) (hm : kept e.machine) (word : Keyword)
    (name : String) (depth : Nat) : (e.control word name depth).Stays scene kept := by
  cases word with
  | colon =>
    unfold control
    cases collectDefinition e.pending with
    | error error => exact hm
    | ok collected =>
      obtain ⟨new, rest⟩ := collected
      dsimp only
      cases e.dictionary.define new with
      | error error => exact hm
      | ok dictionary => exact hm
  | branch =>
    unfold control
    refine stays_act (preserves_pop h) hm fun flag m hm => ?_
    split
    · exact hm
    · exact stays_jump hm _ _
  | otherwise => exact stays_jump hm _ _
  | join => exact hm
  | loop => exact stays_jump hm _ _
  | semicolon | again => exact hm

/-- A step keeps what every elementary change keeps. -/
theorem stays_step (h : Machine.Stable scene kept) (hm : kept e.machine) (item : Pending) :
    (e.step scene limits item).Stays scene kept := by
  unfold step
  split
  · exact stays_act (preserves_push h _) hm fun _ m hm => hm
  · exact stays_act (preserves_push h _) hm fun _ m hm => hm
  · split
    · exact stays_control h hm _ _ _
    · exact stays_invoke h hm _ _
  · refine stays_act (preserves_pop h) hm fun done m hm => ?_
    split
    · exact hm
    · exact hm

/-- A run keeps what every elementary change keeps, and overflows only in a
computation on a machine with that property. -/
theorem run_stable (h : Machine.Stable scene kept) (hm : kept e.machine) (limits : Limits)
    (fuel : Nat) :
    match run scene limits fuel e with
    | .ok (_, stop) => kept stop.machine
    | .error cause => ∃ m, kept m ∧ m.Overflows scene cause := by
  let goesOn (e : Execution) := kept e.machine
  let stops (_ : Outcome) (e : Execution) := kept e.machine
  have hempty : ∀ e, goesOn e → e.pending = [] → stops .completed e :=
    fun e he _ => he
  have hlimit : ∀ e item rest, goesOn e → e.pending = item :: rest →
      stops (.faulted (.stepLimitExceeded limits.stepLimit)) { e with pending := rest } :=
    fun e item rest he _ => he
  have hstep : ∀ e item rest, goesOn e → e.pending = item :: rest →
      (step { e with pending := rest } scene limits item).Stays scene kept :=
    fun e item rest he _ => stays_step (e := { e with pending := rest }) h he item
  exact run_induction hempty hlimit hstep fuel hm

end Execution

end Script

end HexArena
