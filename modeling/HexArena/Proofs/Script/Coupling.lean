import HexArena.Proofs.Hex.SameHex
import HexArena.Proofs.Script.Change

/-!
# Words on two machines

The same word is done on two machines that differ only in the triple that says
where their piece stands, in scenes that show the same to both.  It does the same
to both, unless it stops one of them for a reason that excuses it: an overflow, or
a fault that the other one need not share.

Main results:

- Definition {lit}`Coupling`: how two runs may differ.
- Definition {lit}`Coupling.Coupled`: two actions do the same to two machines.
- Definition {lit}`Coupling.Sees`: what two scenes have to show for it.
- Theorem {lit}`Builtin.coupled_perform`: every built-in word does the same to two
  machines.
-/

namespace HexArena.Script

/-! ## Couplings -/

/-- How two runs may differ. -/
structure Coupling where
  /-- The triple of the second run for a triple of the first. -/
  near : Coord → Coord → Prop
  /-- A fault of the first run after which the second may go its own way. -/
  lost : Error → Prop
  /-- An overflow of either run excuses both. -/
  loose : Prop

/-- The same machine, but for the triple that says where its piece stands. -/
def Machine.Alike (near : Coord → Coord → Prop) (m m' : Machine) : Prop :=
  ∃ piece, m.piece.Alike near piece ∧ m' = { m with piece := piece }

namespace Coupling

variable {α β γ δ : Type} (C : Coupling)

/-- Two computations with coordinates have related results or the same overflow,
unless one of them is excused. -/
inductive Checks (related : α → β → Prop) : Checked α → Checked β → Prop
  | ok {a : α} {b : β} (h : related a b) : Checks related (.ok a) (.ok b)
  | error (cause : Overflow) : Checks related (.error cause) (.error cause)
  | left (h : C.loose) (cause : Overflow) (c' : Checked β) : Checks related (.error cause) c'
  | right (h : C.loose) (c : Checked α) (cause : Overflow) : Checks related c (.error cause)

/-- Two actions have related results or stop alike, and leave machines that are
alike, unless one of them is excused. -/
inductive Results (related : α → β → Prop) :
    EStateM.Result Stop Machine α → EStateM.Result Stop Machine β → Prop
  | ok {a : α} {b : β} {m m' : Machine} (h : related a b) (hm : m.Alike C.near m') :
    Results related (.ok a m) (.ok b m')
  | error {m m' : Machine} (stop : Stop) (hm : m.Alike C.near m') :
    Results related (.error stop m) (.error stop m')
  | lost {fault : WordFault} (h : ∀ word, C.lost (.wordFailed word fault)) (m : Machine)
    (result' : EStateM.Result Stop Machine β) :
    Results related (.error (.fault fault) m) result'
  | left (h : C.loose) (cause : Overflow) (m : Machine)
    (result' : EStateM.Result Stop Machine β) :
    Results related (.error (.overflow cause) m) result'
  | right (h : C.loose) (result : EStateM.Result Stop Machine α) (cause : Overflow)
    (m' : Machine) : Results related result (.error (.overflow cause) m')

/-- Two actions on machines that are alike. -/
def Coupled (related : α → β → Prop) (action : Action α) (action' : Action β) : Prop :=
  ∀ m m', m.Alike C.near m' → C.Results related (action m) (action' m')

variable {C} {related : α → β → Prop} {related' : γ → δ → Prop}

/-- Where overflows are excused, computations correspond if they agree as far as neither
overflows. -/
theorem Checks.of_agree (hloose : C.loose) {c : Checked α} {c' : Checked β}
    (h : Checked.Agree related c c') : C.Checks related c c' := by
  cases c with
  | error cause => exact .left hloose cause c'
  | ok a =>
    cases c' with
    | error cause => exact .right hloose _ cause
    | ok b => exact .ok (h a b rfl rfl)

/-- Computations that go on from related results correspond. -/
theorem Checks.bind {first : Checked α} {first' : Checked β} {later : α → Checked γ}
    {later' : β → Checked δ} (hfirst : C.Checks related first first')
    (hlater : ∀ a b, related a b → C.Checks related' (later a) (later' b)) :
    C.Checks related' (first >>= later) (first' >>= later') := by
  cases hfirst with
  | ok h => exact hlater _ _ h
  | error cause => exact .error cause
  | left h cause => exact .left h cause _
  | right h _ cause => exact .right h _ cause

/-! ## Actions -/

/-- Actions that only return related values do the same to both machines. -/
theorem coupled_pure {a : α} {b : β} (h : related a b) :
    C.Coupled related (pure a) (pure b) :=
  fun _ _ hm => .ok h hm

/-- The same fault stops both machines. -/
theorem coupled_raise (fault : WordFault) :
    C.Coupled related (Action.raise fault) (Action.raise fault) :=
  fun _ _ hm => .error (.fault fault) hm

/-- The same result is taken over on both machines. -/
theorem coupled_ofResult (result : Except WordFault α) :
    C.Coupled Eq (Action.ofResult result) (Action.ofResult result) := by
  cases result with
  | ok a => exact coupled_pure rfl
  | error fault => exact coupled_raise fault

/-- Computations that correspond are taken over on both machines. -/
theorem coupled_ofChecked {c : Checked α} {c' : Checked β} (h : C.Checks related c c') :
    C.Coupled related (Action.ofChecked c) (Action.ofChecked c') := by
  intro m m' hm
  cases h with
  | ok h => exact .ok h hm
  | error cause => exact .error (.overflow cause) hm
  | left h cause => exact .left h cause m _
  | right h _ cause => exact .right h _ cause m'

/-- Actions that go on from related results on machines that are alike. -/
theorem Results.bind {first : Action α} {first' : Action β} {later : α → Action γ}
    {later' : β → Action δ} {m m' : Machine} (hfirst : C.Results related (first m) (first' m'))
    (hlater : ∀ a b, related a b → C.Coupled related' (later a) (later' b)) :
    C.Results related' ((first >>= later) m) ((first' >>= later') m') := by
  simp only [Bind.bind, EStateM.bind]
  generalize first m = result, first' m' = result' at hfirst ⊢
  cases hfirst with
  | ok h hm => exact hlater _ _ h _ _ hm
  | error stop hm => exact .error stop hm
  | lost h m => exact .lost h m _
  | left h cause m => exact .left h cause m _
  | right h _ cause m' => exact .right h _ cause m'

/-- Actions that go on from related results do the same to both machines. -/
theorem Coupled.bind {first : Action α} {first' : Action β} {later : α → Action γ}
    {later' : β → Action δ} (hfirst : C.Coupled related first first')
    (hlater : ∀ a b, related a b → C.Coupled related' (later a) (later' b)) :
    C.Coupled related' (first >>= later) (first' >>= later') :=
  fun m m' hm => (hfirst m m' hm).bind hlater

/-- Actions that go on from equal results. -/
theorem Coupled.bind_eq {first first' : Action α} {later : α → Action γ} {later' : α → Action δ}
    (hfirst : C.Coupled Eq first first') (hlater : ∀ a, C.Coupled related' (later a) (later' a)) :
    C.Coupled related' (first >>= later) (first' >>= later') := by
  refine hfirst.bind ?_
  rintro a _ rfl
  exact hlater a

/-- So do actions that are chosen by the same condition. -/
theorem Coupled.ite {p : Prop} [Decidable p] {yes no : Action α} {yes' no' : Action β}
    (hyes : C.Coupled related yes yes') (hno : C.Coupled related no no') :
    C.Coupled related (if p then yes else no) (if p then yes' else no') := by
  split
  · exact hyes
  · exact hno

/-- Actions that look at their machines first.  The machine that was looked at
stays in view, so that more is known of it than that the two are alike. -/
theorem coupled_get_bind {later : Machine → Action α} {later' : Machine → Action β}
    (hlater : ∀ m m', m.Alike C.near m' → C.Results related (later m m) (later' m' m')) :
    C.Coupled related (get >>= later) (get >>= later') :=
  hlater

/-- So do changes that keep the machines alike. -/
theorem coupled_modify {f f' : Machine → Machine}
    (hf : ∀ m m', m.Alike C.near m' → (f m).Alike C.near (f' m')) :
    C.Coupled Eq (modify f) (modify f') :=
  fun m m' hm => .ok rfl (hf m m' hm)

/-! ## Scenes -/

/-- Two scenes show the same to two machines that are alike. -/
structure Sees (C : Coupling) (scene scene' : Scene) : Prop where
  stackLimit : scene'.stackLimit = scene.stackLimit ∨ scene.stackLimit ≤ scene'.stackLimit ∧
    ∀ word, C.lost (.wordFailed word (.stackOverflow scene.stackLimit))
  radius : scene'.board.radius = scene.board.radius
  offset : ∀ {c c' : Coord}, C.near c c' → ∀ (d : Direction) (steps : Int),
    C.Checks C.near (c.offset d steps) (c'.offset d steps)
  freeSteps : ∀ {c c' : Coord}, C.near c c' → ∀ (self : PieceId) (d : Direction) (budget : Nat),
    C.Checks Eq (Word.freeSteps scene self c d 0 budget) (Word.freeSteps scene' self c' d 0 budget)
  occupant : ∀ {c c' : Coord}, C.near c c' → ∀ self : PieceId,
    C.Checks (Option.Rel (Snapshot.Alike C.near)) (otherOccupant scene self c)
      (otherOccupant scene' self c')
  look : ∀ {c c' : Coord}, C.near c c' → ∀ (self : PieceId) (d : Direction),
    C.Checks Eq
      (do
        let cell ← c.neighbor d
        Word.firstSeen scene self d 1 cell)
      (do
        let cell ← c'.neighbor d
        Word.firstSeen scene' self d 1 cell)
  within : ∀ {c c' : Coord}, C.near c c' → ∀ range : Nat,
    C.Checks (List.Forall₂ (Snapshot.Alike C.near)) (scene.board.within c range)
      (scene'.board.within c' range)

end Coupling

/-! ## Words -/

section Words

open Coupling

variable {C : Coupling} {scene scene' : Scene}

/-- The same value is pushed onto both stacks. -/
theorem coupled_push (h : C.Sees scene scene') (value : Value) :
    C.Coupled Eq (push scene value) (push scene' value) := by
  refine coupled_get_bind ?_
  rintro m _ ⟨piece, hpiece, rfl⟩
  dsimp only
  rcases h.stackLimit with heq | ⟨hle, hlost⟩
  · rw [heq]
    split
    · exact .ok rfl ⟨piece, hpiece, rfl⟩
    · exact .error _ ⟨piece, hpiece, rfl⟩
  · by_cases hroom : m.stack.length < scene.stackLimit
    · rw [if_pos hroom, if_pos (Nat.lt_of_lt_of_le hroom hle)]
      exact .ok rfl ⟨piece, hpiece, rfl⟩
    · rw [if_neg hroom]
      exact .lost hlost m _

/-- The same value is taken from both stacks. -/
theorem coupled_pop : C.Coupled Eq pop pop := by
  refine coupled_get_bind ?_
  rintro ⟨stack, own, mailboxes, commands, log⟩ _ ⟨piece, hpiece, rfl⟩
  cases stack with
  | nil => exact .error _ ⟨piece, hpiece, rfl⟩
  | cons value stack => exact .ok rfl ⟨piece, hpiece, rfl⟩

/-- The same two values are taken from both stacks. -/
theorem coupled_popPair : C.Coupled Eq popPair popPair := by
  refine coupled_get_bind ?_
  rintro ⟨stack, own, mailboxes, commands, log⟩ _ ⟨piece, hpiece, rfl⟩
  rcases stack with _ | ⟨second, _ | ⟨first, stack⟩⟩
  · exact .error _ ⟨piece, hpiece, rfl⟩
  · exact .error _ ⟨piece, hpiece, rfl⟩
  · exact .ok rfl ⟨piece, hpiece, rfl⟩

/-- The same value is seen on both stacks. -/
theorem coupled_peek (depth : Nat) : C.Coupled Eq (peek depth) (peek depth) := by
  refine coupled_get_bind ?_
  rintro m _ ⟨piece, hpiece, rfl⟩
  dsimp only
  cases m.stack[depth]? with
  | none => exact .error _ ⟨piece, hpiece, rfl⟩
  | some value => exact .ok rfl ⟨piece, hpiece, rfl⟩

/-- The same integer is taken from both stacks. -/
theorem coupled_popInt : C.Coupled Eq popInt popInt :=
  coupled_pop.bind_eq fun value => coupled_ofResult value.toInt

/-- The same text is taken from both stacks. -/
theorem coupled_popText : C.Coupled Eq popText popText :=
  coupled_pop.bind_eq fun _ => coupled_pure rfl

/-- The same two integers are taken from both stacks. -/
theorem coupled_popIntPair : C.Coupled Eq popIntPair popIntPair := by
  refine coupled_popPair.bind_eq fun ⟨first, second⟩ => ?_
  refine (coupled_ofResult first.toInt).bind_eq fun first => ?_
  exact (coupled_ofResult second.toInt).bind_eq fun second => coupled_pure rfl

namespace Word

/-! ### The stack, numbers and texts -/

/-- The two top values are swapped on both stacks. -/
theorem coupled_swap (h : C.Sees scene scene') : C.Coupled Eq (swap scene) (swap scene') := by
  refine coupled_popPair.bind_eq fun ⟨first, second⟩ => ?_
  exact (coupled_push h second).bind_eq fun _ => coupled_push h first

/-- The three top values are rotated on both stacks. -/
theorem coupled_rot (h : C.Sees scene scene') : C.Coupled Eq (rot scene) (rot scene') := by
  refine (coupled_peek 2).bind_eq fun _ => ?_
  refine coupled_popPair.bind_eq fun ⟨second, third⟩ => ?_
  refine coupled_pop.bind_eq fun first => ?_
  refine (coupled_push h second).bind_eq fun _ => ?_
  exact (coupled_push h third).bind_eq fun _ => coupled_push h first

/-- Both stacks have the same height. -/
theorem coupled_depth (h : C.Sees scene scene') : C.Coupled Eq (depth scene) (depth scene') := by
  refine coupled_get_bind ?_
  rintro m _ ⟨piece, hpiece, rfl⟩
  exact Coupled.ite (coupled_push h _) (coupled_raise _) m _ ⟨piece, hpiece, rfl⟩

/-- An operation on two integers has the same result on both machines. -/
theorem coupled_arithmetic (h : C.Sees scene scene')
    (operation : Int → Int → Except WordFault Int) :
    C.Coupled Eq (arithmetic scene operation) (arithmetic scene' operation) := by
  refine coupled_popIntPair.bind_eq fun ⟨left, right⟩ => ?_
  exact (coupled_ofResult _).bind_eq fun result => coupled_push h _

/-- So has an operation on one integer. -/
theorem coupled_unary (h : C.Sees scene scene') (operation : Int → Except WordFault Int) :
    C.Coupled Eq (unary scene operation) (unary scene' operation) := by
  refine coupled_popInt.bind_eq fun n => ?_
  exact (coupled_ofResult _).bind_eq fun result => coupled_push h _

/-- So has a test of two values. -/
theorem coupled_test (h : C.Sees scene scene') (holds : Value → Value → Bool) :
    C.Coupled Eq (test scene holds) (test scene' holds) :=
  coupled_popPair.bind_eq fun _ => coupled_push h _

/-- So has a comparison of two integers. -/
theorem coupled_compare (h : C.Sees scene scene') (holds : Int → Int → Bool) :
    C.Coupled Eq (compare scene holds) (compare scene' holds) :=
  coupled_popIntPair.bind_eq fun _ => coupled_push h _

/-- The same text is printed in the name of the same piece. -/
theorem coupled_print : C.Coupled Eq print print := by
  refine coupled_pop.bind_eq fun value => ?_
  refine coupled_modify ?_
  rintro m _ ⟨_, ⟨position, hnear, rfl⟩, rfl⟩
  exact ⟨_, ⟨position, hnear, rfl⟩, rfl⟩

/-- A word that asks for something that does not depend on where the piece stands
pushes the answer. -/
theorem coupled_answer (h : C.Sees scene scene') {answer : Machine → Value}
    (hanswer : ∀ m m', m.Alike C.near m' → answer m' = answer m) :
    C.Coupled Eq (do let m ← get; push scene (answer m))
      (do let m ← get; push scene' (answer m)) := by
  refine coupled_get_bind fun m m' hm => ?_
  rw [hanswer m m' hm]
  exact coupled_push h _ m m' hm

/-! ### The piece -/

/-- Pieces that are alike turn alike. -/
theorem coupled_turn : C.Coupled Eq turn turn := by
  refine coupled_popInt.bind_eq fun steps => ?_
  refine coupled_modify ?_
  rintro m _ ⟨_, ⟨position, hnear, rfl⟩, rfl⟩
  exact ⟨_, ⟨position, hnear, rfl⟩, rfl⟩

/-- Pieces that are alike walk alike. -/
theorem checks_move (h : C.Sees scene scene') {p p' : Piece} (hp : p.Alike C.near p')
    (spaces : Nat) (d : Direction) :
    C.Checks (ResultRel (Piece.Alike C.near)) (p.move spaces d) (p'.move spaces d) := by
  obtain ⟨position, hnear, rfl⟩ := hp
  have hblocked : { p with position := position }.blocked? = p.blocked? := rfl
  unfold Piece.move
  rw [hblocked]
  cases p.blocked? with
  | some cause => exact .ok (.error _)
  | none =>
    dsimp only
    split
    · exact .ok (.error _)
    · refine (h.offset hnear d _).bind fun stop stop' hstop => .ok (.ok ?_)
      exact ⟨stop', hstop, rfl⟩

/-- A piece is replaced by pieces that are alike. -/
theorem coupled_setPiece {p p' : Piece} (hp : p.Alike C.near p') :
    C.Coupled Eq (modify fun m => { m with piece := p })
      (modify fun m => { m with piece := p' }) := by
  refine coupled_modify ?_
  rintro m _ ⟨piece, -, rfl⟩
  exact ⟨p', hp, rfl⟩

/-- Pieces that are alike walk equally far. -/
theorem coupled_move (h : C.Sees scene scene') : C.Coupled Eq (move scene) (move scene') := by
  refine coupled_popIntPair.bind_eq fun ⟨spaces, relative⟩ => ?_
  refine coupled_get_bind ?_
  rintro m _ ⟨_, ⟨position, hnear, rfl⟩, rfl⟩
  refine Coupled.bind_eq (coupled_ofChecked (h.freeSteps hnear _ _ _)) (fun walked => ?_) m _
    ⟨_, ⟨position, hnear, rfl⟩, rfl⟩
  refine Coupled.ite (coupled_push h _) ?_
  refine (coupled_ofChecked (checks_move h ⟨position, hnear, rfl⟩ walked _)).bind ?_
  rintro _ _ (_ | hmoved)
  · exact coupled_push h _
  · exact (coupled_setPiece hmoved).bind_eq fun _ => coupled_push h _

/-- A shot does not look at where the piece stands. -/
theorem shoot_standing (p : Piece) (position : Coord) :
    { p with position := position }.shoot =
      p.shoot.map fun (damage, spent) => (damage, { spent with position := position }) := by
  have hblocked : { p with position := position }.blocked? = p.blocked? := rfl
  unfold Piece.shoot
  rw [hblocked]
  cases p.blocked? with
  | some cause => rfl
  | none => cases p.hasShot <;> rfl

/-- Pieces that are alike hit the same piece, or both hit nothing. -/
theorem coupled_shoot (h : C.Sees scene scene') : C.Coupled Eq (shoot scene) (shoot scene') := by
  refine coupled_popIntPair.bind_eq fun ⟨distance, relative⟩ => ?_
  refine coupled_get_bind ?_
  rintro m _ ⟨_, ⟨position, hnear, rfl⟩, rfl⟩
  have hm : m.Alike C.near { m with piece := { m.piece with position := position } } :=
    ⟨_, ⟨position, hnear, rfl⟩, rfl⟩
  dsimp only
  split
  · exact coupled_push h _ m _ hm
  · rw [shoot_standing m.piece position]
    cases hshoot : m.piece.shoot with
    | error refusal => exact coupled_push h _ m _ hm
    | ok shot =>
      obtain ⟨damage, spent⟩ := shot
      obtain ⟨-, -, -, rfl⟩ := Piece.shoot_eq_ok hshoot
      have hspent : Piece.Alike C.near { m.piece with hasShot := true }
          { m.piece with hasShot := true, position := position } := ⟨position, hnear, rfl⟩
      refine Coupled.bind_eq (coupled_setPiece hspent) (fun _ => ?_) m _ hm
      refine (coupled_ofChecked (h.offset hnear _ _)).bind fun cell cell' hcell => ?_
      refine (coupled_ofChecked (h.occupant hcell _)).bind fun other other' hother => ?_
      cases hother with
      | none => exact coupled_push h _
      | @some target _ halike =>
        obtain ⟨place, -, rfl⟩ := halike
        simp only [Option.filter_some]
        cases target.active with
        | false => exact coupled_push h _
        | true =>
          refine Coupled.bind_eq (coupled_modify ?_) fun _ => coupled_push h _
          rintro n _ ⟨piece, hpiece, rfl⟩
          exact ⟨piece, hpiece, rfl⟩

/-! ### Sight -/

/-- Pieces that are alike see another one after as many steps. -/
theorem coupled_look (h : C.Sees scene scene') : C.Coupled Eq (look scene) (look scene') := by
  refine coupled_popInt.bind_eq fun relative => ?_
  refine coupled_get_bind ?_
  rintro m _ ⟨_, ⟨position, hnear, rfl⟩, rfl⟩
  exact Coupled.bind_eq (coupled_ofChecked (h.look hnear _ _)) (fun seen => coupled_push h _) m _
    ⟨_, ⟨position, hnear, rfl⟩, rfl⟩

/-- Pieces that are alike find the same piece ahead, or both find none. -/
theorem coupled_identify (h : C.Sees scene scene') :
    C.Coupled Eq (identify scene) (identify scene') := by
  refine coupled_popIntPair.bind_eq fun ⟨distance, relative⟩ => ?_
  refine coupled_get_bind ?_
  rintro m _ ⟨_, ⟨position, hnear, rfl⟩, rfl⟩
  rw [h.radius]
  refine Coupled.ite ?_ (coupled_push h _) m _ ⟨_, ⟨position, hnear, rfl⟩, rfl⟩
  have hother := (h.offset hnear (m.piece.heading relative) distance).bind fun _ _ hcell =>
    h.occupant hcell m.piece.id
  refine (coupled_ofChecked hother).bind fun other other' hother => ?_
  cases hother with
  | none => exact coupled_push h _
  | some halike =>
    obtain ⟨place, -, rfl⟩ := halike
    exact coupled_push h _

/-- Snapshots that are alike are counted alike. -/
theorem length_filter_alike {near : Coord → Coord → Prop} {l l' : List Snapshot}
    (h : List.Forall₂ (Snapshot.Alike near) l l') (team : Team) :
    (l'.filter fun s => s.active && s.team ≠ team).length =
      (l.filter fun s => s.active && s.team ≠ team).length := by
  induction h with
  | nil => rfl
  | @cons s _ _ _ hs _ ih =>
    obtain ⟨place, -, rfl⟩ := hs
    simp only [List.filter_cons]
    split
    · simp only [List.length_cons, ih]
    · exact ih

/-- Pieces that are alike count as many enemies in range. -/
theorem coupled_enemies (h : C.Sees scene scene') :
    C.Coupled Eq (enemies scene) (enemies scene') := by
  refine coupled_get_bind ?_
  rintro m _ ⟨_, ⟨position, hnear, rfl⟩, rfl⟩
  refine Coupled.bind (coupled_ofChecked (h.within hnear _)) (fun near near' hnear => ?_) m _
    ⟨_, ⟨position, hnear, rfl⟩, rfl⟩
  simp only [length_filter_alike hnear]
  exact Coupled.ite (coupled_push h _) (coupled_raise _)

/-! ### Mail -/

/-- The mailboxes become others. -/
theorem coupled_setMailboxes (mailboxes : Directory) :
    C.Coupled Eq (modify fun m => { m with mailboxes := mailboxes })
      (modify fun m => { m with mailboxes := mailboxes }) := by
  refine coupled_modify ?_
  rintro m _ ⟨piece, hpiece, rfl⟩
  exact ⟨piece, hpiece, rfl⟩

/-- The same message is sent, or refused on both machines. -/
theorem coupled_send (h : C.Sees scene scene') : C.Coupled Eq (send scene) (send scene') := by
  refine coupled_popText.bind_eq fun recipient => ?_
  refine coupled_popText.bind_eq fun payload => ?_
  refine coupled_get_bind ?_
  rintro m _ ⟨_, ⟨position, hnear, rfl⟩, rfl⟩
  have hm : m.Alike C.near { m with piece := { m.piece with position := position } } :=
    ⟨_, ⟨position, hnear, rfl⟩, rfl⟩
  dsimp only
  cases m.mailboxes.send m.piece.id recipient payload with
  | error refusal => exact coupled_push h _ m _ hm
  | ok mailboxes =>
    exact Coupled.bind_eq (coupled_setMailboxes mailboxes) (fun _ => coupled_push h _) m _ hm

/-- The same message is received, or none is there for either machine. -/
theorem coupled_receive (h : C.Sees scene scene') :
    C.Coupled Eq (receive scene) (receive scene') := by
  refine coupled_popText.bind_eq fun sender => ?_
  refine coupled_get_bind ?_
  rintro m _ ⟨_, ⟨position, hnear, rfl⟩, rfl⟩
  have hm : m.Alike C.near { m with piece := { m.piece with position := position } } :=
    ⟨_, ⟨position, hnear, rfl⟩, rfl⟩
  dsimp only
  cases m.mailboxes.receive m.piece.id.name sender with
  | none => exact coupled_push h _ m _ hm
  | some taken =>
    exact Coupled.bind_eq (coupled_setMailboxes taken.2) (fun _ => coupled_push h _) m _ hm

/-- The same answer is given whether there is a message. -/
theorem coupled_hasMessage (h : C.Sees scene scene') :
    C.Coupled Eq (hasMessage scene) (hasMessage scene') := by
  refine coupled_popText.bind_eq fun sender => ?_
  refine coupled_answer h ?_
  rintro m _ ⟨_, ⟨position, -, rfl⟩, rfl⟩
  rfl

/-- The same mailbox is emptied. -/
theorem coupled_clearMail : C.Coupled Eq clearMail clearMail := by
  refine coupled_modify ?_
  rintro m _ ⟨_, ⟨position, hnear, rfl⟩, rfl⟩
  exact ⟨_, ⟨position, hnear, rfl⟩, rfl⟩

end Word

end Words

/-- Every built-in word does the same to two machines. -/
theorem Builtin.coupled_action {C : Coupling} {scene scene' : Scene} (h : C.Sees scene scene')
    (word : Builtin) : C.Coupled Eq (word.action scene) (word.action scene') := by
  have hanswer : ∀ answer : Piece → Value,
      (∀ (p : Piece) (position : Coord), answer { p with position := position } = answer p) →
      C.Coupled Eq (do let m ← get; push scene (answer m.piece))
        (do let m ← get; push scene' (answer m.piece)) := by
    intro answer hanswer
    refine Word.coupled_answer h ?_
    rintro m _ ⟨_, ⟨position, -, rfl⟩, rfl⟩
    exact hanswer m.piece position
  cases word with
  | dup => exact (coupled_peek 0).bind_eq fun _ => coupled_push h _
  | drop => exact coupled_pop.bind_eq fun _ => Coupling.coupled_pure rfl
  | swap => exact Word.coupled_swap h
  | pull => exact (coupled_peek 1).bind_eq fun _ => coupled_push h _
  | rot => exact Word.coupled_rot h
  | nip => exact coupled_popPair.bind_eq fun _ => coupled_push h _
  | depth => exact Word.coupled_depth h
  | clear =>
    refine Coupling.coupled_modify ?_
    rintro m _ ⟨piece, hpiece, rfl⟩
    exact ⟨piece, hpiece, rfl⟩
  | add | subtract | multiply | divide | remainder | minimum | maximum =>
    unfold action
    exact Word.coupled_arithmetic h _
  | negate | absolute => exact Word.coupled_unary h _
  | equal | notEqual | conjunction | disjunction =>
    unfold action
    exact Word.coupled_test h _
  | less | greater | lessOrEqual | greaterOrEqual =>
    unfold action
    exact Word.coupled_compare h _
  | negation => exact coupled_pop.bind_eq fun _ => coupled_push h _
  | concat => exact coupled_popPair.bind_eq fun _ => coupled_push h _
  | toNumber => exact coupled_pop.bind_eq fun _ => coupled_push h _
  | print => exact Word.coupled_print
  | health => exact hanswer (fun p => .int p.health) fun _ _ => rfl
  | moves => exact hanswer (fun p => .int p.movement) fun _ _ => rfl
  | range => exact hanswer (fun p => .int p.stats.range) fun _ _ => rfl
  | attack => exact hanswer (fun p => .int p.stats.attack) fun _ _ => rfl
  | facing => exact hanswer (fun p => .int p.facing.index) fun _ _ => rfl
  | turns => exact hanswer (fun p => .int p.turnsTaken) fun _ _ => rfl
  | hasShot => exact hanswer (fun p => .flag p.hasShot) fun _ _ => rfl
  | myId => exact hanswer (fun p => .text p.id.name) fun _ _ => rfl
  | move => exact Word.coupled_move h
  | shoot => exact Word.coupled_shoot h
  | turn => exact Word.coupled_turn
  | look => exact Word.coupled_look h
  | identify => exact Word.coupled_identify h
  | enemies => exact Word.coupled_enemies h
  | send => exact Word.coupled_send h
  | receive => exact Word.coupled_receive h
  | hasMessage => exact Word.coupled_hasMessage h
  | clearMail => exact Word.coupled_clearMail
  | finish => exact Coupling.coupled_pure rfl

/-- So does every built-in word as a script performs it. -/
theorem Builtin.coupled_perform {C : Coupling} {scene scene' : Scene} (h : C.Sees scene scene')
    (word : Builtin) : C.Coupled Eq (word.perform scene) (word.perform scene') :=
  (word.coupled_action h).bind_eq fun _ => Coupling.coupled_pure rfl

end HexArena.Script
