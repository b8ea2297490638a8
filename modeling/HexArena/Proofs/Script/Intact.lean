import HexArena.Proofs.Script.Action
import HexArena.Proofs.Script.Turn

/-!
# Words that fault

A word first takes its operands and checks them, then acts, and pushes its result
last.  It faults while it takes its operands, when nothing has happened yet, or not
at all: the place of an operand it has taken is free for the result.  Only a word
that takes nothing can find the stack full.

Main results:

- Definition {lit}`Machine.Popped`: values are taken off the stack, and nothing else
  changes.
- Definition {lit}`Action.Pops`: an action that takes a number of values.
- Definition {lit}`Action.Fills`: an action that does not fault where there is
  enough room on the stack.
- Definition {lit}`Machine.Shoots`: what a shot does, by the way it ends.
- Theorems {lit}`Builtin.adds_action` and {lit}`Builtin.takes_action`: a word but a shot
  pushes at once, or takes operands first.
- Theorem {lit}`Builtin.perform_intact`: a word that faults has had no effect.
-/

namespace HexArena.Script

/-- Values are taken off the stack, and nothing else changes. -/
def Machine.Popped (m m' : Machine) : Prop :=
  ∃ n, m' = { m with stack := m.stack.drop n }

/-- The fault is not that of a full stack. -/
def WordFault.Sober (fault : WordFault) : Prop :=
  ∀ limit, fault ≠ .stackOverflow limit

namespace Machine

variable {m m' m'' : Machine}

/-- Nothing needs to be taken. -/
theorem Popped.refl (m : Machine) : m.Popped m :=
  ⟨0, rfl⟩

/-- Values that are taken one after another are taken. -/
theorem Popped.trans (h : m.Popped m') (h' : m'.Popped m'') : m.Popped m'' := by
  obtain ⟨n, rfl⟩ := h
  obtain ⟨n', rfl⟩ := h'
  exact ⟨n + n', by simp only [List.drop_drop]⟩

end Machine

namespace Action

/-! ## Taking operands -/

/-- The action takes {lit}`n` values off the stack, and if it fails, it has taken
some and found no full stack. -/
def Pops {α : Type} (n : Nat) (action : Action α) : Prop :=
  ∀ m, action.Ends m
    (fun _ m' => n ≤ m.stack.length ∧ m' = { m with stack := m.stack.drop n })
    (fun fault m' => m.Popped m' ∧ fault.Sober)

section Pops

variable {α β : Type} {n k : Nat}

/-- Returning a value takes nothing. -/
theorem pops_pure (a : α) : Pops 0 (pure a) := by
  intro m
  apply ends_pure
  exact ⟨Nat.zero_le _, rfl⟩

/-- Taking over a result takes nothing. -/
theorem pops_ofResult {result : Except WordFault α}
    (h : ∀ fault, result = .error fault → fault.Sober) : Pops 0 (ofResult result) := by
  intro m
  apply ends_ofResult
  · intro a _
    exact ⟨Nat.zero_le _, rfl⟩
  · intro fault hfault
    exact ⟨.refl m, h fault hfault⟩

/-- Actions in a row take the values of both. -/
theorem Pops.bind {first : Action α} {later : α → Action β} (hfirst : Pops n first)
    (hlater : ∀ a, Pops k (later a)) : Pops (n + k) (first >>= later) := by
  intro m
  apply Ends.bind (hfirst m)
  rintro a m' ⟨hle, rfl⟩
  apply (hlater a _).mono
  · rintro b m' ⟨hle', rfl⟩
    rw [List.length_drop] at hle'
    exact ⟨by omega, by simp only [List.drop_drop]⟩
  · rintro fault m' ⟨hpopped, hsober⟩
    exact ⟨Machine.Popped.trans ⟨n, rfl⟩ hpopped, hsober⟩

/-- One value is taken. -/
theorem pops_pop : Pops 1 pop := by
  intro m
  apply ends_pop
  · exact ⟨.refl m, nofun⟩
  · intro value rest hstack
    simp [hstack]

/-- Two values are taken. -/
theorem pops_popPair : Pops 2 popPair := by
  intro m
  apply ends_popPair
  · exact ⟨.refl m, nofun⟩
  · intro second first rest hstack
    simp [hstack]

/-- Looking at a value takes nothing. -/
theorem pops_peek (depth : Nat) : Pops 0 (peek depth) := by
  intro m
  apply ends_peek
  · exact ⟨.refl m, nofun⟩
  · intro value
    exact ⟨Nat.zero_le _, rfl⟩

/-- Reading a value as an integer takes nothing. -/
theorem pops_toInt (value : Value) : Pops 0 (ofResult value.toInt) := by
  apply pops_ofResult
  cases value with
  | int n => nofun
  | text s =>
    rintro fault ⟨⟩
    nofun

/-- An integer is one value. -/
theorem pops_popInt : Pops 1 popInt :=
  pops_pop.bind pops_toInt

/-- A text is one value. -/
theorem pops_popText : Pops 1 popText :=
  pops_pop.bind fun value => pops_pure value.toText

/-- Two integers are two values. -/
theorem pops_popIntPair : Pops 2 popIntPair := by
  refine pops_popPair.bind (k := 0) fun ⟨first, second⟩ => ?_
  refine (pops_toInt first).bind (k := 0) fun first => ?_
  exact (pops_toInt second).bind fun second => pops_pure (first, second)

end Pops

/-! ## Acting -/

/-- The action faults only if the stack has no room for {lit}`room` more values,
puts no more on it, and queues no command. -/
def Fills {α : Type} (scene : Scene) (room : Nat) (action : Action α) : Prop :=
  ∀ m, action.Ends m
    (fun _ m' => m'.stack.length ≤ m.stack.length + room ∧ m'.commands = m.commands)
    (fun _ _ => scene.stackLimit < m.stack.length + room)

section Fills

variable {α β : Type} {scene : Scene} {room more : Nat}

/-- Returning a value needs no room. -/
theorem fills_pure (a : α) : Fills scene 0 (pure a) := by
  intro m
  apply ends_pure
  exact ⟨Nat.le_refl _, rfl⟩

/-- Actions in a row need the room of both. -/
theorem Fills.bind {first : Action α} {later : α → Action β} (hfirst : first.Fills scene room)
    (hlater : ∀ a, (later a).Fills scene more) : (first >>= later).Fills scene (room + more) := by
  intro m
  have hfirst' := (hfirst m).mono (fun _ _ hdone => hdone)
    (fun _ _ hfull => Nat.lt_of_lt_of_le hfull (Nat.add_le_add_left (Nat.le_add_right room more) _))
  apply hfirst'.bind
  rintro a m' ⟨hlength, hcommands⟩
  apply (hlater a m').mono
  · rintro b m'' ⟨hlength', hcommands'⟩
    exact ⟨by omega, hcommands'.trans hcommands⟩
  · intro fault m'' hfull
    omega

/-- An action that looks at the machine first needs the room that it needs then. -/
theorem fills_get_bind {later : Machine → Action β} (h : ∀ m, (later m).Fills scene room) :
    Fills scene room (get >>= later) := by
  intro m
  exact ends_get_bind (h m m)

/-- An action that computes first needs the room that it needs then. -/
theorem fills_ofChecked_bind {c : Checked α} {later : α → Action β}
    (h : ∀ a, (later a).Fills scene room) : Fills scene room (ofChecked c >>= later) := by
  intro m
  apply ends_ofChecked_bind
  intro a _
  exact h a m

/-- What happens apart from the stack and the commands needs no room. -/
theorem fills_modify_bind {f : Machine → Machine} {later : Unit → Action β}
    (hstack : ∀ m, (f m).stack = m.stack) (hcommands : ∀ m, (f m).commands = m.commands)
    (h : (later ()).Fills scene room) : Fills scene room (modify f >>= later) := by
  intro m
  apply ends_modify_bind
  have hlater := h (f m)
  rwa [hstack, hcommands] at hlater

/-- A choice needs the room that both actions need. -/
theorem Fills.ite {p : Prop} [Decidable p] {yes no : Action α} (hyes : yes.Fills scene room)
    (hno : no.Fills scene room) : Fills scene room (if p then yes else no) := by
  split
  · exact hyes
  · exact hno

/-- Pushing a value needs room for it. -/
theorem fills_push (value : Value) : (push scene value).Fills scene 1 := by
  intro m
  apply ends_push
  · intro _
    exact ⟨Nat.le_refl _, rfl⟩
  · intro hfull
    exact Nat.lt_succ_of_le hfull

end Fills

/-! ## Words that take operands -/

/-- After {lit}`taken` values have been taken, the action takes more of them first,
and acts when it can no longer fault; it queues no command. -/
def Takes {α : Type} (scene : Scene) (taken : Nat) (action : Action α) : Prop :=
  ∀ m, action.Ends m (fun _ m' => m'.commands = m.commands)
    (fun fault m' => m.stack.length + taken ≤ scene.stackLimit → m.Popped m' ∧ fault.Sober)

section Takes

variable {α β : Type} {scene : Scene} {taken n : Nat}

/-- There is room where the operands were. -/
theorem Fills.takes {action : Action α} (h : action.Fills scene n) (hle : n ≤ taken) :
    action.Takes scene taken := by
  intro m
  apply (h m).mono
  · intro a m' hdone
    exact hdone.2
  · intro fault m' hfull hroom
    omega

/-- A change that queues no command takes nothing that has not been taken. -/
theorem takes_modify {f : Machine → Machine} (h : ∀ m, (f m).commands = m.commands) :
    Takes scene taken (modify f) := by
  intro m
  apply ends_modify
  exact h m

/-- An action that takes values first has room for as many results. -/
theorem Pops.takes {first : Action α} {later : α → Action β} (hfirst : Pops n first)
    (hlater : ∀ a, (later a).Takes scene (taken + n)) : (first >>= later).Takes scene taken := by
  intro m
  have hfirst' := (hfirst m).mono (fun _ _ hdone => hdone)
    (fun fault m' hfailed (_ : m.stack.length + taken ≤ scene.stackLimit) => hfailed)
  apply hfirst'.bind
  rintro a m' ⟨hle, rfl⟩
  apply (hlater a _).mono
  · intro b m'' hcommands
    exact hcommands
  · intro fault m'' hfailed hroom
    rw [List.length_drop] at hfailed
    obtain ⟨hpopped, hsober⟩ := hfailed (by omega)
    exact ⟨Machine.Popped.trans ⟨n, rfl⟩ hpopped, hsober⟩

end Takes

/-! ## Words that take nothing -/

/-- The action only adds to the stack, and faults before it does anything; it queues
no command. -/
def Adds {α : Type} (scene : Scene) (action : Action α) : Prop :=
  ∀ m, action.Ends m (fun _ m' => m.stack <:+ m'.stack ∧ m'.commands = m.commands)
    (fun fault m' => m.stack.length ≤ scene.stackLimit →
      m' = m ∧ ∀ limit, fault = .stackOverflow limit → m.stack.length = scene.stackLimit)

section Adds

variable {α β : Type} {scene : Scene}

/-- Returning a value adds nothing. -/
theorem adds_pure (a : α) : Adds scene (pure a) := by
  intro m
  apply ends_pure
  exact ⟨List.suffix_refl _, rfl⟩

/-- A fault adds nothing. -/
theorem adds_raise {fault : WordFault} (h : fault.Sober) :
    Adds scene (raise fault : Action α) := by
  intro m
  apply ends_raise
  intro _
  exact ⟨rfl, fun limit hlimit => absurd hlimit (h limit)⟩

/-- Pushing a value adds it, or finds the stack full. -/
theorem adds_push (value : Value) : (push scene value).Adds scene := by
  intro m
  apply ends_push
  · intro _
    exact ⟨List.suffix_cons value m.stack, rfl⟩
  · intro hfull hle
    exact ⟨rfl, fun _ _ => Nat.le_antisymm hle hfull⟩

/-- An action that looks at the machine first adds what it adds then. -/
theorem adds_get_bind {later : Machine → Action β} (h : ∀ m, (later m).Adds scene) :
    Adds scene (get >>= later) := by
  intro m
  exact ends_get_bind (h m m)

/-- An action that computes first adds what it adds then. -/
theorem adds_ofChecked_bind {c : Checked α} {later : α → Action β}
    (h : ∀ a, (later a).Adds scene) : Adds scene (ofChecked c >>= later) := by
  intro m
  apply ends_ofChecked_bind
  intro a _
  exact h a m

/-- A choice only adds if both actions do. -/
theorem Adds.ite {p : Prop} [Decidable p] {yes no : Action α} (hyes : yes.Adds scene)
    (hno : no.Adds scene) : Adds scene (if p then yes else no) := by
  split
  · exact hyes
  · exact hno

/-- A value that is there is copied to the top. -/
theorem adds_copy (depth : Nat) : Adds scene (peek depth >>= push scene) := by
  intro m
  have hpeek : (peek depth).Ends m (fun _ m' => m' = m)
      (fun fault m' => m.stack.length ≤ scene.stackLimit →
        m' = m ∧ ∀ limit, fault = .stackOverflow limit → m.stack.length = scene.stackLimit) :=
    ends_peek (fun _ => ⟨rfl, nofun⟩) fun _ => rfl
  apply hpeek.bind
  rintro value m' rfl
  exact adds_push value m'

end Adds

end Action

namespace Word

open HexArena.Script.Action

variable {scene : Scene}

/-! ### The stack, numbers and texts -/

/-- Two values are taken before they are pushed the other way round. -/
theorem takes_swap : (swap scene).Takes scene 0 := by
  refine pops_popPair.takes fun ⟨first, second⟩ => ?_
  exact ((fills_push second).bind fun _ => fills_push first).takes (Nat.le_refl 2)

/-- Three values are taken before they are pushed in another order. -/
theorem takes_rot : (rot scene).Takes scene 0 := by
  refine (pops_peek 2).takes fun _ => ?_
  refine pops_popPair.takes fun ⟨second, third⟩ => ?_
  refine pops_pop.takes fun first => ?_
  have hlater : Fills scene 2 (do push scene third; push scene first) :=
    (fills_push third).bind fun _ => fills_push first
  exact ((fills_push second).bind fun _ => hlater).takes (Nat.le_refl 3)

/-- A number that does not fit is not the fault of a full stack. -/
theorem sober_of_fit {n : Int} {fault : WordFault} (h : fit n = .error fault) : fault.Sober := by
  unfold fit at h
  split at h
  · cases h
  · cases h
    nofun

/-- Neither is a division that fails. -/
theorem sober_of_divide {left right : Int} {fault : WordFault}
    (h : divide left right = .error fault) : fault.Sober := by
  unfold divide at h
  split at h
  · cases h
    nofun
  · exact sober_of_fit h

/-- Neither is a remainder that fails. -/
theorem sober_of_remainder {left right : Int} {fault : WordFault}
    (h : remainder left right = .error fault) : fault.Sober := by
  unfold remainder at h
  split at h
  · cases h
    nofun
  · cases hquotient : fit (left.tdiv right) with
    | ok quotient =>
      rw [hquotient] at h
      cases h
    | error fault' =>
      rw [hquotient] at h
      cases h
      exact sober_of_fit hquotient

/-- Two integers are taken before the result of an operation is pushed. -/
theorem takes_arithmetic {operation : Int → Int → Except WordFault Int}
    (h : ∀ left right fault, operation left right = .error fault → fault.Sober) :
    (arithmetic scene operation).Takes scene 0 := by
  refine pops_popIntPair.takes fun ⟨left, right⟩ => ?_
  refine (pops_ofResult (h left right)).takes fun result => ?_
  exact (fills_push _).takes (by decide)

/-- One integer is taken before the result of an operation is pushed. -/
theorem takes_unary {operation : Int → Except WordFault Int}
    (h : ∀ n fault, operation n = .error fault → fault.Sober) :
    (unary scene operation).Takes scene 0 := by
  refine pops_popInt.takes fun n => ?_
  refine (pops_ofResult (h n)).takes fun result => ?_
  exact (fills_push _).takes (by decide)

/-- Two values are taken before the answer of a test is pushed. -/
theorem takes_test (holds : Value → Value → Bool) : (test scene holds).Takes scene 0 := by
  refine pops_popPair.takes fun ⟨left, right⟩ => ?_
  exact (fills_push _).takes (by decide)

/-- Two integers are taken before the answer of a comparison is pushed. -/
theorem takes_compare (holds : Int → Int → Bool) : (compare scene holds).Takes scene 0 := by
  refine pops_popIntPair.takes fun ⟨left, right⟩ => ?_
  exact (fills_push _).takes (by decide)

/-- The value is taken before it is printed. -/
theorem takes_print : print.Takes scene 0 := by
  refine pops_pop.takes fun value => ?_
  exact takes_modify fun _ => rfl

/-! ### The piece and the board -/

/-- The operands of a walk are taken before the piece walks. -/
theorem takes_move : (move scene).Takes scene 0 := by
  refine pops_popIntPair.takes fun ⟨spaces, relative⟩ => ?_
  refine Fills.takes (n := 1) ?_ (by decide)
  refine fills_get_bind fun m => ?_
  refine fills_ofChecked_bind fun walked => .ite (fills_push _) ?_
  refine fills_ofChecked_bind fun result => ?_
  cases result with
  | ok moved => exact fills_modify_bind (fun _ => rfl) (fun _ => rfl) (fills_push _)
  | error _ => exact fills_push _

/-- The number of steps is taken before the piece turns. -/
theorem takes_turn : turn.Takes scene 0 := by
  refine pops_popInt.takes fun steps => ?_
  exact takes_modify fun _ => rfl

/-- The direction is taken before the piece looks ahead. -/
theorem takes_look : (look scene).Takes scene 0 := by
  refine pops_popInt.takes fun relative => ?_
  refine Fills.takes (n := 1) ?_ (by decide)
  exact fills_get_bind fun m => fills_ofChecked_bind fun seen => fills_push _

/-- The operands are taken before the piece asks who stands ahead. -/
theorem takes_identify : (identify scene).Takes scene 0 := by
  refine pops_popIntPair.takes fun ⟨distance, relative⟩ => ?_
  refine Fills.takes (n := 1) ?_ (by decide)
  refine fills_get_bind fun m => .ite ?_ (fills_push _)
  exact fills_ofChecked_bind fun other => fills_push _

/-- The height of the stack is only added. -/
theorem adds_depth : (depth scene).Adds scene :=
  adds_get_bind fun _ => .ite (adds_push _) (adds_raise nofun)

/-- The number of enemies is only added. -/
theorem adds_enemies : (enemies scene).Adds scene := by
  refine adds_get_bind fun m => adds_ofChecked_bind fun near => ?_
  exact .ite (adds_push _) (adds_raise nofun)

/-! ### Mail -/

/-- The recipient and the message are taken before anything is sent. -/
theorem takes_send : (send scene).Takes scene 0 := by
  refine pops_popText.takes fun recipient => ?_
  refine pops_popText.takes fun payload => ?_
  refine Fills.takes (n := 1) ?_ (by decide)
  refine fills_get_bind fun m => ?_
  cases m.mailboxes.send m.piece.id recipient payload with
  | ok mailboxes => exact fills_modify_bind (fun _ => rfl) (fun _ => rfl) (fills_push _)
  | error _ => exact fills_push _

/-- The sender is taken before anything is received. -/
theorem takes_receive : (receive scene).Takes scene 0 := by
  refine pops_popText.takes fun sender => ?_
  refine Fills.takes (n := 1) ?_ (by decide)
  refine fills_get_bind fun m => ?_
  cases m.mailboxes.receive m.piece.id.name sender with
  | some received => exact fills_modify_bind (fun _ => rfl) (fun _ => rfl) (fills_push _)
  | none => exact fills_push _

/-- The sender is taken before the answer is pushed. -/
theorem takes_hasMessage : (hasMessage scene).Takes scene 0 := by
  refine pops_popText.takes fun sender => ?_
  exact (fills_get_bind fun m => fills_push _).takes (by decide)

/-- Emptying the mailbox leaves the stack as it is. -/
theorem adds_clearMail : clearMail.Adds scene := by
  intro m
  apply ends_modify
  exact ⟨List.suffix_refl _, rfl⟩

end Word

/-! ## Shots -/

/-- What a shot does: the operands are replaced by whether it hits.  A shot that
hits is aimed at a hex in range on which an active piece is seen, and queues the
command to resolve it. -/
inductive Machine.Shoots (scene : Scene) (m : Machine) : Bool → Machine → Prop
  /-- The shot is out of range, or is not the piece's to fire. -/
  | refuse {distance relative : Int} {rest : List Value}
    (hstack : m.stack = .int relative :: .int distance :: rest) :
    Shoots scene m false { m with stack := .int 0 :: rest }
  /-- The shot is spent and hits nothing. -/
  | miss {distance relative : Int} {rest : List Value} {damage : Nat} {spent : Piece}
    (hstack : m.stack = .int relative :: .int distance :: rest)
    (hshoot : m.piece.shoot = .ok (damage, spent)) :
    Shoots scene m false { m with stack := .int 0 :: rest, piece := spent }
  | hit {distance relative : Int} {rest : List Value} {damage : Nat} {spent : Piece} {cell : Coord}
    {target : Snapshot} (hstack : m.stack = .int relative :: .int distance :: rest)
    (hrange : 1 ≤ distance ∧ distance ≤ m.piece.stats.range)
    (hshoot : m.piece.shoot = .ok (damage, spent))
    (hcell : m.piece.position.offset (m.piece.heading relative) distance = .ok cell)
    (htarget : otherOccupant scene m.piece.id cell = .ok (some target))
    (hactive : target.active = true) :
    Shoots scene m true
      { m with
        stack := .int 1 :: rest
        piece := spent
        commands := m.commands ++ [.resolveShot m.piece.id target.id damage] }

namespace Action

/-- Two integers are taken, or it is found that there are none. -/
theorem ends_popIntPair (m : Machine) :
    popIntPair.Ends m
      (fun pair m' => ∃ rest, m.stack = .int pair.2 :: .int pair.1 :: rest ∧
        m' = { m with stack := rest })
      (fun fault m' => m.Popped m' ∧ fault.Sober) := by
  have hpair : popPair.Ends m
      (fun pair m' => ∃ rest, m.stack = pair.2 :: pair.1 :: rest ∧ m' = { m with stack := rest })
      (fun fault m' => m.Popped m' ∧ fault.Sober) :=
    ends_popPair ⟨.refl m, nofun⟩ fun second first rest hstack => ⟨rest, hstack, rfl⟩
  apply hpair.bind
  rintro ⟨first, second⟩ m' ⟨rest, hstack, rfl⟩
  have hpopped : m.Popped { m with stack := rest } := ⟨2, by simp [hstack]⟩
  cases first with
  | text s => exact ⟨hpopped, nofun⟩
  | int first =>
    cases second with
    | text s => exact ⟨hpopped, nofun⟩
    | int second => exact ⟨rest, hstack, rfl⟩

/-- A value is pushed where operands were taken. -/
theorem ends_push_taken {scene : Scene} {m m' : Machine} {value : Value}
    {done : Unit → Machine → Prop} {failed : WordFault → Machine → Prop}
    (hlength : m'.stack.length < m.stack.length)
    (hdone : done () { m' with stack := value :: m'.stack }) :
    (push scene value).Ends m' done
      (fun fault m'' => m.stack.length ≤ scene.stackLimit → failed fault m'') := by
  apply ends_push
  · intro _
    exact hdone
  · intro hfull hle
    omega

end Action

/-- A shot ends in one of the three ways, unless it lacks its operands. -/
theorem Word.ends_shoot (scene : Scene) (m : Machine) :
    (Word.shoot scene).Ends m (fun _ m' => ∃ hit, m.Shoots scene hit m')
      (fun fault m' => m.stack.length ≤ scene.stackLimit → m.Popped m' ∧ fault.Sober) := by
  have hpair := (Action.ends_popIntPair m).mono (fun _ _ hdone => hdone)
    (fun _ _ hfailed (_ : m.stack.length ≤ scene.stackLimit) => hfailed)
  apply hpair.bind
  rintro ⟨distance, relative⟩ m' ⟨rest, hstack, rfl⟩
  have hlength : rest.length < m.stack.length := by
    rw [hstack]
    simp only [List.length_cons]
    omega
  apply Action.ends_get_bind
  apply Action.Ends.ite
  · intro _
    exact Action.ends_push_taken hlength ⟨false, .refuse hstack⟩
  · intro hrange
    dsimp only at hrange ⊢
    split
    · exact Action.ends_push_taken hlength ⟨false, .refuse hstack⟩
    · rename_i damage spent hshoot
      rw [m.piece.wrap32_distance hrange]
      -- The shot is spent here, and nothing that follows can fault.
      apply Action.ends_modify_bind
      apply Action.ends_ofChecked_bind
      intro cell hcell
      apply Action.ends_ofChecked_bind
      intro other hother
      split
      · rename_i target htarget
        obtain ⟨rfl, hactive⟩ := Option.filter_eq_some_iff.mp htarget
        apply Action.ends_modify_bind
        exact Action.ends_push_taken hlength
          ⟨true, .hit hstack (by omega) hshoot hcell hother hactive⟩
      · exact Action.ends_push_taken hlength ⟨false, .miss hstack hshoot⟩

/-! ## Built-in words -/

namespace Builtin

/-- The word takes nothing off the stack. -/
def takesNothing : Builtin → Bool
  | dup | pull | depth | health | moves | range | attack | facing | turns | hasShot | myId
  | enemies | clearMail | finish => true
  | _ => false

variable {scene : Scene} {word : Builtin}

/-- A word that takes nothing only adds to the stack. -/
theorem adds_action (h : word.takesNothing = true) : (word.action scene).Adds scene := by
  cases word with
  | dup | pull => exact Action.adds_copy _
  | depth => exact Word.adds_depth
  | health | moves | range | attack | facing | turns | hasShot | myId =>
    exact Action.adds_get_bind fun _ => Action.adds_push _
  | enemies => exact Word.adds_enemies
  | clearMail => exact Word.adds_clearMail
  | finish => exact Action.adds_pure ()
  | _ => cases h

/-- Every other word but the shot takes its operands before it does anything. -/
theorem takes_action (h : word.takesNothing = false) (hword : word ≠ .shoot) :
    (word.action scene).Takes scene 0 := by
  cases word with
  | drop =>
    refine Action.pops_pop.takes fun _ => ?_
    exact (Action.fills_pure ()).takes (Nat.zero_le _)
  | swap => exact Word.takes_swap
  | rot => exact Word.takes_rot
  | nip | concat =>
    refine Action.pops_popPair.takes fun _ => ?_
    exact (Action.fills_push _).takes (by decide)
  | clear => exact Action.takes_modify fun _ => rfl
  | add | subtract | multiply => exact Word.takes_arithmetic fun _ _ _ => Word.sober_of_fit
  | divide => exact Word.takes_arithmetic fun _ _ _ => Word.sober_of_divide
  | remainder => exact Word.takes_arithmetic fun _ _ _ => Word.sober_of_remainder
  | minimum | maximum =>
    unfold action
    apply Word.takes_arithmetic
    rintro left right fault ⟨⟩
  | negate | absolute => exact Word.takes_unary fun _ _ => Word.sober_of_fit
  | equal | notEqual | conjunction | disjunction =>
    unfold action
    exact Word.takes_test _
  | less | greater | lessOrEqual | greaterOrEqual =>
    unfold action
    exact Word.takes_compare _
  | negation | toNumber =>
    refine Action.pops_pop.takes fun _ => ?_
    exact (Action.fills_push _).takes (by decide)
  | print => exact Word.takes_print
  | move => exact Word.takes_move
  | shoot => exact absurd rfl hword
  | turn => exact Word.takes_turn
  | look => exact Word.takes_look
  | identify => exact Word.takes_identify
  | send => exact Word.takes_send
  | receive => exact Word.takes_receive
  | hasMessage => exact Word.takes_hasMessage
  | _ => cases h

/-- The word takes something off the stack, on some machine. -/
def Consumes (word : Builtin) : Prop :=
  ∃ scene m flow m', word.perform scene m = .ok flow m' ∧ ¬ m.stack <:+ m'.stack

/-- A word that consumes something does not only add to the stack. -/
theorem Consumes.takes (h : word.Consumes) : word.takesNothing = false := by
  apply eq_false_of_ne_true
  intro hnothing
  obtain ⟨scene, m, flow, m', hperform, hsuffix⟩ := h
  obtain ⟨-, haction⟩ := perform_eq_ok hperform
  exact hsuffix ((adds_action hnothing m).of_ok haction).1

variable {m m' : Machine} {fault : WordFault}

/-- A word that takes operands has only taken some of them if it faults, and does not
find the stack full. -/
theorem popped_of_fault (hword : word.takesNothing = false)
    (hle : m.stack.length ≤ scene.stackLimit)
    (hfault : word.action scene m = .error (.fault fault) m') : m.Popped m' ∧ fault.Sober := by
  by_cases hshoot : word = .shoot
  · subst hshoot
    exact (Word.ends_shoot scene m).of_fault hfault hle
  · exact (takes_action hword hshoot m).of_fault hfault hle

/-- A word that faults has had no effect apart from the stack, of which the lower part
is left.  It finds the stack full only if it is, and only if the word consumes
nothing. -/
theorem perform_intact (hle : m.stack.length ≤ scene.stackLimit)
    (hfault : word.perform scene m = .error (.fault fault) m') :
    (m'.piece = m.piece ∧ m'.mailboxes = m.mailboxes ∧ m'.commands = m.commands ∧
      m'.log = m.log ∧ m'.stack <:+ m.stack) ∧
    ∀ limit, fault = .stackOverflow limit →
      m.stack.length = scene.stackLimit ∧ ¬ word.Consumes := by
  have haction := perform_eq_fault hfault
  cases hword : word.takesNothing with
  | true =>
    obtain ⟨rfl, hfull⟩ := (adds_action hword m).of_fault haction hle
    refine ⟨⟨rfl, rfl, rfl, rfl, List.suffix_refl _⟩, ?_⟩
    intro limit hlimit
    refine ⟨hfull limit hlimit, ?_⟩
    intro hconsumes
    rw [hconsumes.takes] at hword
    cases hword
  | false =>
    obtain ⟨⟨n, rfl⟩, hsober⟩ := popped_of_fault hword hle haction
    refine ⟨⟨rfl, rfl, rfl, rfl, List.drop_suffix n m.stack⟩, ?_⟩
    intro limit hlimit
    exact absurd hlimit (hsober limit)

/-- A stack that holds one value. -/
def narrow : Scene :=
  ⟨TurnContext.lone.board, 1⟩

/-- The recipient of a message that has no payload. -/
def halfMessage : Machine :=
  { Interpreter.startMachine .lone [] with stack := [.text "bob"] }

/-- The recipient cannot be copied, and is lost if it is sent nothing. -/
theorem perform_intact_halfMessage :
    (dup.perform narrow halfMessage =
        .error (.fault (.stackOverflow 1)) halfMessage ∧ ¬ dup.Consumes) ∧
      ∃ m', send.perform narrow halfMessage = .error (.fault .stackUnderflow) m' ∧
        m'.stack <:+ halfMessage.stack ∧ m'.mailboxes = halfMessage.mailboxes := by
  have hdup : dup.perform narrow halfMessage =
      .error (.fault (.stackOverflow 1)) halfMessage := by
    rfl
  have hsend : send.perform narrow halfMessage =
      .error (.fault .stackUnderflow) { halfMessage with stack := [] } := by
    rfl
  have hlength : halfMessage.stack.length ≤ narrow.stackLimit := Nat.le_refl 1
  obtain ⟨-, hfull⟩ := perform_intact hlength hdup
  obtain ⟨⟨-, hmailboxes, -, -, hstack⟩, -⟩ := perform_intact hlength hsend
  exact ⟨⟨hdup, (hfull 1 rfl).2⟩, _, hsend, hstack, hmailboxes⟩

end Builtin

end HexArena.Script
