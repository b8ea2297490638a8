import HexArena.Proofs.Lookup
import HexArena.Proofs.Script.Conduct

/-!
# A script handles mail as itself

A script sends to whatever mailbox a text names, in any letter case, and reads
and empties its own.  However it mixes these, nobody else loses a message, and
whatever is new in a queue is signed by the piece that ran the script.

Main results:

- Definition {lit}`Mailbox.Handled`: what a piece may make of a mailbox.
- Theorem {lit}`Machine.Change.handled`: every elementary change handles mail as
  the piece itself.
- Theorem {lit}`Interpreter.runTurn_handled`: so does every turn.
-/

namespace HexArena

/-! ## Mailboxes -/

/-- What a piece may make of a mailbox. -/
structure Mailbox.Handled (actor : PieceId) (old new : Mailbox) : Prop where
  owner : new.owner = old.owner
  capacity : new.capacity = old.capacity
  /-- The mailbox of somebody else grows at its end, by messages of the piece. -/
  foreign : old.owner.answersTo actor.name = false → ∃ sent, new.queue = old.queue ++ sent ∧
    ∀ message ∈ sent, message.sender = actor.name
  /-- Any mailbox, also its own, holds some of the old messages in their order,
  and behind them messages of the piece. -/
  queue : ∃ kept sent, new.queue = kept ++ sent ∧ kept.Sublist old.queue ∧
    ∀ message ∈ sent, message.sender = actor.name
  room : old.queue.length ≤ old.capacity → new.queue.length ≤ new.capacity

namespace Mailbox.Handled

variable {actor : PieceId} {old new : Mailbox}

theorem refl (actor : PieceId) (box : Mailbox) : box.Handled actor box where
  owner := rfl
  capacity := rfl
  foreign := fun _ => ⟨[], (List.append_nil box.queue).symm, nofun⟩
  queue := ⟨box.queue, [], (List.append_nil box.queue).symm, .refl box.queue, nofun⟩
  room := fun hroom => hroom

/-- A delivered message stands at the end of a queue that had room for it. -/
theorem deliver (h : old.Handled actor new) {payload : String} {filled : Mailbox}
    (hdeliver : new.deliver ⟨actor.name, payload⟩ = .ok filled) : old.Handled actor filled := by
  unfold Mailbox.deliver at hdeliver
  split at hdeliver
  · cases hdeliver
  · rename_i hspace
    cases hdeliver
    have hsigned : ∀ sent : List Message, (∀ message ∈ sent, message.sender = actor.name) →
        ∀ message ∈ sent ++ [⟨actor.name, payload⟩], message.sender = actor.name := by
      intro sent hsent message hmessage
      rcases List.mem_append.mp hmessage with hold | hnew
      · exact hsent message hold
      · rw [List.mem_singleton.mp hnew]
    refine ⟨h.owner, h.capacity, ?_, ?_, ?_⟩
    · intro hforeign
      obtain ⟨sent, hqueue, hsent⟩ := h.foreign hforeign
      refine ⟨sent ++ [⟨actor.name, payload⟩], ?_, hsigned sent hsent⟩
      simp only [hqueue, List.append_assoc]
    · obtain ⟨kept, sent, hqueue, hkept, hsent⟩ := h.queue
      refine ⟨kept, sent ++ [⟨actor.name, payload⟩], ?_, hkept, hsigned sent hsent⟩
      simp only [hqueue, List.append_assoc]
    · intro _
      simp only [isFull, decide_eq_true_eq, Nat.not_le] at hspace
      simp only [List.length_append, List.length_singleton]
      omega

/-- A change of the own mailbox that takes messages away and adds none. -/
theorem shrink (h : old.Handled actor new) (hown : new.owner.answersTo actor.name = true)
    {queue : List Message} (hqueue : ∃ kept sent, queue = kept ++ sent ∧
      kept.Sublist old.queue ∧ ∀ message ∈ sent, message.sender = actor.name)
    (hlength : queue.length ≤ new.queue.length) :
    old.Handled actor { new with queue := queue } where
  owner := h.owner
  capacity := h.capacity
  foreign := by
    intro hforeign
    rw [← h.owner, hown] at hforeign
    cases hforeign
  queue := hqueue
  room := fun hroom => Nat.le_trans hlength (h.room hroom)

/-- The message that is received was an old one or one of the piece itself. -/
theorem receive (h : old.Handled actor new) (hown : new.owner.answersTo actor.name = true)
    {sender payload : String} {drained : Mailbox}
    (hreceive : new.receive sender = some (payload, drained)) : old.Handled actor drained := by
  unfold Mailbox.receive at hreceive
  obtain ⟨message, -, hdrained⟩ := Option.map_eq_some_iff.mp hreceive
  cases hdrained
  refine h.shrink hown ?_ List.length_eraseP_le
  obtain ⟨kept, sent, hqueue, hkept, hsent⟩ := h.queue
  rw [hqueue, List.eraseP_append]
  split
  · exact ⟨kept.eraseP _, sent, rfl, List.eraseP_sublist.trans hkept, hsent⟩
  · refine ⟨kept, sent.eraseP _, rfl, hkept, ?_⟩
    intro message hmessage
    exact hsent message (List.mem_of_mem_eraseP hmessage)

theorem clear (h : old.Handled actor new) (hown : new.owner.answersTo actor.name = true) :
    old.Handled actor new.clear :=
  h.shrink hown ⟨[], [], rfl, List.nil_sublist _, nofun⟩ (Nat.zero_le _)

end Mailbox.Handled

/-! ## Directories -/

/-- What a piece may make of the mailboxes of a directory, one by one. -/
def Directory.Handled (actor : PieceId) (old new : Directory) : Prop :=
  List.Forall₂ (Mailbox.Handled actor) old.boxes new.boxes

namespace Directory.Handled

variable {actor : PieceId} {old new : Directory}

theorem refl (actor : PieceId) (d : Directory) : d.Handled actor d :=
  List.forall₂_same.mpr fun box _ => .refl actor box

theorem send (h : old.Handled actor new) {recipient payload : String} {sent : Directory}
    (hsend : new.send actor recipient payload = .ok sent) : old.Handled actor sent := by
  unfold Directory.send at hsend
  split at hsend
  · cases hsend
  · rename_i box hfound
    obtain ⟨filled, hdeliver, hsent⟩ := bind_eq_ok.mp hsend
    cases hsent
    refine forall₂_updateFirst h fun old' new' hhandled hfirst => ?_
    have hbox : new' = box := Option.some.inj (hfirst.symm.trans hfound)
    rw [hbox] at hhandled
    exact hhandled.deliver hdeliver

theorem receive (h : old.Handled actor new) {sender payload : String} {drained : Directory}
    (hreceive : new.receive actor.name sender = some (payload, drained)) :
    old.Handled actor drained := by
  unfold Directory.receive at hreceive
  obtain ⟨box, hfound, hrest⟩ := Option.bind_eq_some_iff.mp hreceive
  obtain ⟨⟨payload', box'⟩, hbox, hdrained⟩ := Option.bind_eq_some_iff.mp hrest
  cases hdrained
  refine forall₂_updateFirst h fun old' new' hhandled hfirst => ?_
  have hsame : new' = box := Option.some.inj (hfirst.symm.trans hfound)
  rw [hsame] at hhandled
  have hown := List.find?_some hfound
  exact hhandled.receive hown hbox

theorem clear (h : old.Handled actor new) : old.Handled actor (new.clear actor.name) := by
  refine forall₂_updateFirst h fun old' new' hhandled hfirst => ?_
  have hown := List.find?_some hfirst
  exact hhandled.clear hown

end Directory.Handled

/-! ## Turns -/

namespace Script

/-- Every elementary change keeps the piece who it is and handles mail in its
name. -/
theorem Machine.Change.handled {scene : Scene} {actor : PieceId} {old : Directory} {m m' : Machine}
    (hchange : m.Change scene m') (hm : m.piece.id = actor ∧ old.Handled actor m.mailboxes) :
    m'.piece.id = actor ∧ old.Handled actor m'.mailboxes := by
  obtain ⟨hself, hmail⟩ := hm
  have hself' : m'.piece.id = actor := hchange.conduct.piece.same.id.trans hself
  refine ⟨hself', ?_⟩
  cases hchange with
  | stack | print | walk | turn | miss | hit => exact hmail
  | send hsend =>
    rw [hself] at hsend
    exact hmail.send hsend
  | receive hreceive =>
    rw [hself] at hreceive
    exact hmail.receive hreceive
  | clearMail =>
    rw [hself]
    exact hmail.clear

namespace Interpreter

/-- Every turn that is reported handles mail as the piece itself, whatever its
script and its outcome.  Owners need not be told apart by their names: every
operation concerns the first mailbox that answers. -/
theorem runTurn_handled {i : Interpreter} {script : String} {context : TurnContext}
    {commands : List Command} {report : TurnReport}
    (h : i.runTurn script context commands = .ok report) :
    context.mailboxes.Handled context.piece.id report.mailboxes := by
  let kept (m : Machine) := m.piece.id = context.piece.id ∧
    context.mailboxes.Handled context.piece.id m.mailboxes
  have hstable : Machine.Stable (i.scene context) kept :=
    fun _ _ hchange hm => hchange.handled hm
  have hstart : kept (startMachine context commands) := ⟨rfl, .refl _ _⟩
  obtain ⟨m, hm, hreports⟩ := runTurn_stable hstable hstart h
  rw [hreports.mailboxes]
  exact hm.2

/-- A piece with two old messages, and a mailbox with room for one. -/
def letters : TurnContext :=
  { TurnContext.lone with
    mailboxes := ⟨[⟨.ada, 2, [⟨"Bob", "wait"⟩, ⟨"eve", "run"⟩]⟩, ⟨.bob, 1, []⟩]⟩ }

/-- A script that reads a message, writes to itself in capital letters, and
writes twice to a mailbox that has room for one. -/
def letterScript : String :=
  "\"bob\" receive drop \"note\" \"ADA\" send drop \"hi\" \"bob\" send \"hi\" \"BOB\" send"

/-- The oldest message is gone, the note stands last, and one letter arrived. -/
theorem runTurn_handled_letters :
    ∃ report, (fresh .ada .default).runTurn letterScript letters [] = .ok report ∧
      report.mailboxes =
        ⟨[⟨.ada, 2, [⟨"eve", "run"⟩, ⟨"ada", "note"⟩]⟩, ⟨.bob, 1, [⟨"ada", "hi"⟩]⟩]⟩ ∧
      letters.mailboxes.Handled .ada report.mailboxes := by
  let report : TurnReport :=
    { outcome := .completed
      interpreter := { fresh .ada .default with stack := [.int 0, .int 1] }
      piece := letters.piece
      mailboxes :=
        ⟨[⟨.ada, 2, [⟨"eve", "run"⟩, ⟨"ada", "note"⟩]⟩, ⟨.bob, 1, [⟨"ada", "hi"⟩]⟩]⟩
      commands := []
      log := [] }
  have hturn : (fresh .ada .default).runTurn letterScript letters [] = .ok report := by
    rfl
  exact ⟨report, hturn, rfl, runTurn_handled hturn⟩

end Interpreter

end Script

end HexArena
