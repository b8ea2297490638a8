import HexArena.Proofs.Mail.Sorting
import Mathlib.Data.List.TakeWhile

/-!
# Messages on the wire

A message reaches a mailbox by its wire form or by its parts.  The wire form is divided
at its first separator, so a sender must not hold one, while a payload may hold any
number; the identifier of a piece holds none.  Both ways therefore queue the same
message, and whoever receives all messages of the sender gets the payload as it was
sent, behind what had arrived before.

Main results:

- Theorem {lit}`Message.decode_eq_ok_iff`: a text is read as the message whose wire form
  it is, if the sender holds no separator.
- Definition {lit}`Mailbox.receiveAll`: all messages of a sender, received one by one.
- Theorem {lit}`Mailbox.receiveAll_eq`: what they are, and what is left.
- Definition {lit}`Mailbox.Carries`: the wire form and the parts of a message do the
  same to a mailbox.
- Theorem {lit}`Mailbox.wire_carries_messages`: they do, for every sender, payload and
  mailbox.
-/

namespace HexArena

open Text

/-! ## Wire forms -/

namespace Message

variable {raw : String} {m : Message}

/-- The first separator divides, and the others belong to the payload. -/
theorem decode_of_divided {sender payload : List Char} (h : separator ∉ sender) :
    decode (String.ofList (sender ++ separator :: payload)) =
      .ok ⟨String.ofList sender, String.ofList payload⟩ := by
  have hsender : ∀ c ∈ sender, (c != separator) = true := by
    intro c hc
    exact bne_iff_ne.mpr fun hsame => h (hsame ▸ hc)
  have hspan : (sender ++ separator :: payload).span (· != separator) =
      (sender, separator :: payload) := by
    rw [List.span_eq_takeWhile_dropWhile, List.takeWhile_append_of_pos hsender,
      List.dropWhile_append_of_pos hsender]
    simp
  simp only [decode, String.toList_ofList, hspan]

theorem decode_of_undivided (h : separator ∉ raw.toList) :
    decode raw = .error (.missingSeparator raw) := by
  have hrest : raw.toList.dropWhile (· != separator) = [] := by
    refine List.dropWhile_eq_nil_iff.mpr fun c hc => ?_
    exact bne_iff_ne.mpr fun hsame => h (hsame ▸ hc)
  simp only [decode, List.span_eq_takeWhile_dropWhile, hrest]

/-- A message whose sender holds no separator is read from its wire form. -/
theorem decode_encode (h : separator ∉ m.sender.toList) : decode m.encode = .ok m := by
  rw [encode, decode_of_divided h, String.ofList_toList, String.ofList_toList]

/-- Every text with a separator is the wire form of a message. -/
theorem exists_encode_eq (h : separator ∈ raw.toList) :
    ∃ m : Message, separator ∉ m.sender.toList ∧ m.encode = raw := by
  obtain ⟨sender, payload, hraw, hsender⟩ := List.eq_append_cons_of_mem h
  refine ⟨⟨String.ofList sender, String.ofList payload⟩, ?_, ?_⟩
  · rw [String.toList_ofList]
    exact hsender
  · rw [encode, String.toList_ofList, String.toList_ofList, ← hraw, String.ofList_toList]

/-- A text is read as the message whose wire form it is, if the sender holds no
separator. -/
theorem decode_eq_ok_iff : decode raw = .ok m ↔ separator ∉ m.sender.toList ∧ m.encode = raw := by
  constructor
  · intro hdecode
    by_cases hmem : separator ∈ raw.toList
    · obtain ⟨read, hsender, rfl⟩ := exists_encode_eq hmem
      rw [decode_encode hsender] at hdecode
      cases hdecode
      exact ⟨hsender, rfl⟩
    · rw [decode_of_undivided hmem] at hdecode
      cases hdecode
  · rintro ⟨hsender, rfl⟩
    exact decode_encode hsender

/-- The texts that can be read are those with a separator. -/
theorem exists_decode_iff : (∃ m, decode raw = .ok m) ↔ separator ∈ raw.toList := by
  constructor
  · rintro ⟨m, hm⟩
    obtain ⟨-, rfl⟩ := decode_eq_ok_iff.mp hm
    simp [encode]
  · intro hmem
    obtain ⟨m, hm⟩ := exists_encode_eq hmem
    exact ⟨m, decode_eq_ok_iff.mpr hm⟩

end Message

/-! ## Receiving all messages of a sender -/

namespace Mailbox

variable {box rest : Mailbox} {name payload : String}

theorem length_of_receive (h : box.receive name = some (payload, rest)) :
    rest.queue.length < box.queue.length := by
  obtain ⟨message, hfound, hrest⟩ := Option.map_eq_some_iff.mp h
  cases hrest
  have hmem := List.mem_of_find?_eq_some hfound
  have hfrom := List.find?_some hfound
  have hpos := List.length_pos_of_mem hmem
  have hlength := List.length_eraseP_of_mem (p := (·.isFrom name)) hmem hfrom
  show (box.queue.eraseP (·.isFrom name)).length < box.queue.length
  omega

/-- The payloads of a sender, received one by one until none is left, and the mailbox
after that. -/
def receiveAll (box : Mailbox) (sender : String) : List String × Mailbox :=
  match h : box.receive sender with
  | none => ([], box)
  | some (payload, rest) =>
    have := length_of_receive h
    let (later, last) := rest.receiveAll sender
    (payload :: later, last)
termination_by box.queue.length

/-- All payloads of the sender are received, oldest first, and the messages of others
are left. -/
theorem receiveAll_eq (box : Mailbox) (name : String) :
    box.receiveAll name =
      ((box.queue.filter (·.isFrom name)).map (·.payload),
        { box with queue := box.queue.filter (!·.isFrom name) }) := by
  fun_induction receiveAll box name with
  | case1 box h =>
    have hnone : ∀ message ∈ box.queue, ¬ message.isFrom name = true :=
      List.find?_eq_none.mp (Option.map_eq_none_iff.mp h)
    have hothers : box.queue.filter (!·.isFrom name) = box.queue :=
      List.filter_eq_self.mpr fun message hmessage => by simp [hnone message hmessage]
    rw [List.filter_eq_nil_iff.mpr hnone, hothers]
    rfl
  | case2 box payload rest h _ later last hlater ih =>
    obtain ⟨message, hfound, hrest⟩ := Option.map_eq_some_iff.mp h
    cases hrest
    rw [hlater] at ih
    cases ih
    have hhead : (box.queue.filter (·.isFrom name)).head? = some message := by
      rw [List.head?_filter, hfound]
    obtain ⟨others, hothers⟩ := List.head?_eq_some_iff.mp hhead
    have hkept : (box.queue.eraseP (·.isFrom name)).filter (!·.isFrom name) =
        box.queue.filter (!·.isFrom name) :=
      filter_eraseP_of_disjoint (fun message hfrom => by simp [hfrom]) box.queue
    simp only [filter_eraseP_self, hothers, hkept, List.tail_cons, List.map_cons]

/-! ## Delivering -/

/-- A message is queued behind the others, if there is room. -/
theorem deliver_of_room (h : box.queue.length < box.capacity) (message : Message) :
    box.deliver message = .ok { box with queue := box.queue ++ [message] } := by
  have hopen : box.isFull = false := decide_eq_false (Nat.not_le.mpr h)
  simp [deliver, hopen]

/-- A message that was queued is received last of all messages of its sender, and
nothing else changes. -/
theorem receiveAll_append {message : Message} (h : message.isFrom name = true) :
    receiveAll { box with queue := box.queue ++ [message] } name =
      ((box.receiveAll name).1 ++ [message.payload], (box.receiveAll name).2) := by
  simp [receiveAll_eq, List.filter_append, h]

/-- The wire form of a message from a piece is accepted as the message is delivered. -/
theorem accept_encode (box : Mailbox) (sender : PieceId) (payload : String) :
    box.accept (Message.encode ⟨sender.name, payload⟩) = box.deliver ⟨sender.name, payload⟩ := by
  have hdecode := Message.decode_encode (m := ⟨sender.name, payload⟩) sender.noSeparator
  simp only [accept, hdecode, bind, Except.bind]

end Mailbox

/-- What is sent to a recipient is delivered to the mailbox that is found by the name of
the recipient. -/
theorem Directory.find?_of_send {d : Directory} {recipient : String} {box : Mailbox}
    (hbox : d.find? recipient = some box) (sender : PieceId) (payload : String) :
    (d.send sender recipient payload).map (·.find? recipient) =
      (box.deliver ⟨sender.name, payload⟩).map some := by
  simp only [Directory.send, hbox]
  unfold Mailbox.deliver
  split
  · rfl
  · have hfind : ∀ filled : Mailbox, filled.owner = box.owner →
        (d.replace recipient filled).find? recipient = some filled := by
      intro filled howner
      have hkeeps : ∀ other : Mailbox, fold other.owner.name = fold recipient →
          fold filled.owner.name = fold recipient := by
        intro other _
        rw [howner]
        exact fold_owner_of_find? hbox
      rw [Directory.replace, find?_updateFirst_owner hkeeps, if_pos rfl, hbox, Option.map_some]
    simp only [bind, Except.bind, pure, Except.pure, Except.map, hfind]

/-! ## Both ways -/

namespace Mailbox

/-- The wire form of a message and its parts do the same to a mailbox, and the payload is
received as it was sent. -/
structure Carries (box : Mailbox) (sender : PieceId) (payload : String) : Prop where
  accept : box.accept (Message.encode ⟨sender.name, payload⟩) = box.deliver ⟨sender.name, payload⟩
  /-- So does sending, whatever name leads to the mailbox. -/
  send : ∀ (d : Directory) (recipient : String), d.find? recipient = some box →
    (d.send sender recipient payload).map (·.find? recipient) =
      (box.accept (Message.encode ⟨sender.name, payload⟩)).map some
  /-- If there is room, the payload comes behind those that were queued before it, and
  nothing else changes. -/
  receive : box.queue.length < box.capacity →
    ∃ filled, box.accept (Message.encode ⟨sender.name, payload⟩) = .ok filled ∧
      ∀ name, sender.answersTo name = true →
        filled.receiveAll name = ((box.receiveAll name).1 ++ [payload], (box.receiveAll name).2)

/-- Every message of a piece is carried. -/
theorem carries (box : Mailbox) (sender : PieceId) (payload : String) :
    box.Carries sender payload where
  accept := accept_encode box sender payload
  send := by
    intro d recipient hbox
    rw [accept_encode]
    exact Directory.find?_of_send hbox sender payload
  receive := by
    intro hroom
    refine ⟨_, (accept_encode box sender payload).trans (deliver_of_room hroom _), ?_⟩
    intro name hname
    refine receiveAll_append ?_
    rw [Message.isFrom_eq sender.nonempty]
    exact decide_eq_true (same_iff.mp hname)

/-- A text can be read exactly if it holds a separator, and is the wire form of what is
read.  A message is read from its wire form exactly if its sender holds no separator.
Hence a message of a piece reaches a mailbox by its wire form as it does by its parts,
whatever its payload holds. -/
theorem wire_carries_messages :
    (∀ raw, (∃ m, Message.decode raw = .ok m) ↔ separator ∈ raw.toList) ∧
    (∀ raw m, Message.decode raw = .ok m → m.encode = raw) ∧
    (∀ m : Message, Message.decode m.encode = .ok m ↔ separator ∉ m.sender.toList) ∧
    ∀ (box : Mailbox) (sender : PieceId) (payload : String), box.Carries sender payload := by
  refine ⟨fun raw => Message.exists_decode_iff, fun raw m h => ?_, fun m => ?_, carries⟩
  · exact (Message.decode_eq_ok_iff.mp h).2
  · rw [Message.decode_eq_ok_iff, and_iff_left rfl]

/-- A piece that writes to itself. -/
def diarist : PieceId :=
  ⟨"Robin", by decide, by decide, by decide⟩

/-- A payload with a separator in it comes behind an older message of the same sender,
whose name is in capital letters. -/
theorem wire_carries_messages_noon :
    Message.decode "Robin@meet@noon" = .ok ⟨"Robin", "meet@noon"⟩ ∧
      Message.encode ⟨"Robin", "meet@noon"⟩ = "Robin@meet@noon" ∧
      ∃ filled, accept ⟨diarist, 2, [⟨"ROBIN", "hi"⟩]⟩ "Robin@meet@noon" = .ok filled ∧
        (filled.receiveAll "robin").1 = ["hi", "meet@noon"] := by
  have hdecode : Message.decode "Robin@meet@noon" = .ok ⟨"Robin", "meet@noon"⟩ := by
    rfl
  have hencode := wire_carries_messages.2.1 _ _ hdecode
  have hcarries :=
    wire_carries_messages.2.2.2 ⟨diarist, 2, [⟨"ROBIN", "hi"⟩]⟩ diarist "meet@noon"
  obtain ⟨filled, haccept, hreceive⟩ := hcarries.receive (by decide)
  refine ⟨hdecode, hencode, filled, ?_, ?_⟩
  · rw [← hencode]
    exact haccept
  · rw [hreceive "robin" rfl, receiveAll_eq]
    rfl

end Mailbox

end HexArena
