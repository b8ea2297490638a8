import HexArena.Mail.Directory
import HexArena.Proofs.Checked
import HexArena.Proofs.Lookup
import Mathlib.Algebra.BigOperators.Group.Finset.Basic

/-!
# Mail is sorted by sender

A mailbox keeps its messages in one row, in the order they arrived, and a message
that is received is taken out of the middle.  Whoever uses it cannot tell this
from a rack with a separate queue for every sender, in which only the capacity is
shared.  Owners and senders are told apart up to the case of ASCII letters.

Main results:

- Definition {lit}`Rack`: the mail of one owner, sorted by sender.
- Definition {lit}`PostOffice.answer`: what a request does to racks.
- Definition {lit}`Mailbox.SortsTo`: a mailbox holds the mail of a rack.
- Theorem {lit}`Directory.SortsTo.answer`: a directory answers every request as
  its racks do, unless there is no room for a mailbox.
- Theorem {lit}`Directory.answerAll_sortsTo`: so it does from the first request
  on, and no mailbox ever holds more than its capacity.
-/

namespace HexArena

open Text

/-! ## Racks -/

/-- The mail of one owner, sorted by sender. -/
structure Rack where
  capacity : Nat
  /-- The senders that have a queue; their names are in lower case. -/
  senders : Finset String
  /-- The payloads of a sender, oldest first. -/
  queue : String → List String
  /-- Nobody else has sent anything. -/
  queue_eq_nil : ∀ sender, sender ∉ senders → queue sender = []

namespace Rack

/-- A rack without mail. -/
def empty (capacity : Nat) : Rack where
  capacity := capacity
  senders := ∅
  queue := fun _ => []
  queue_eq_nil := fun _ _ => rfl

/-- The number of payloads in all queues. -/
def total (r : Rack) : Nat :=
  ∑ sender ∈ r.senders, (r.queue sender).length

/-- The rack with a payload behind the others of its sender. -/
def put (r : Rack) (sender payload : String) : Rack where
  capacity := r.capacity
  senders := insert sender r.senders
  queue := Function.update r.queue sender (r.queue sender ++ [payload])
  queue_eq_nil := by
    intro other hother
    rw [Finset.mem_insert, not_or] at hother
    rw [Function.update_of_ne hother.1]
    exact r.queue_eq_nil other hother.2

/-- The rack without the oldest payload of a sender. -/
def take (r : Rack) (sender : String) : Rack where
  capacity := r.capacity
  senders := r.senders
  queue := Function.update r.queue sender (r.queue sender).tail
  queue_eq_nil := by
    intro other hother
    by_cases hsame : other = sender
    · subst hsame
      rw [Function.update_self, r.queue_eq_nil other hother]
      rfl
    · rw [Function.update_of_ne hsame]
      exact r.queue_eq_nil other hother

end Rack

/-! ## Requests -/

/-- What can be asked of the mailboxes of a match. -/
inductive MailRequest where
  | openBox (owner : PieceId) (capacity : Nat)
  | send (sender : PieceId) (recipient payload : String)
  | receive (owner sender : String)
  | hasMessage (owner sender : String)
  | clear (owner : String)
deriving DecidableEq, Repr

/-- What is answered to a request. -/
inductive MailAnswer where
  /-- Whether the request was granted. -/
  | granted (yes : Bool)
  /-- The payload that was received, if there was one. -/
  | received (payload : Option String)
  /-- Whether there is a message. -/
  | waiting (yes : Bool)
deriving DecidableEq, Repr

/-- The racks of all owners, by their names in lower case. -/
abbrev PostOffice := String → Option Rack

namespace PostOffice

/-- A post office without racks. -/
def empty : PostOffice := fun _ => none

/-- The answer to a request, and the racks after it. -/
def answer (office : PostOffice) : MailRequest → MailAnswer × PostOffice
  | .openBox owner capacity =>
    match office (fold owner.name) with
    | some _ => (.granted false, office)
    | none =>
      (.granted true, Function.update office (fold owner.name) (some (.empty capacity)))
  | .send sender recipient payload =>
    match office (fold recipient) with
    | none => (.granted false, office)
    | some rack =>
      if rack.total < rack.capacity then
        (.granted true, Function.update office (fold recipient)
          (some (rack.put (fold sender.name) payload)))
      else (.granted false, office)
  | .receive owner sender =>
    match office (fold owner) with
    | none => (.received none, office)
    | some rack =>
      match (rack.queue (fold sender)).head? with
      | none => (.received none, office)
      | some payload =>
        (.received (some payload),
          Function.update office (fold owner) (some (rack.take (fold sender))))
  | .hasMessage owner sender =>
    (.waiting ((office (fold owner)).any fun rack => (rack.queue (fold sender)).head?.isSome),
      office)
  | .clear owner =>
    match office (fold owner) with
    | none => (.granted true, office)
    | some rack =>
      (.granted true, Function.update office (fold owner) (some (.empty rack.capacity)))

/-- The answers to requests in order, and the racks after them. -/
def answerAll (office : PostOffice) : List MailRequest → List MailAnswer × PostOffice
  | [] => ([], office)
  | first :: rest =>
    let (answer, office) := office.answer first
    let (answers, office) := office.answerAll rest
    (answer :: answers, office)

end PostOffice

namespace Directory

/-- The answer to a request, and the directory after it. -/
def answer (d : Directory) : MailRequest → Checked (MailAnswer × Directory)
  | .openBox owner capacity => do
    match ← d.openBox owner capacity with
    | .ok opened => return (.granted true, opened)
    | .error _ => return (.granted false, d)
  | .send sender recipient payload =>
    match d.send sender recipient payload with
    | .ok sent => .ok (.granted true, sent)
    | .error _ => .ok (.granted false, d)
  | .receive owner sender =>
    match d.receive owner sender with
    | some (payload, drained) => .ok (.received (some payload), drained)
    | none => .ok (.received none, d)
  | .hasMessage owner sender => .ok (.waiting (d.hasMessage owner sender), d)
  | .clear owner => .ok (.granted true, d.clear owner)

/-- The answers to requests in order, and the directory after them. -/
def answerAll (d : Directory) : List MailRequest → Checked (List MailAnswer × Directory)
  | [] => .ok ([], d)
  | first :: rest => do
    let (answer, d) ← d.answer first
    let (answers, d) ← d.answerAll rest
    return (answer :: answers, d)

end Directory

/-! ## Senders -/

theorem Text.fold_eq_empty {s : String} (h : fold s = "") : s = "" := by
  have hlist : (s.toList.map Char.toLower) = [] := by
    simpa [fold] using h
  simpa using hlist

/-- A message of a named sender is from whoever has that name, in any letter
case. -/
theorem Message.isFrom_eq {m : Message} (h : m.sender ≠ "") (sender : String) :
    m.isFrom sender = decide (fold m.sender = fold sender) := by
  unfold isFrom
  by_cases hempty : sender = ""
  · subst hempty
    have hne : fold m.sender ≠ fold "" := fun hfold => h (fold_eq_empty hfold)
    simp [hne]
  · simp [hempty, Text.same, beq_eq_decide]

/-! ## Taking one message out -/

section Erase

variable {α : Type} {p q : α → Bool}

/-- Of the matching elements, the first is gone. -/
theorem filter_eraseP_self (l : List α) : (l.eraseP p).filter p = (l.filter p).tail := by
  induction l with
  | nil => rfl
  | cons a rest ih =>
    by_cases ha : p a = true
    · simp [ha]
    · simp [ha, ih]

/-- Elements of another kind stay. -/
theorem filter_eraseP_of_disjoint (hdisjoint : ∀ a, p a = true → q a = false) (l : List α) :
    (l.eraseP p).filter q = l.filter q := by
  induction l with
  | nil => rfl
  | cons a rest ih =>
    by_cases ha : p a = true
    · simp [ha, hdisjoint a ha]
    · simp [ha, List.filter_cons, ih]

/-- What is erased depends on the elements at hand only. -/
theorem eraseP_congr {l : List α} (h : ∀ a ∈ l, p a = q a) : l.eraseP p = l.eraseP q := by
  induction l with
  | nil => rfl
  | cons a rest ih =>
    have hrest := ih fun b hb => h b (List.mem_cons_of_mem a hb)
    simp [List.eraseP_cons, h a List.mem_cons_self, hrest]

end Erase

/-! ## Mailboxes -/

namespace Mailbox

/-- The payloads in a mailbox whose sender has a name in lower case, oldest
first. -/
def payloadsFrom (box : Mailbox) (key : String) : List String :=
  (box.queue.filter fun message => decide (fold message.sender = key)).map (·.payload)

/-- The mailbox holds the mail of a rack. -/
structure SortsTo (box : Mailbox) (rack : Rack) : Prop where
  capacity : rack.capacity = box.capacity
  queue : ∀ key, rack.queue key = box.payloadsFrom key
  /-- Every message has a named sender. -/
  named : ∀ message ∈ box.queue, message.sender ≠ ""
  /-- There is room for all messages. -/
  room : box.queue.length ≤ box.capacity

namespace SortsTo

variable {box : Mailbox} {rack : Rack}

/-- Every message is in one of the queues. -/
theorem total (h : box.SortsTo rack) : rack.total = box.queue.length := by
  let keys : List String := box.queue.map fun message => fold message.sender
  have hcount : ∀ key, (rack.queue key).length = (keys : Multiset String).count key := by
    intro key
    rw [h.queue, payloadsFrom, List.length_map, ← List.countP_eq_length_filter,
      Multiset.coe_count, List.count, List.countP_map]
    rfl
  have hkeys : ∀ key ∈ (keys : Multiset String), key ∈ rack.senders := by
    intro key hkey
    by_contra hnone
    have hzero := hcount key
    rw [rack.queue_eq_nil key hnone] at hzero
    exact Multiset.count_ne_zero.mpr hkey hzero.symm
  calc rack.total = ∑ key ∈ rack.senders, (keys : Multiset String).count key :=
        Finset.sum_congr rfl fun key _ => hcount key
    _ = (keys : Multiset String).card := Multiset.sum_count_eq_card hkeys
    _ = box.queue.length := by simp [keys]

theorem empty (owner : PieceId) (capacity : Nat) :
    (Mailbox.empty owner capacity).SortsTo (.empty capacity) where
  capacity := rfl
  queue := fun _ => rfl
  named := nofun
  room := Nat.zero_le capacity

/-- A message is accepted if the queues together leave room, and then stands last
in the queue of its sender. -/
theorem deliver (h : box.SortsTo rack) {sender : String} (hsender : sender ≠ "")
    (payload : String) (hroom : rack.total < rack.capacity) :
    box.deliver ⟨sender, payload⟩ =
        .ok { box with queue := box.queue ++ [⟨sender, payload⟩] } ∧
      SortsTo { box with queue := box.queue ++ [⟨sender, payload⟩] }
        (rack.put (fold sender) payload) := by
  rw [h.total, h.capacity] at hroom
  have hopen : box.isFull = false := decide_eq_false (Nat.not_le.mpr hroom)
  refine ⟨by simp [Mailbox.deliver, hopen], h.capacity, ?_, ?_, ?_⟩
  · intro key
    show Function.update rack.queue (fold sender) (rack.queue (fold sender) ++ [payload]) key = _
    by_cases hkey : key = fold sender
    · subst hkey
      rw [Function.update_self, h.queue]
      simp [payloadsFrom]
    · rw [Function.update_of_ne hkey, h.queue]
      simp [payloadsFrom, Ne.symm hkey]
  · intro message hmessage
    rcases List.mem_append.mp hmessage with hold | hnew
    · exact h.named message hold
    · rw [List.mem_singleton.mp hnew]
      exact hsender
  · show (box.queue ++ [_]).length ≤ box.capacity
    rw [List.length_append, List.length_singleton]
    exact hroom

theorem deliver_full (h : box.SortsTo rack) (message : Message)
    (hfull : ¬ rack.total < rack.capacity) :
    box.deliver message = .error (.full box.owner.name) := by
  rw [h.total, h.capacity, Nat.not_lt] at hfull
  have hclosed : box.isFull = true := decide_eq_true hfull
  simp [Mailbox.deliver, hclosed]

/-- Which messages come from a sender is told by their names in lower case. -/
theorem find?_isFrom (h : box.SortsTo rack) (sender : String) :
    (box.queue.find? (·.isFrom sender)).map (·.payload) = (rack.queue (fold sender)).head? := by
  have hfrom : box.queue.filter (·.isFrom sender) =
      box.queue.filter fun message => decide (fold message.sender = fold sender) :=
    List.filter_congr fun message hmessage => Message.isFrom_eq (h.named message hmessage) sender
  rw [← List.head?_filter, hfrom, h.queue, payloadsFrom, List.head?_map]

theorem hasMessage (h : box.SortsTo rack) (sender : String) :
    box.hasMessage sender = (rack.queue (fold sender)).head?.isSome := by
  rw [← h.find?_isFrom, Option.isSome_map, Bool.eq_iff_iff, Mailbox.hasMessage, List.any_eq_true,
    List.find?_isSome]

/-- The mailbox without the oldest message of a sender. -/
theorem erase (h : box.SortsTo rack) (sender : String) :
    SortsTo { box with queue := box.queue.eraseP (·.isFrom sender) } (rack.take (fold sender)) where
  capacity := h.capacity
  queue := by
    intro key
    -- Among the messages at hand, to be from a sender is to have its name in lower case.
    have herase : box.queue.eraseP (·.isFrom sender) =
        box.queue.eraseP fun message => decide (fold message.sender = fold sender) :=
      eraseP_congr fun message hmessage => Message.isFrom_eq (h.named message hmessage) sender
    show Function.update rack.queue (fold sender) (rack.queue (fold sender)).tail key = _
    by_cases hkey : key = fold sender
    · subst hkey
      rw [Function.update_self, h.queue]
      simp only [payloadsFrom, herase, filter_eraseP_self, List.map_tail]
    · have hdisjoint : ∀ message : Message, decide (fold message.sender = fold sender) = true →
          decide (fold message.sender = key) = false := by
        intro message hfrom
        rw [of_decide_eq_true hfrom]
        exact decide_eq_false (Ne.symm hkey)
      rw [Function.update_of_ne hkey, h.queue]
      simp only [payloadsFrom, herase, filter_eraseP_of_disjoint hdisjoint]
  named := fun message hmessage => h.named message (List.mem_of_mem_eraseP hmessage)
  room := Nat.le_trans List.length_eraseP_le h.room

end SortsTo

end Mailbox

/-! ## Directories -/

namespace Directory

variable {d : Directory} {name : String} {f : Mailbox → Mailbox}

theorem fold_owner_of_find? {box : Mailbox} (h : d.find? name = some box) :
    fold box.owner.name = fold name :=
  same_iff.mp (List.find?_some (p := fun box : Mailbox => box.owner.answersTo name) h)

/-- A mailbox is found by a name in any letter case. -/
theorem find?_congr {other : String} (h : fold other = fold name) :
    d.find? other = d.find? name := by
  simp only [Directory.find?, PieceId.answersTo, Text.same, h]

/-- A message is received from the mailbox that is found. -/
theorem receive_of_find? {box : Mailbox} (h : d.find? name = some box) (sender : String) :
    d.receive name sender =
      (box.receive sender).map fun (payload, drained) => (payload, d.replace name drained) := by
  simp only [Directory.receive, h, Option.bind_eq_bind, Option.bind_some]
  cases box.receive sender with
  | none => rfl
  | some taken => rfl

/-- A change of the mailbox of an owner changes what is found by the name of the
owner, and nothing else. -/
theorem find?_updateFirst_owner
    (hf : ∀ box : Mailbox, fold box.owner.name = fold name → fold (f box).owner.name = fold name)
    (other : String) :
    Directory.find? ⟨updateFirst (·.owner.answersTo name) f d.boxes⟩ other =
      if fold other = fold name then (d.find? name).map f else d.find? other := by
  have hkeeps : ∀ box ∈ d.boxes, box.owner.answersTo name = true →
      (f box).owner.answersTo name = true :=
    fun box _ hbox => same_iff.mpr (hf box (same_iff.mp hbox))
  split
  · rename_i hsame
    rw [find?_congr hsame]
    exact HexArena.find?_updateFirst hkeeps
  · rename_i hother
    have hdisjoint : ∀ box : Mailbox, box.owner.answersTo name = true →
        box.owner.answersTo other = false := by
      intro box hbox
      refine eq_false_of_ne_true fun hbox' => hother ?_
      exact (same_iff.mp hbox').symm.trans (same_iff.mp hbox)
    exact find?_updateFirst_of_disjoint (fun box _ hbox => hdisjoint box hbox)
      fun box hmem hbox => hdisjoint (f box) (hkeeps box hmem hbox)

/-- The mailboxes hold the mail of the racks, and every owner has one mailbox. -/
structure SortsTo (d : Directory) (office : PostOffice) : Prop where
  boxes : ∀ name, Option.Rel Mailbox.SortsTo (d.find? name) (office (fold name))
  distinct : (d.boxes.map fun box => fold box.owner.name).Nodup

namespace SortsTo

variable {office : PostOffice} {box : Mailbox} {rack : Rack}

/-- Every mailbox is the one that is found by the name of its owner. -/
theorem find?_owner (h : d.SortsTo office) (hbox : box ∈ d.boxes) :
    d.find? box.owner.name = some box := by
  cases hfound : d.find? box.owner.name with
  | none => exact absurd (same_iff.mpr rfl) (List.find?_eq_none.mp hfound box hbox)
  | some other =>
    have hmem := List.mem_of_find?_eq_some hfound
    rw [List.inj_on_of_nodup_map h.distinct hmem hbox (fold_owner_of_find? hfound)]

/-- For every name there is a mailbox and a rack, or neither. -/
theorem cases (h : d.SortsTo office) (name : String) :
    d.find? name = none ∧ office (fold name) = none ∨
      ∃ box rack, d.find? name = some box ∧ office (fold name) = some rack ∧
        box.SortsTo rack := by
  have hboxes := h.boxes name
  generalize d.find? name = found at hboxes
  generalize office (fold name) = found' at hboxes
  cases hboxes with
  | none => exact Or.inl ⟨rfl, rfl⟩
  | some hsorts => exact Or.inr ⟨_, _, rfl, rfl, hsorts⟩

/-- There is room for all messages of a mailbox. -/
theorem room (h : d.SortsTo office) (hbox : box ∈ d.boxes) :
    box.queue.length ≤ box.capacity := by
  have hfound := h.find?_owner hbox
  rcases h.cases box.owner.name with ⟨hnone, -⟩ | ⟨box', _, hbox', -, hsorts⟩
  · rw [hnone] at hfound
    cases hfound
  · rw [hbox'] at hfound
    cases hfound
    exact hsorts.room

/-- A mailbox and its rack go on together. -/
theorem update (h : d.SortsTo office)
    (hf : ∀ box : Mailbox, fold box.owner.name = fold name → fold (f box).owner.name = fold name)
    (hbox : d.find? name = some box) (hnew : (f box).SortsTo rack) :
    SortsTo ⟨updateFirst (·.owner.answersTo name) f d.boxes⟩
      (Function.update office (fold name) (some rack)) where
  boxes := by
    intro other
    rw [find?_updateFirst_owner hf]
    split
    · rename_i hsame
      rw [hsame, Function.update_self, hbox]
      exact .some hnew
    · rename_i hother
      rw [Function.update_of_ne hother]
      exact h.boxes other
  distinct := by
    show (List.map _ (updateFirst _ f d.boxes)).Nodup
    rw [map_updateFirst fun box _ hname => ?_]
    · exact h.distinct
    · have hfold := same_iff.mp hname
      rw [hf box hfold, hfold]

theorem replace (h : d.SortsTo office) (hbox : d.find? name = some box) {new : Mailbox}
    (hnew : new.SortsTo rack) (howner : new.owner = box.owner) :
    (d.replace name new).SortsTo (Function.update office (fold name) (some rack)) := by
  have hname : fold new.owner.name = fold name := by
    rw [howner]
    exact fold_owner_of_find? hbox
  exact h.update (fun _ _ => hname) hbox hnew

/-- A new mailbox and its rack are empty. -/
theorem append (h : d.SortsTo office) (owner : PieceId) (capacity : Nat)
    (hnew : d.find? owner.name = none) :
    SortsTo ⟨d.boxes ++ [.empty owner capacity]⟩
      (Function.update office (fold owner.name) (some (.empty capacity))) where
  boxes := by
    intro name
    have hfind : Directory.find? ⟨d.boxes ++ [.empty owner capacity]⟩ name =
        (d.find? name).or ([Mailbox.empty owner capacity].find? (·.owner.answersTo name)) :=
      List.find?_append
    rw [hfind, List.find?_singleton]
    by_cases hname : fold name = fold owner.name
    · have hnone : d.find? name = none := by
        rw [← hnew]
        exact find?_congr hname
      have hanswers : (Mailbox.empty owner capacity).owner.answersTo name = true :=
        same_iff.mpr hname.symm
      rw [hnone, hname, Function.update_self, if_pos hanswers]
      exact .some (.empty owner capacity)
    · have hanswers : ¬ (Mailbox.empty owner capacity).owner.answersTo name = true :=
        fun hsame => hname (same_iff.mp hsame).symm
      rw [Function.update_of_ne hname, if_neg hanswers, Option.or_none]
      exact h.boxes name
  distinct := by
    rw [List.map_append, List.nodup_append']
    refine ⟨h.distinct, List.nodup_singleton _, ?_⟩
    intro key hkey hkey'
    obtain ⟨box, hbox, rfl⟩ := List.mem_map.mp hkey
    have hsame : fold box.owner.name = fold owner.name := List.mem_singleton.mp hkey'
    exact List.find?_eq_none.mp hnew box hbox (same_iff.mpr hsame)

end SortsTo

/-! ## Answers -/

/-- The directory and the racks give one answer to a request, and the mailboxes
hold the mail of the racks after it. -/
def AnswersAs (d : Directory) (office : PostOffice) (request : MailRequest) : Prop :=
  ∃ answer d' office', d.answer request = .ok (answer, d') ∧
    office.answer request = (answer, office') ∧ d'.SortsTo office'

namespace SortsTo

variable {office : PostOffice}

/-- A mailbox is opened for an owner that has none, unless there is no room for
it. -/
theorem answer_openBox (h : d.SortsTo office) (owner : PieceId) (capacity : Nat) :
    d.AnswersAs office (.openBox owner capacity) ∨
      d.answer (.openBox owner capacity) = .error .capacity ∧ Mailbox.maxCapacity < capacity := by
  rcases h.cases owner.name with ⟨hnone, hrack⟩ | ⟨box, rack, hbox, hrack, -⟩
  · by_cases hroom : capacity ≤ Mailbox.maxCapacity
    · refine Or.inl ⟨.granted true, _, _, ?_, ?_, h.append owner capacity hnone⟩
      · simp only [Directory.answer, Directory.openBox, hnone, if_pos hroom]
        rfl
      · simp only [PostOffice.answer, hrack]
    · refine Or.inr ⟨?_, Nat.not_le.mp hroom⟩
      simp only [Directory.answer, Directory.openBox, hnone, if_neg hroom]
      rfl
  · refine Or.inl ⟨.granted false, d, office, ?_, ?_, h⟩
    · simp only [Directory.answer, Directory.openBox, hbox]
      rfl
    · simp only [PostOffice.answer, hrack]

theorem answer_send (h : d.SortsTo office) (sender : PieceId) (recipient payload : String) :
    d.AnswersAs office (.send sender recipient payload) := by
  rcases h.cases recipient with ⟨hnone, hrack⟩ | ⟨box, rack, hbox, hrack, hsorts⟩
  · refine ⟨.granted false, d, office, ?_, ?_, h⟩
    · simp only [Directory.answer, Directory.send, hnone]
    · simp only [PostOffice.answer, hrack]
  · by_cases hroom : rack.total < rack.capacity
    · obtain ⟨hdeliver, hnew⟩ := hsorts.deliver sender.nonempty payload hroom
      refine ⟨.granted true, _, _, ?_, ?_, h.replace hbox hnew rfl⟩
      · simp only [Directory.answer, Directory.send, hbox, hdeliver]
        rfl
      · simp only [PostOffice.answer, hrack, if_pos hroom]
    · have hfull := hsorts.deliver_full ⟨sender.name, payload⟩ hroom
      refine ⟨.granted false, d, office, ?_, ?_, h⟩
      · simp only [Directory.answer, Directory.send, hbox, hfull]
        rfl
      · simp only [PostOffice.answer, hrack, if_neg hroom]

theorem answer_receive (h : d.SortsTo office) (owner sender : String) :
    d.AnswersAs office (.receive owner sender) := by
  rcases h.cases owner with ⟨hnone, hrack⟩ | ⟨box, rack, hbox, hrack, hsorts⟩
  · refine ⟨.received none, d, office, ?_, ?_, h⟩
    · simp only [Directory.answer, Directory.receive, hnone]
      rfl
    · simp only [PostOffice.answer, hrack]
  · have hhead := hsorts.find?_isFrom sender
    cases hfirst : box.queue.find? (·.isFrom sender) with
    | none =>
      rw [hfirst, Option.map_none] at hhead
      have hreceive : d.receive owner sender = none := by
        rw [receive_of_find? hbox, Mailbox.receive, hfirst]
        rfl
      refine ⟨.received none, d, office, ?_, ?_, h⟩
      · simp only [Directory.answer, hreceive]
      · simp only [PostOffice.answer, hrack, ← hhead]
    | some message =>
      rw [hfirst, Option.map_some] at hhead
      have hreceive : d.receive owner sender = some (message.payload,
          d.replace owner { box with queue := box.queue.eraseP (·.isFrom sender) }) := by
        rw [receive_of_find? hbox, Mailbox.receive, hfirst]
        rfl
      refine ⟨.received (some message.payload), _, _, ?_, ?_,
        h.replace hbox (hsorts.erase sender) rfl⟩
      · simp only [Directory.answer, hreceive]
      · simp only [PostOffice.answer, hrack, ← hhead]

theorem answer_hasMessage (h : d.SortsTo office) (owner sender : String) :
    d.AnswersAs office (.hasMessage owner sender) := by
  refine ⟨.waiting (d.hasMessage owner sender), d, office, rfl, ?_, h⟩
  rcases h.cases owner with ⟨hnone, hrack⟩ | ⟨box, rack, hbox, hrack, hsorts⟩
  · simp only [PostOffice.answer, hrack, Directory.hasMessage, hnone, Option.any_none]
  · simp only [PostOffice.answer, hrack, Directory.hasMessage, hbox, Option.any_some,
      hsorts.hasMessage]

theorem answer_clear (h : d.SortsTo office) (owner : String) :
    d.AnswersAs office (.clear owner) := by
  rcases h.cases owner with ⟨hnone, hrack⟩ | ⟨box, rack, hbox, hrack, hsorts⟩
  · refine ⟨.granted true, d, office, ?_, ?_, h⟩
    · have hkept : d.clear owner = d :=
        congrArg Directory.mk (updateFirst_of_find?_eq_none hnone)
      rw [Directory.answer, hkept]
    · simp only [PostOffice.answer, hrack]
  · have hcleared : box.clear.SortsTo (.empty rack.capacity) :=
      ⟨hsorts.capacity, fun _ => rfl, nofun, Nat.zero_le _⟩
    refine ⟨.granted true, _, _, rfl, ?_, h.update (fun _ hname => hname) hbox hcleared⟩
    simp only [PostOffice.answer, hrack]

/-- A directory answers every request as its racks do, unless there is no room
for a mailbox that is to be opened. -/
theorem answer (h : d.SortsTo office) (request : MailRequest) :
    d.AnswersAs office request ∨
      d.answer request = .error .capacity ∧
        ∃ owner capacity, request = .openBox owner capacity ∧ Mailbox.maxCapacity < capacity := by
  cases request with
  | openBox owner capacity =>
    rcases h.answer_openBox owner capacity with hanswers | ⟨hfails, hcapacity⟩
    · exact Or.inl hanswers
    · exact Or.inr ⟨hfails, owner, capacity, rfl, hcapacity⟩
  | send sender recipient payload => exact Or.inl (h.answer_send sender recipient payload)
  | receive owner sender => exact Or.inl (h.answer_receive owner sender)
  | hasMessage owner sender => exact Or.inl (h.answer_hasMessage owner sender)
  | clear owner => exact Or.inl (h.answer_clear owner)

/-- So it answers requests in order. -/
theorem answerAll (h : d.SortsTo office) (requests : List MailRequest) :
    (∃ answers d' office', d.answerAll requests = .ok (answers, d') ∧
      office.answerAll requests = (answers, office') ∧ d'.SortsTo office') ∨
      d.answerAll requests = .error .capacity ∧
        ∃ owner capacity, .openBox owner capacity ∈ requests ∧ Mailbox.maxCapacity < capacity := by
  induction requests generalizing d office with
  | nil => exact Or.inl ⟨[], d, office, rfl, rfl, h⟩
  | cons first rest ih =>
    rcases h.answer first with ⟨answer, mid, mid', hanswer, hanswer', hmid⟩ |
      ⟨hfails, owner, capacity, rfl, hcapacity⟩
    · rcases ih hmid with ⟨answers, last, last', hrest, hrest', hlast⟩ |
        ⟨hfails, owner, capacity, hmem, hcapacity⟩
      · refine Or.inl ⟨answer :: answers, last, last', ?_, ?_, hlast⟩
        · exact bind_eq_ok.mpr ⟨_, hanswer, bind_eq_ok.mpr ⟨_, hrest, rfl⟩⟩
        · simp only [PostOffice.answerAll, hanswer', hrest']
      · refine Or.inr ⟨?_, owner, capacity, List.mem_cons_of_mem first hmem, hcapacity⟩
        simp only [Directory.answerAll, hanswer, bind, Except.bind, hfails]
    · refine Or.inr ⟨?_, owner, capacity, List.mem_cons_self, hcapacity⟩
      simp only [Directory.answerAll, hfails, bind, Except.bind]

end SortsTo

/-- Nothing comes from the empty name. -/
theorem receive_empty (d : Directory) (owner : String) : d.receive owner "" = none := by
  cases hbox : d.find? owner with
  | none => simp [Directory.receive, hbox]
  | some box =>
    have hnone : box.queue.find? (·.isFrom "") = none :=
      List.find?_eq_none.mpr fun _ _ => Bool.false_ne_true
    rw [receive_of_find? hbox, Mailbox.receive, hnone]
    rfl

theorem sortsTo_empty : empty.SortsTo .empty where
  boxes := fun _ => .none
  distinct := List.nodup_nil

/-- From the first request on, a directory answers as racks do that sort the mail
by sender: it grants the same requests, hands out the same payloads and goes on to
hold the same mail.  No mailbox ever holds more than its capacity, and nobody
receives anything from the empty name.  The only way to get no answer is to open
a mailbox for which there is no room. -/
theorem answerAll_sortsTo (requests : List MailRequest) :
    (∃ answers d office, empty.answerAll requests = .ok (answers, d) ∧
      PostOffice.empty.answerAll requests = (answers, office) ∧ d.SortsTo office ∧
      (∀ box ∈ d.boxes, box.queue.length ≤ box.capacity) ∧
      ∀ owner, d.receive owner "" = none) ∨
    empty.answerAll requests = .error .capacity ∧
      ∃ owner capacity, .openBox owner capacity ∈ requests ∧ Mailbox.maxCapacity < capacity := by
  rcases sortsTo_empty.answerAll requests with ⟨answers, d, office, hanswers, hanswers', hsorts⟩ |
    hfails
  · exact Or.inl ⟨answers, d, office, hanswers, hanswers', hsorts, fun _ => hsorts.room,
      receive_empty d⟩
  · exact Or.inr hfails

end Directory

end HexArena
