import HexArena.Proofs.Script.Derivation
import HexArena.Proofs.Script.Simulation
import HexArena.Proofs.Script.Turn
import Mathlib.Data.Multiset.DershowitzManna
import Mathlib.Data.Set.Finite.Lattice

/-!
# Scripts without loops

User words may expand into themselves and each other, so the queue of a script without
loops can grow, and grow exponentially, before it is empty.  What the limit on the depth of
expansions leaves for each item of the queue, its room, decides: a step takes an item, and
what it puts in its place has less room.  The rooms of a queue descend as a multiset, and
there are only a few ways a step can go, so there is a number of steps in which such a
script ends whatever it works on.

Main results:

- Definition {lit}`LoopFree`: tokens that open no loop.
- Definition {lit}`Leads`: what may be left to do when an item was taken.
- Theorem {lit}`Execution.leads_step`: a step without a loop leads there.
- Theorem {lit}`Leads.rooms_lt`: the rooms descend.
- Theorem {lit}`exists_endsWithin`: a number of steps that is enough.
- Theorem {lit}`Interpreter.exists_stepLimit_of_loopFree`: a step limit that a turn
  without loops does not exceed.
-/

namespace HexArena.Script

/-! ## Tokens without loops -/

/-- No token opens a loop. -/
def LoopFree (tokens : List Token) : Prop :=
  ∀ token ∈ tokens, token.isWord "begin" = false

/-- No user word has a loop in its body. -/
def Dictionary.LoopFree (d : Dictionary) : Prop :=
  ∀ word ∈ d.words, Script.LoopFree word.body

/-- The item is a token that opens no loop. -/
def Pending.LoopFree : Pending → Prop
  | .token t _ => t.isWord "begin" = false
  | .test _ _ => False

/-- Neither the dictionary nor the queue of a running script has a loop in it. -/
structure Straight (d : Dictionary) (queue : List Pending) : Prop where
  words : d.LoopFree
  items : ∀ item ∈ queue, item.LoopFree

theorem LoopFree.ofTokens {tokens : List Token} (h : LoopFree tokens) (depth : Nat) :
    ∀ item ∈ Pending.ofTokens tokens depth, item.LoopFree := by
  intro item hitem
  obtain ⟨token, htoken, rfl⟩ := List.mem_map.mp hitem
  exact h token htoken

/-- Binding a word without loops puts none into a dictionary. -/
theorem Dictionary.LoopFree.bind {d : Dictionary} (hd : d.LoopFree) {new : UserWord}
    (hnew : Script.LoopFree new.body) : (d.bind new).LoopFree := by
  intro word hword
  rcases mem_bind hword with hold | hbody
  · exact hd word hold
  · rw [hbody]
    exact hnew

/-! ## What is taken from the queue -/

/-- What is left of the queue behind a side of a branch is its end. -/
theorem skipBranch_suffix {stopAtElse : Bool} {nesting : Nat} {queue rest : List Pending}
    (h : skipBranch stopAtElse nesting queue = some rest) : rest <:+ queue := by
  fun_induction skipBranch stopAtElse nesting queue with
  | case2 =>
    cases h
    exact List.suffix_cons _ _
  | case4 =>
    cases h
    exact List.suffix_cons _ _
  | case1 _ _ _ _ _ ih | case3 _ _ _ _ _ ih | case5 _ _ _ _ _ _ ih | case6 _ _ _ _ _ _ _ ih =>
    exact (ih h).trans (List.suffix_cons _ _)
  | case7 => cases h

/-- The body of a definition is taken from the queue, and its end is left. -/
theorem collectBody_eq_ok {name : String} {queue rest : List Pending} {body : List Token}
    (h : collectBody name queue = .ok (body, rest)) :
    rest <:+ queue ∧ ∀ token ∈ body, ∃ depth, Pending.token token depth ∈ queue := by
  fun_induction collectBody name queue generalizing body with
  | case1 =>
    cases h
    exact ⟨List.suffix_cons _ _, by simp⟩
  | case3 token depth later _ _ ih =>
    obtain ⟨⟨inner, behind⟩, hinner, hbody⟩ := bind_eq_ok.mp h
    cases hbody
    obtain ⟨hsuffix, htokens⟩ := ih hinner
    refine ⟨hsuffix.trans (List.suffix_cons _ _), ?_⟩
    intro t ht
    rcases List.mem_cons.mp ht with rfl | ht
    · exact ⟨depth, List.mem_cons_self⟩
    · obtain ⟨depth', hmem⟩ := htokens t ht
      exact ⟨depth', List.mem_cons_of_mem _ hmem⟩
  | case2 | case4 => cases h

/-- So are the tokens of the word that a definition binds. -/
theorem collectDefinition_eq_ok {queue rest : List Pending} {word : UserWord}
    (h : collectDefinition queue = .ok (word, rest)) :
    rest <:+ queue ∧ ∀ token ∈ word.body, ∃ depth, Pending.token token depth ∈ queue := by
  unfold collectDefinition at h
  split at h
  · rename_i token depth later
    obtain ⟨name, -, hrest⟩ := bind_eq_ok.mp h
    obtain ⟨⟨body, behind⟩, hbody, hword⟩ := bind_eq_ok.mp hrest
    obtain ⟨hsuffix, htokens⟩ := collectBody_eq_ok hbody
    dsimp only at hword
    unfold UserWord.ofName at hword
    split at hword
    · rename_i hmade
      split at hmade
      · cases hmade
        cases hword
        refine ⟨hsuffix.trans (List.suffix_cons _ _), ?_⟩
        intro t ht
        obtain ⟨depth', hmem⟩ := htokens t ht
        exact ⟨depth', List.mem_cons_of_mem _ hmem⟩
      · cases hmade
    · cases hword
  · cases h

/-- The outcome is not that the steps have run out. -/
def Outcome.InTime (outcome : Outcome) : Prop :=
  ∀ limit, outcome ≠ .faulted (.stepLimitExceeded limit)

theorem inTime_of_definitionName {token : Token} {error : Error}
    (h : definitionName token = .error error) : (Outcome.faulted error).InTime := by
  unfold definitionName at h
  split at h
  · split at h
    · cases h
      nofun
    · cases h
  · cases h
    nofun

theorem inTime_of_collectBody {name : String} {queue : List Pending} {error : Error}
    (h : collectBody name queue = .error error) : (Outcome.faulted error).InTime := by
  fun_induction collectBody name queue with
  | case1 => cases h
  | case2 | case4 =>
    cases h
    nofun
  | case3 token depth later _ _ ih =>
    cases hinner : collectBody name later with
    | error fault =>
      rw [hinner] at h
      cases h
      exact ih hinner
    | ok collected =>
      rw [hinner] at h
      cases h

/-- A definition that cannot be collected is no question of steps. -/
theorem inTime_of_collectDefinition {queue : List Pending} {error : Error}
    (h : collectDefinition queue = .error error) : (Outcome.faulted error).InTime := by
  unfold collectDefinition at h
  split at h
  · rename_i token depth later
    cases hname : definitionName token with
    | error fault =>
      rw [hname] at h
      cases h
      exact inTime_of_definitionName hname
    | ok name =>
      rw [hname] at h
      simp only [bind, Except.bind] at h
      cases hbody : collectBody name later with
      | error fault =>
        rw [hbody] at h
        cases h
        exact inTime_of_collectBody hbody
      | ok collected =>
        rw [hbody] at h
        dsimp only at h
        split at h
        · cases h
        · cases h
          nofun
  · cases h
    nofun

/-! ## Steps -/

/-- The dictionary and the queue that may be left when an item was taken, with the rest of
the queue behind it, at a limit on the depth of expansions. -/
inductive Leads (limit : Nat) (d : Dictionary) (rest : List Pending) :
    Pending → Dictionary → List Pending → Prop
  /-- The item is done with. -/
  | pass {item : Pending} : Leads limit d rest item d rest
  /-- A side of a branch is skipped. -/
  | skip {item : Pending} {stopAtElse : Bool} {queue : List Pending} :
    skipBranch stopAtElse 0 rest = some queue → Leads limit d rest item d queue
  /-- A word is bound. -/
  | define {item : Pending} {word : UserWord} {queue : List Pending} :
    collectDefinition rest = .ok (word, queue) → Leads limit d rest item (d.bind word) queue
  /-- A user word is replaced by its body. -/
  | expand {name : String} {depth : Nat} {word : UserWord} :
    d.lookup name = some (.user word) → depth < limit →
      Leads limit d rest (.token (.word name) depth) d
        (Pending.ofTokens word.body (depth + 1) ++ rest)

/-- The step goes on to what the item may leave, or stops in time. -/
abbrev Step.Leads (limit : Nat) (d : Dictionary) (rest : List Pending) (item : Pending)
    (step : Step) : Prop :=
  step.Keeps (fun e => Script.Leads limit d rest item e.dictionary e.pending)
    (fun outcome _ => outcome.InTime) (fun _ => True)

namespace Execution

variable {scene : Scene} {limits : Limits} {d : Dictionary} {rest : List Pending} {m : Machine}
  {item : Pending} {limit : Nat}

theorem leads_act {α : Type} {e : Execution} {word : String} {action : Action α}
    {next : α → Execution → Step}
    (hnext : ∀ a m, (next a { e with machine := m }).Leads limit d rest item) :
    (e.act word action next).Leads limit d rest item := by
  unfold act
  cases action e.machine with
  | ok a m => exact hnext a m
  | error stop m =>
    cases stop with
    | fault fault => nofun
    | overflow cause => trivial

theorem leads_jump {opener : Keyword} {found : Option (List Pending)}
    (h : ∀ queue, found = some queue → Script.Leads limit d rest item d queue) :
    (jump ⟨d, rest, m⟩ opener found).Leads limit d rest item := by
  cases found with
  | some queue => exact h queue rfl
  | none => nofun

theorem leads_invoke (name : String) (depth : Nat) :
    (invoke ⟨d, rest, m⟩ scene limits name depth).Leads limits.expansionDepth d rest
      (.token (.word name) depth) := by
  unfold invoke
  split
  · refine leads_act fun flow m => ?_
    cases flow with
    | proceed => exact .pass
    | halt => nofun
  · rename_i word hword
    split
    · nofun
    · exact .expand hword (by omega)
  · nofun

/-- Every control word but the one that opens a loop leads to what an item may leave. -/
theorem leads_control {word : Keyword} (hword : word ≠ .loop) (name : String) (depth : Nat) :
    (control ⟨d, rest, m⟩ word name depth).Leads limit d rest item := by
  cases word with
  | colon =>
    unfold control
    cases hcollect : collectDefinition rest with
    | error error => exact inTime_of_collectDefinition hcollect
    | ok collected =>
      obtain ⟨new, queue⟩ := collected
      dsimp only
      cases hdefine : d.define new with
      | error error left =>
        obtain ⟨-, rfl, -⟩ := Dictionary.define_eq_error_iff.mp hdefine
        nofun
      | ok _ defined =>
        obtain ⟨-, rfl⟩ := Dictionary.define_eq_ok_iff.mp hdefine
        exact .define hcollect
  | branch =>
    unfold control
    refine leads_act fun flag m => ?_
    split
    · exact .pass
    · exact leads_jump fun queue hqueue => .skip hqueue
  | otherwise => exact leads_jump fun queue hqueue => .skip hqueue
  | join => exact .pass
  | loop => exact absurd rfl hword
  | semicolon | again => nofun

/-- A step without a loop leads to what its item may leave. -/
theorem leads_step (hitem : item.LoopFree) :
    (step ⟨d, rest, m⟩ scene limits item).Leads limits.expansionDepth d rest item := by
  unfold step
  split
  · exact leads_act fun _ _ => .pass
  · exact leads_act fun _ _ => .pass
  · rename_i name depth
    split
    · rename_i word hword
      refine leads_control ?_ name depth
      rintro rfl
      have hbegin := Token.keyword?_eq_some_iff.mp (show (Token.word name).keyword? = _ from hword)
      rw [Keyword.name, show (Token.word name).isWord "begin" = false from hitem] at hbegin
      cases hbegin
    · exact leads_invoke name depth
  · exact hitem.elim

end Execution

/-! ## Descent -/

/-- How many user words the item was expanded from. -/
def Pending.depth : Pending → Nat
  | .token _ depth => depth
  | .test _ depth => depth

/-- How much deeper each item of the queue may be expanded. -/
def rooms (limit : Nat) (queue : List Pending) : Multiset Nat :=
  Multiset.ofList (queue.map fun item => limit - item.depth)

theorem rooms_append (limit : Nat) (first later : List Pending) :
    rooms limit (first ++ later) = rooms limit first + rooms limit later := by
  simp [rooms]

theorem rooms_cons (limit : Nat) (item : Pending) (rest : List Pending) :
    rooms limit (item :: rest) = {limit - item.depth} + rooms limit rest :=
  rooms_append limit [item] rest

/-- The rooms of a queue descend if an item is taken, items with less room are put in its
place, and others are dropped. -/
theorem rooms_append_lt {limit : Nat} {item : Pending} {new kept rest : List Pending}
    (hnew : ∀ later ∈ new, limit - later.depth < limit - item.depth) (hkept : kept <:+ rest) :
    (rooms limit (new ++ kept)).IsDershowitzMannaLT (rooms limit (item :: rest)) := by
  obtain ⟨dropped, rfl⟩ := hkept
  refine ⟨rooms limit kept, rooms limit new, {limit - item.depth} + rooms limit dropped,
    by simp, ?_, ?_, ?_⟩
  · rw [rooms_append, add_comm]
  · rw [rooms_cons, rooms_append, ← add_assoc, add_comm]
  · intro room hroom
    obtain ⟨later, hlater, rfl⟩ := List.mem_map.mp (Multiset.mem_coe.mp hroom)
    exact ⟨limit - item.depth, by simp, hnew later hlater⟩

namespace Leads

variable {limit : Nat} {d d' : Dictionary} {item : Pending} {rest queue : List Pending}

/-- What is left has no loop if there was none. -/
theorem straight (h : Leads limit d rest item d' queue) (hs : Straight d (item :: rest)) :
    Straight d' queue := by
  obtain ⟨hwords, hitems⟩ := hs
  obtain ⟨-, hrest⟩ := List.forall_mem_cons.mp hitems
  cases h with
  | pass => exact ⟨hwords, hrest⟩
  | skip hskip => exact ⟨hwords, fun item hitem => hrest item ((skipBranch_suffix hskip).mem hitem)⟩
  | define hdefine =>
    obtain ⟨hsuffix, htokens⟩ := collectDefinition_eq_ok hdefine
    refine ⟨hwords.bind ?_, fun item hitem => hrest item (hsuffix.mem hitem)⟩
    intro token htoken
    obtain ⟨depth, hmem⟩ := htokens token htoken
    exact hrest _ hmem
  | expand hlookup _ =>
    refine ⟨hwords, ?_⟩
    intro item hitem
    rcases List.mem_append.mp hitem with hbody | hitem
    · exact (hwords _ (Dictionary.mem_of_lookup hlookup)).ofTokens _ item hbody
    · exact hrest item hitem

/-- The rooms of the queue descend. -/
theorem rooms_lt (h : Leads limit d rest item d' queue) :
    (rooms limit queue).IsDershowitzMannaLT (rooms limit (item :: rest)) := by
  cases h with
  | pass => exact rooms_append_lt (List.forall_mem_nil _) (List.suffix_refl rest)
  | skip hskip => exact rooms_append_lt (List.forall_mem_nil _) (skipBranch_suffix hskip)
  | define hdefine =>
    exact rooms_append_lt (List.forall_mem_nil _) (collectDefinition_eq_ok hdefine).1
  | expand _ hdepth =>
    refine rooms_append_lt ?_ (List.suffix_refl rest)
    intro later hlater
    obtain ⟨token, -, rfl⟩ := List.mem_map.mp hlater
    simp only [Pending.depth]
    omega

/-- There are only a few ways to go on. -/
theorem finite (limit : Nat) (d : Dictionary) (rest : List Pending) (item : Pending) :
    {left : Dictionary × List Pending | Leads limit d rest item left.1 left.2}.Finite := by
  -- Each way but that of a skipped side has at most one result, and there are two sides.
  let skipped (stopAtElse : Bool) : Set (Dictionary × List Pending) :=
    {left | skipBranch stopAtElse 0 rest = some left.2 ∧ left.1 = d}
  let defined : Set (Dictionary × List Pending) :=
    {left | ∃ word, collectDefinition rest = .ok (word, left.2) ∧ left.1 = d.bind word}
  let expanded : Set (Dictionary × List Pending) :=
    {left | ∃ name depth word, item = .token (.word name) depth ∧
      d.lookup name = some (.user word) ∧
      left = (d, Pending.ofTokens word.body (depth + 1) ++ rest)}
  have hskipped : ∀ stopAtElse, (skipped stopAtElse).Finite := by
    intro stopAtElse
    apply Set.Subsingleton.finite
    rintro ⟨d₁, queue₁⟩ ⟨h₁, rfl⟩ ⟨d₂, queue₂⟩ ⟨h₂, rfl⟩
    cases h₁.symm.trans h₂
    rfl
  have hdefined : defined.Finite := by
    apply Set.Subsingleton.finite
    rintro ⟨d₁, queue₁⟩ ⟨word₁, h₁, rfl⟩ ⟨d₂, queue₂⟩ ⟨word₂, h₂, rfl⟩
    cases h₁.symm.trans h₂
    rfl
  have hexpanded : expanded.Finite := by
    apply Set.Subsingleton.finite
    rintro _ ⟨name₁, depth₁, word₁, rfl, h₁, rfl⟩ _ ⟨name₂, depth₂, word₂, hitem, h₂, rfl⟩
    cases hitem
    cases h₁.symm.trans h₂
    rfl
  have hall := (((Set.finite_singleton (d, rest)).union
    ((hskipped true).union (hskipped false))).union hdefined).union hexpanded
  refine hall.subset ?_
  rintro ⟨d', queue⟩ h
  cases h with
  | pass => exact .inl (.inl (.inl rfl))
  | @skip _ stopAtElse _ hskip =>
    cases stopAtElse with
    | true => exact .inl (.inl (.inr (.inl ⟨hskip, rfl⟩)))
    | false => exact .inl (.inl (.inr (.inr ⟨hskip, rfl⟩)))
  | define hdefine => exact .inl (.inr ⟨_, hdefine, rfl⟩)
  | expand hlookup _ => exact .inr ⟨_, _, _, rfl, hlookup, rfl⟩

end Leads

/-! ## Runs -/

/-- At a limit on the depth of expansions, a script with this dictionary and this queue
does not run out of {lit}`n` steps, whatever it works on. -/
def EndsWithin (limit n : Nat) (d : Dictionary) (queue : List Pending) : Prop :=
  ∀ scene limits m fuel, limits.expansionDepth = limit → n ≤ fuel → ∀ outcome stop,
    Execution.run scene limits fuel ⟨d, queue, m⟩ = .ok (outcome, stop) → outcome.InTime

theorem EndsWithin.mono {limit n n' : Nat} {d : Dictionary} {queue : List Pending}
    (h : EndsWithin limit n d queue) (hle : n ≤ n') : EndsWithin limit n' d queue := by
  intro scene limits m fuel hlimit hfuel
  exact h scene limits m fuel hlimit (hle.trans hfuel)

/-- An empty queue takes no step. -/
theorem endsWithin_nil (limit : Nat) (d : Dictionary) : EndsWithin limit 0 d [] := by
  intro scene limits m fuel _ _ outcome stop hrun
  rw [Execution.run_nil rfl] at hrun
  cases hrun
  nofun

/-- A step more is enough than what is left takes, whichever way the step goes. -/
theorem endsWithin_cons {limit n : Nat} {d : Dictionary} {item : Pending} {rest : List Pending}
    (hitem : item.LoopFree)
    (hleft : ∀ d' queue, Leads limit d rest item d' queue → EndsWithin limit n d' queue) :
    EndsWithin limit (n + 1) d (item :: rest) := by
  rintro scene limits m fuel rfl hfuel outcome stop hrun
  obtain ⟨fuel, rfl⟩ : ∃ fewer, fuel = fewer + 1 := ⟨fuel - 1, by omega⟩
  have hstep : (Execution.step ⟨d, rest, m⟩ scene limits item).Leads limits.expansionDepth d rest
      item := Execution.leads_step hitem
  rw [Execution.run_succ rfl] at hrun
  cases hs : Execution.step ⟨d, rest, m⟩ scene limits item with
  | next e =>
    simp only [hs] at hstep hrun
    exact hleft _ _ hstep scene limits e.machine fuel rfl (by omega) outcome stop hrun
  | halted e =>
    simp only [hs] at hstep hrun
    cases hrun
    exact hstep
  | faulted error e =>
    simp only [hs] at hstep hrun
    cases hrun
    exact hstep
  | overflowed cause =>
    simp only [hs] at hrun
    cases hrun

/-- A script without loops ends in a number of steps that depends only on its dictionary,
its queue and the limit on the depth of expansions. -/
theorem exists_endsWithin (limit : Nat) {d : Dictionary} {queue : List Pending}
    (h : Straight d queue) : ∃ n, EndsWithin limit n d queue := by
  have hdescends := InvImage.wf (rooms limit) Multiset.wellFounded_isDershowitzMannaLT
  induction queue using hdescends.induction generalizing d with
  | _ queue ih =>
    cases queue with
    | nil => exact ⟨0, endsWithin_nil limit d⟩
    | cons item rest =>
      have hleft : ∀ left : Dictionary × List Pending, Leads limit d rest item left.1 left.2 →
          ∃ n, EndsWithin limit n left.1 left.2 :=
        fun left hleads => ih left.2 hleads.rooms_lt (hleads.straight h)
      choose! steps hsteps using hleft
      obtain ⟨n, hn⟩ := ((Leads.finite limit d rest item).image steps).bddAbove
      refine ⟨n + 1, endsWithin_cons (h.items item List.mem_cons_self) ?_⟩
      intro d' queue hleads
      exact (hsteps (d', queue) hleads).mono (hn ⟨(d', queue), hleads, rfl⟩)

namespace Interpreter

/-- A turn without loops is stopped by the limit on the depth of expansions, if by any:
there is a step limit that it does not exceed, nor any greater one, however its words call
themselves and each other, and whatever the piece, the board and the mailboxes are. -/
theorem exists_stepLimit_of_loopFree {d : Dictionary} (hwords : d.LoopFree) {script : String}
    {tokens : List Token} (hload : load d script = .ok tokens) (htokens : LoopFree tokens)
    (depth : Nat) :
    ∃ n, ∀ i : Interpreter, i.dictionary = d → i.limits.expansionDepth = depth →
      n ≤ i.limits.stepLimit → ∀ context commands report,
        i.runTurn script context commands = .ok report →
          ∀ limit, report.outcome ≠ .faulted (.stepLimitExceeded limit) := by
  obtain ⟨n, hends⟩ := exists_endsWithin depth ⟨hwords, htokens.ofTokens 0⟩
  refine ⟨n, ?_⟩
  rintro i rfl hdepth hsteps context commands report hturn
  rcases runTurn_eq_ok hturn with ⟨error, hrefused, -⟩ | ⟨read, outcome, stop, hread, hrun, rfl⟩
  · rw [hload] at hrefused
    cases hrefused
  · rw [hload] at hread
    cases hread
    exact hends _ i.limits _ i.limits.stepLimit hdepth hsteps outcome stop hrun

/-- A word that calls itself twice, one less each time. -/
def grow : UserWord where
  name := "grow"
  body := [.word "dup", .word "if", .number 1, .word "-", .word "dup", .word "grow",
    .word "grow", .word "else", .word "drop", .word "then"]
  named := by decide

/-- An interpreter that knows the word. -/
def grower (stepLimit : Nat) : Interpreter :=
  ⟨.ada, ⟨stepLimit, 4, 8⟩, Dictionary.standard.bind grow, []⟩

/-- Ten steps are not enough for the word to run its course, but some number is. -/
theorem exists_stepLimit_of_loopFree_grow :
    ((grower 10).runTurn "3 grow" .lone []).map TurnReport.outcome =
      .ok (.faulted (.stepLimitExceeded 10)) ∧
    ∃ n, ∀ stepLimit, n ≤ stepLimit → ∀ report,
      (grower stepLimit).runTurn "3 grow" .lone [] = .ok report →
        ∀ limit, report.outcome ≠ .faulted (.stepLimitExceeded limit) := by
  have hgrow : LoopFree grow.body := by
    unfold LoopFree
    decide
  have hwords : (Dictionary.standard.bind grow).LoopFree := by
    refine Dictionary.LoopFree.bind ?_ hgrow
    simp [Dictionary.LoopFree]
  have hload : load (Dictionary.standard.bind grow) "3 grow" = .ok [.number 3, .word "grow"] := by
    rfl
  have htokens : LoopFree [.number 3, .word "grow"] := by
    unfold LoopFree
    decide
  refine ⟨by rfl, ?_⟩
  obtain ⟨n, hn⟩ := exists_stepLimit_of_loopFree hwords hload htokens 4
  refine ⟨n, ?_⟩
  intro stepLimit hle report hturn
  exact hn (grower stepLimit) rfl rfl hle .lone [] report hturn

end Interpreter

end HexArena.Script
