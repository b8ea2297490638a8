import HexArena.Proofs.Checked
import HexArena.Script.Lexer

/-!
# Reading character by character

The reader is a machine: a character takes it from what it is inside of to what it is
inside of next, and may end a token on the way.  So a text is read piece by piece, and
how the second piece is read depends on the first one only through what the reader is
inside of in between, and on which line.

Main results:

- Definitions {lit}`Lexer.read` and {lit}`Lexer.readAll`: the machine, on one character
  and on several.
- Theorem {lit}`Lexer.scan_append`: a text is read piece by piece.
- Theorem {lit}`Lexer.scan_below`: the line a text starts on shows in the lines of its
  errors, and nowhere else.
-/

namespace HexArena.Script

namespace Lexer

/-! ## Tokens in front -/

/-- The tokens of a text, or its fault, with the tokens in front of it. -/
def behind (ended : List Token) (later : Except Error (List Token)) :
    Except Error (List Token) :=
  later.map (ended ++ ·)

@[simp]
theorem behind_ok (ended later : List Token) : behind ended (.ok later) = .ok (ended ++ later) :=
  rfl

@[simp]
theorem behind_error (ended : List Token) (error : Error) :
    behind ended (.error error) = .error error :=
  rfl

@[simp]
theorem behind_nil (later : Except Error (List Token)) : behind [] later = later := by
  cases later with
  | ok later => rfl
  | error error => rfl

@[simp]
theorem behind_behind (first second : List Token) (later : Except Error (List Token)) :
    behind first (behind second later) = behind (first ++ second) later := by
  cases later with
  | ok later => simp
  | error error => rfl

theorem behind_eq_ok {ended tokens : List Token} {later : Except Error (List Token)} :
    behind ended later = .ok tokens ↔ ∃ last, later = .ok last ∧ tokens = ended ++ last := by
  cases later with
  | ok last => simp [eq_comm]
  | error error => simp

theorem behind_eq_error {ended : List Token} {later : Except Error (List Token)} {error : Error} :
    behind ended later = .error error ↔ later = .error error := by
  cases later with
  | ok last => simp
  | error fault => simp

/-! ## The machine -/

/-- What the reader is inside of after a character, and the tokens that end with it. -/
def read : Mode → Nat → Char → Except Error (Mode × List Token)
  | .between, line, c =>
    .ok (if Text.isBlank c then .between else if c = '"' then .text line [] else .run [c], [])
  | .text start cs, _, c =>
    if c = '"' then .ok (.between, [.text (String.ofList cs.reverse)])
    else .ok (.text start (c :: cs), [])
  | .run cs, line, c =>
    if Text.isBlank c then
      match cs with
      | ['('] => .ok (.comment line, [])
      | ['\\'] => .ok (if c = '\n' then .between else .remark, [])
      | _ => (classify cs.reverse).map fun token => (.between, [token])
    else .ok (.run (c :: cs), [])
  | .comment start, _, c => .ok (if c = ')' then .between else .comment start, [])
  | .remark, _, c => .ok (if c = '\n' then .between else .remark, [])

/-- What a character does to the reader, case by case. -/
inductive Reads (line : Nat) (c : Char) : Mode → Mode → List Token → Prop
  | blank : Text.isBlank c = true → Reads line c .between .between []
  | quote : c = '"' → Reads line c .between (.text line []) []
  | start : Text.isBlank c = false → c ≠ '"' → Reads line c .between (.run [c]) []
  | inText {start : Nat} {cs : List Char} :
    c ≠ '"' → Reads line c (.text start cs) (.text start (c :: cs)) []
  | unquote {start : Nat} {cs : List Char} :
    c = '"' → Reads line c (.text start cs) .between [.text (String.ofList cs.reverse)]
  | inRun {cs : List Char} :
    Text.isBlank c = false → Reads line c (.run cs) (.run (c :: cs)) []
  | token {cs : List Char} {token : Token} :
    Text.isBlank c = true → cs ≠ ['('] → cs ≠ ['\\'] → classify cs.reverse = .ok token →
      Reads line c (.run cs) .between [token]
  | comment : Text.isBlank c = true → Reads line c (.run ['(']) (.comment line) []
  | remark : Text.isBlank c = true → c ≠ '\n' → Reads line c (.run ['\\']) .remark []
  | emptyRemark : c = '\n' → Reads line c (.run ['\\']) .between []
  | inComment {start : Nat} : c ≠ ')' → Reads line c (.comment start) (.comment start) []
  | uncomment {start : Nat} : c = ')' → Reads line c (.comment start) .between []
  | inRemark : c ≠ '\n' → Reads line c .remark .remark []
  | newline : c = '\n' → Reads line c .remark .between []

/-- The cases are all that a character does. -/
theorem reads_of_read {mode mode' : Mode} {line : Nat} {c : Char} {ended : List Token}
    (h : read mode line c = .ok (mode', ended)) : Reads line c mode mode' ended := by
  cases mode with
  | between =>
    simp only [read] at h
    split at h
    · cases h
      exact .blank ‹_›
    · split at h
      · cases h
        exact .quote ‹_›
      · cases h
        exact .start (by simpa using ‹¬ Text.isBlank c = true›) ‹_›
  | text start cs =>
    simp only [read] at h
    split at h
    · cases h
      exact .unquote ‹_›
    · cases h
      exact .inText ‹_›
  | run cs =>
    simp only [read] at h
    split at h
    · rename_i hblank
      split at h
      · cases h
        exact .comment hblank
      · split at h
        · cases h
          exact .emptyRemark ‹_›
        · cases h
          exact .remark hblank ‹_›
      · rename_i hopen hremark
        cases hclassify : classify cs.reverse with
        | ok token =>
          rw [hclassify] at h
          cases h
          exact .token hblank hopen hremark hclassify
        | error error =>
          rw [hclassify] at h
          cases h
    · cases h
      exact .inRun (by simpa using ‹¬ Text.isBlank c = true›)
  | comment start =>
    simp only [read] at h
    split at h
    · cases h
      exact .uncomment ‹_›
    · cases h
      exact .inComment ‹_›
  | remark =>
    simp only [read] at h
    split at h
    · cases h
      exact .newline ‹_›
    · cases h
      exact .inRemark ‹_›

/-- What the reader is inside of after some characters, and the tokens that end among
them. -/
def readAll : Mode → Nat → List Char → Except Error (Mode × List Token)
  | mode, _, [] => .ok (mode, [])
  | mode, line, c :: rest => do
    let (mode, ended) ← read mode line c
    let (mode, later) ← readAll mode (lineAfter c line) rest
    return (mode, ended ++ later)

/-- A line ends with a line feed and with no other character. -/
theorem lineAfter_add_count (c : Char) (line : Nat) (cs : List Char) :
    lineAfter c line + cs.count '\n' = line + (c :: cs).count '\n' := by
  by_cases h : c = '\n'
  · simp [lineAfter, h]
    omega
  · simp [lineAfter, h]

theorem lineAfter_of_ne {c : Char} (h : c ≠ '\n') (line : Nat) : lineAfter c line = line :=
  if_neg h

/-- The character that ends a line is a blank. -/
theorem ne_newline_of_solid {c : Char} (h : Text.isBlank c = false) : c ≠ '\n' := by
  rintro rfl
  revert h
  decide

/-- Reading goes on behind each character. -/
theorem scan_cons (mode : Mode) (line : Nat) (c : Char) (rest : List Char) :
    scan mode line (c :: rest) =
      read mode line c >>= fun r => behind r.2 (scan r.1 (lineAfter c line) rest) := by
  cases mode with
  | between =>
    by_cases hblank : Text.isBlank c
    · simp [scan, read, hblank, bind, Except.bind]
    · have hline := lineAfter_of_ne (ne_newline_of_solid (by simpa using hblank)) line
      by_cases hquote : c = '"'
      · subst hquote
        rw [scan, if_neg hblank, if_pos rfl, read, if_neg hblank, if_pos rfl]
        simp [hline, bind, Except.bind]
      · simp [scan, read, hblank, hquote, hline, bind, Except.bind]
  | text start cs =>
    by_cases hquote : c = '"'
    · subst hquote
      rw [scan, if_pos rfl, read, if_pos rfl]
      rfl
    · simp [scan, read, hquote, bind, Except.bind]
  | run cs =>
    by_cases hblank : Text.isBlank c
    · by_cases hopen : cs = ['(']
      · simp [scan, read, hblank, hopen, bind, Except.bind]
      · by_cases hremark : cs = ['\\']
        · simp [scan, read, hblank, hremark, bind, Except.bind]
        · simp only [scan, read, if_pos hblank]
          cases classify cs.reverse with
          | ok token => rfl
          | error error => rfl
    · have hline := lineAfter_of_ne (ne_newline_of_solid (by simpa using hblank)) line
      simp [scan, read, hblank, hline, bind, Except.bind]
  | comment start =>
    by_cases hclose : c = ')'
    · subst hclose
      simp [scan, read, lineAfter, bind, Except.bind]
    · simp [scan, read, hclose, bind, Except.bind]
  | remark => simp [scan, read, bind, Except.bind]

/-- A text is read piece by piece. -/
theorem scan_append (mode : Mode) (line : Nat) (cs rest : List Char) :
    scan mode line (cs ++ rest) =
      readAll mode line cs >>= fun r => behind r.2 (scan r.1 (line + cs.count '\n') rest) := by
  induction cs generalizing mode line with
  | nil => simp [readAll, bind, Except.bind]
  | cons c cs ih =>
    rw [List.cons_append, scan_cons, readAll]
    cases read mode line c with
    | error error => rfl
    | ok first =>
      simp only [bind, Except.bind, ih, lineAfter_add_count]
      cases readAll first.1 (lineAfter c line) cs with
      | error error => rfl
      | ok second => simp [pure, Except.pure]

/-- What follows is read from where the machine has arrived. -/
theorem scan_of_readAll {mode mode' : Mode} {line : Nat} {cs : List Char} {ended : List Token}
    (h : readAll mode line cs = .ok (mode', ended)) (rest : List Char) :
    scan mode line (cs ++ rest) = behind ended (scan mode' (line + cs.count '\n') rest) := by
  rw [scan_append, h]
  rfl

/-- A text that can be read is read by the machine, and can end where the machine
arrives. -/
theorem scan_eq_ok {mode : Mode} {line : Nat} {cs : List Char} {tokens : List Token}
    (h : scan mode line cs = .ok tokens) :
    ∃ mode' ended last, readAll mode line cs = .ok (mode', ended) ∧
      scan mode' (line + cs.count '\n') [] = .ok last ∧ tokens = ended ++ last := by
  rw [← List.append_nil cs, scan_append] at h
  obtain ⟨⟨mode', ended⟩, hread, hrest⟩ := bind_eq_ok.mp h
  obtain ⟨last, hlast, htokens⟩ := behind_eq_ok.mp hrest
  exact ⟨mode', ended, last, hread, hlast, htokens⟩

/-- The machine reads several characters piece by piece. -/
theorem readAll_append (mode : Mode) (line : Nat) (cs rest : List Char) :
    readAll mode line (cs ++ rest) =
      readAll mode line cs >>= fun r =>
        (readAll r.1 (line + cs.count '\n') rest).map fun later => (later.1, r.2 ++ later.2) := by
  induction cs generalizing mode line with
  | nil =>
    cases hrest : readAll mode line rest with
    | error error => simp [readAll, hrest, bind, Except.bind, Except.map]
    | ok later => simp [readAll, hrest, bind, Except.bind, Except.map]
  | cons c cs ih =>
    rw [List.cons_append, readAll, readAll]
    cases read mode line c with
    | error error => rfl
    | ok first =>
      simp only [bind, Except.bind, ih, lineAfter_add_count]
      cases readAll first.1 (lineAfter c line) cs with
      | error error => rfl
      | ok second =>
        simp only [pure, Except.pure]
        cases readAll second.1 (line + (c :: cs).count '\n') rest with
        | error error => rfl
        | ok third => simp [Except.map]

/-- What follows is read from where the machine has arrived, with the tokens that have
ended in front. -/
theorem readAll_append_of_eq {mode middle mode' : Mode} {line : Nat} {cs rest : List Char}
    {first later : List Token} (hfirst : readAll mode line cs = .ok (middle, first))
    (hlater : readAll middle (line + cs.count '\n') rest = .ok (mode', later)) :
    readAll mode line (cs ++ rest) = .ok (mode', first ++ later) := by
  rw [readAll_append, hfirst]
  simp [bind, Except.bind, hlater, Except.map]

theorem readAll_singleton (mode : Mode) (line : Nat) (c : Char) :
    readAll mode line [c] = read mode line c := by
  cases hread : read mode line c with
  | error error => simp [readAll, hread, bind, Except.bind]
  | ok first => simp [readAll, hread, bind, Except.bind, pure, Except.pure]

end Lexer

/-! ## Faults and lines -/

/-- The error of a text that stands some lines further down. -/
def Error.below (lines : Nat) : Error → Error
  | .unterminatedText line => .unterminatedText (line + lines)
  | .unterminatedComment line => .unterminatedComment (line + lines)
  | error => error

namespace Lexer

/-- What the reader is inside of when the text stands some lines further down. -/
def Mode.below (lines : Nat) : Mode → Mode
  | .text start cs => .text (start + lines) cs
  | .comment start => .comment (start + lines)
  | mode => mode

/-- The fault of an unquoted run is a literal that is out of range. -/
theorem classify_eq_error {raw : List Char} {error : Error} (h : classify raw = .error error) :
    error = .literalOutOfRange (String.ofList raw) := by
  unfold classify at h
  extract_lets digits at h
  split at h
  · split at h
    · cases h
    · cases h
      rfl
  · cases h

/-- The machine stops at nothing but a literal that is out of range. -/
theorem read_eq_error {mode : Mode} {line : Nat} {c : Char} {error : Error}
    (h : read mode line c = .error error) : ∃ raw, error = .literalOutOfRange raw := by
  cases mode with
  | run cs =>
    simp only [read] at h
    split at h
    · split at h
      · cases h
      · cases h
      · cases hclassify : classify cs.reverse with
        | ok token =>
          rw [hclassify] at h
          cases h
        | error fault =>
          rw [hclassify] at h
          cases h
          exact ⟨_, classify_eq_error hclassify⟩
    · cases h
  | text start cs =>
    simp only [read] at h
    split at h
    · cases h
    · cases h
  | between | comment _ | remark => cases h

theorem readAll_eq_error {mode : Mode} {line : Nat} {cs : List Char} {error : Error}
    (h : readAll mode line cs = .error error) : ∃ raw, error = .literalOutOfRange raw := by
  induction cs generalizing mode line with
  | nil => cases h
  | cons c cs ih =>
    rw [readAll] at h
    cases hread : read mode line c with
    | error fault =>
      rw [hread] at h
      cases h
      exact read_eq_error hread
    | ok first =>
      rw [hread] at h
      cases hrest : readAll first.1 (lineAfter c line) cs with
      | error fault =>
        simp only [bind, Except.bind, hrest] at h
        cases h
        exact ih hrest
      | ok later =>
        simp only [bind, Except.bind, hrest] at h
        cases h

/-- The machine does on each line what it does on any other. -/
theorem read_below (lines : Nat) (mode : Mode) (line : Nat) (c : Char) :
    read (mode.below lines) (line + lines) c =
      (read mode line c).map fun r => (r.1.below lines, r.2) := by
  cases mode with
  | between =>
    by_cases hblank : Text.isBlank c
    · simp [read, Mode.below, hblank, Except.map]
    · by_cases hquote : c = '"'
      · subst hquote
        rfl
      · simp [read, Mode.below, hblank, hquote, Except.map]
  | text start cs =>
    by_cases hquote : c = '"'
    · simp [read, Mode.below, hquote, Except.map]
    · simp [read, Mode.below, hquote, Except.map]
  | run cs =>
    by_cases hblank : Text.isBlank c
    · simp only [read, Mode.below, if_pos hblank]
      split
      · rfl
      · by_cases hend : c = '\n'
        · simp [hend, Except.map]
        · simp [hend, Except.map]
      · cases classify cs.reverse with
        | ok token => rfl
        | error error => rfl
    · simp [read, Mode.below, hblank, Except.map]
  | comment start =>
    by_cases hclose : c = ')'
    · simp [read, Mode.below, hclose, Except.map]
    · simp [read, Mode.below, hclose, Except.map]
  | remark =>
    by_cases hend : c = '\n'
    · simp [read, Mode.below, hend, Except.map]
    · simp [read, Mode.below, hend, Except.map]

/-- The end of a text is reported on its line. -/
theorem scan_below_nil (lines : Nat) (mode : Mode) (line : Nat) :
    scan (mode.below lines) (line + lines) [] =
      (scan mode line []).mapError (Error.below lines) := by
  cases mode with
  | run cs =>
    simp only [scan, Mode.below]
    split
    · rfl
    · rfl
    · cases hclassify : classify cs.reverse with
      | ok token => rfl
      | error error =>
        rw [classify_eq_error hclassify]
        rfl
  | between | text _ _ | comment _ | remark => rfl

theorem lineAfter_below (c : Char) (line lines : Nat) :
    lineAfter c (line + lines) = lineAfter c line + lines := by
  by_cases h : c = '\n'
  · simp [lineAfter, h]
    omega
  · simp [lineAfter, h]

/-- The line a text starts on shows in the lines of its errors, and nowhere else. -/
theorem scan_below (lines : Nat) (mode : Mode) (line : Nat) (cs : List Char) :
    scan (mode.below lines) (line + lines) cs =
      (scan mode line cs).mapError (Error.below lines) := by
  induction cs generalizing mode line with
  | nil => exact scan_below_nil lines mode line
  | cons c cs ih =>
    rw [scan_cons, scan_cons, read_below]
    cases hread : read mode line c with
    | error error =>
      obtain ⟨raw, rfl⟩ := read_eq_error hread
      rfl
    | ok first =>
      simp only [bind, Except.bind, Except.map, lineAfter_below, ih]
      cases scan first.1 (lineAfter c line) cs with
      | ok later => rfl
      | error error => rfl

end Lexer

end HexArena.Script
