import HexArena.Proofs.Script.Reading
import Mathlib.Data.List.Induction

/-!
# The lines of a script

A line feed ends whatever a text that can be read is inside of at its end.  So a script
is read line by line as far as its lines can be read on their own, and a fault in the
rest is reported on the line it has in the whole.  What is reported of a text literal or
of a comment that nothing closes is the line it opens on.

Main results:

- Definition {lit}`Whole`: a text that leaves nothing open.
- Theorem {lit}`whole_newline`: a text that can be read is whole with a line feed behind.
- Theorem {lit}`tokenize_lines`: two texts one below the other, and the lines that are
  reported.
-/

namespace HexArena.Script

/-- The number of line feeds in a text. -/
def newlines (s : String) : Nat :=
  s.toList.count '\n'

/-- The text has these tokens and leaves nothing open: what follows is read as a script of
its own, on the lines below. -/
def Whole (s : String) (tokens : List Token) : Prop :=
  ∀ rest, tokenize (s ++ rest) =
    ((tokenize rest).map (tokens ++ ·)).mapError (Error.below (newlines s))

namespace Lexer

/-! ## The end of a line -/

/-- A line feed ends what a text may end in. -/
theorem read_newline {mode : Mode} {line : Nat} {last : List Token}
    (h : scan mode line [] = .ok last) : read mode line '\n' = .ok (.between, last) := by
  cases mode with
  | between | remark =>
    cases h
    rfl
  | run cs =>
    simp only [scan] at h
    simp only [read]
    rw [if_pos (by decide)]
    split at h
    · cases h
    · cases h
      rfl
    · obtain ⟨token, hclassify, hlast⟩ := bind_eq_ok.mp h
      cases hlast
      simp [hclassify, Except.map]
  | text start cs | comment start => cases h

/-- The machine is between two tokens after a text that can be read and a line feed. -/
theorem readAll_newline {line : Nat} {cs : List Char} {tokens : List Token}
    (h : scan .between line cs = .ok tokens) :
    readAll .between line (cs ++ ['\n']) = .ok (.between, tokens) := by
  obtain ⟨mode, ended, last, hread, hlast, rfl⟩ := scan_eq_ok h
  refine readAll_append_of_eq hread ?_
  rw [readAll_singleton, read_newline hlast]

end Lexer

/-- A text is whole if the machine is between two tokens after it. -/
theorem whole_of_readAll {s : String} {tokens : List Token}
    (h : Lexer.readAll .between 1 s.toList = .ok (.between, tokens)) : Whole s tokens := by
  intro rest
  have hbelow := Lexer.scan_below (newlines s) .between 1 rest.toList
  rw [tokenize, String.toList_append, Lexer.scan_of_readAll h]
  change Lexer.behind tokens (Lexer.scan (Lexer.Mode.between.below (newlines s)) (1 + newlines s)
    rest.toList) = _
  rw [hbelow, tokenize]
  cases Lexer.scan .between 1 rest.toList with
  | ok later => rfl
  | error error => rfl

/-- A text that can be read is whole with a line feed behind. -/
theorem whole_newline {s : String} {tokens : List Token} (h : tokenize s = .ok tokens) :
    Whole (s ++ "\n") tokens := by
  apply whole_of_readAll
  rw [String.toList_append]
  exact Lexer.readAll_newline h

theorem newlines_newline (s : String) : newlines (s ++ "\n") = newlines s + 1 := by
  simp [newlines]

/-! ## What is left open -/

namespace Lexer

/-- The last character takes the machine from where the characters before it have taken
it. -/
theorem readAll_concat {mode mode' : Mode} {line : Nat} {cs : List Char} {c : Char}
    {tokens : List Token} (h : readAll mode line (cs ++ [c]) = .ok (mode', tokens)) :
    ∃ before ended last, readAll mode line cs = .ok (before, ended) ∧
      read before (line + cs.count '\n') c = .ok (mode', last) ∧ tokens = ended ++ last := by
  rw [readAll_append] at h
  obtain ⟨⟨before, ended⟩, hread, hrest⟩ := bind_eq_ok.mp h
  rw [readAll_singleton] at hrest
  refine ⟨before, ended, ?_⟩
  cases hlast : read before (line + cs.count '\n') c with
  | error error =>
    rw [hlast] at hrest
    cases hrest
  | ok last =>
    rw [hlast] at hrest
    cases hrest
    exact ⟨last.2, hread, rfl, rfl⟩

/-- The machine comes to be inside of a text literal by its quote, and stays there by any
other character. -/
theorem read_eq_text {mode : Mode} {line start : Nat} {c : Char} {inside : List Char}
    {ended : List Token} (h : read mode line c = .ok (.text start inside, ended)) :
    ended = [] ∧ (mode = .between ∧ c = '"' ∧ start = line ∨
      ∃ inside', mode = .text start inside' ∧ c ≠ '"') := by
  cases reads_of_read h with
  | quote hc => exact ⟨rfl, .inl ⟨rfl, hc, rfl⟩⟩
  | inText hc => exact ⟨rfl, .inr ⟨_, rfl, hc⟩⟩

/-- The machine comes to be inside of a comment by the blank behind its parenthesis, and
stays there by any character but the closing one. -/
theorem read_eq_comment {mode : Mode} {line start : Nat} {c : Char} {ended : List Token}
    (h : read mode line c = .ok (.comment start, ended)) :
    ended = [] ∧ (mode = .run ['('] ∧ Text.isBlank c = true ∧ start = line ∨
      mode = .comment start ∧ c ≠ ')') := by
  cases reads_of_read h with
  | comment hc => exact ⟨rfl, .inl ⟨rfl, hc, rfl⟩⟩
  | inComment hc => exact ⟨rfl, .inr ⟨rfl, hc⟩⟩

/-- A run of one character starts between two tokens. -/
theorem read_eq_run {mode : Mode} {line : Nat} {c d : Char} {ended : List Token}
    (h : read mode line c = .ok (.run [d], ended)) (hmode : mode ≠ .run []) :
    ended = [] ∧ mode = .between ∧ c = d := by
  cases reads_of_read h with
  | start _ _ => exact ⟨rfl, rfl, rfl⟩
  | inRun _ => exact absurd rfl hmode

/-- The machine is inside of a text literal since a quote with no other behind. -/
theorem quote_of_readAll {line start : Nat} {cs inside : List Char} {ended : List Token}
    (h : readAll .between line cs = .ok (.text start inside, ended)) :
    ∃ before after, cs = before ++ '"' :: after ∧
      readAll .between line before = .ok (.between, ended) ∧ '"' ∉ after ∧
      start = line + before.count '\n' := by
  induction cs using List.reverseRecOn generalizing inside ended with
  | nil => cases h
  | append_singleton cs c ih =>
    obtain ⟨mode, ended, last, hread, hlast, rfl⟩ := readAll_concat h
    obtain ⟨rfl, ⟨rfl, rfl, rfl⟩ | ⟨inside', rfl, hc⟩⟩ := read_eq_text hlast
    · exact ⟨cs, [], rfl, by simpa using hread, by simp, rfl⟩
    · obtain ⟨before, after, rfl, hbefore, hafter, rfl⟩ := ih hread
      refine ⟨before, after ++ [c], by simp, by simpa using hbefore, ?_, rfl⟩
      simp [hafter, hc.symm]

/-- No run that is being read is empty. -/
theorem ne_run_nil_of_readAll {line : Nat} {cs : List Char} {mode : Mode} {ended : List Token}
    (h : readAll .between line cs = .ok (mode, ended)) : mode ≠ .run [] := by
  cases cs using List.reverseRecOn with
  | nil =>
    cases h
    nofun
  | append_singleton cs c =>
    obtain ⟨before, first, last, -, hlast, -⟩ := readAll_concat h
    rintro rfl
    cases reads_of_read hlast

/-- A run of one character is read since that character. -/
theorem run_of_readAll {line : Nat} {cs : List Char} {d : Char} {ended : List Token}
    (h : readAll .between line cs = .ok (.run [d], ended)) :
    ∃ before, cs = before ++ [d] ∧ readAll .between line before = .ok (.between, ended) := by
  cases cs using List.reverseRecOn with
  | nil => cases h
  | append_singleton cs c =>
    obtain ⟨mode, ended, last, hread, hlast, rfl⟩ := readAll_concat h
    obtain ⟨rfl, rfl, rfl⟩ := read_eq_run hlast (ne_run_nil_of_readAll hread)
    exact ⟨cs, rfl, by simpa using hread⟩

/-- The machine is inside of a comment since a lone parenthesis with no closing one
behind. -/
theorem parenthesis_of_readAll {line start : Nat} {cs : List Char} {ended : List Token}
    (h : readAll .between line cs = .ok (.comment start, ended)) :
    ∃ before c after, cs = before ++ '(' :: c :: after ∧ Text.isBlank c = true ∧
      readAll .between line before = .ok (.between, ended) ∧ ')' ∉ c :: after ∧
      start = line + before.count '\n' := by
  induction cs using List.reverseRecOn generalizing ended with
  | nil => cases h
  | append_singleton cs c ih =>
    obtain ⟨mode, ended, last, hread, hlast, rfl⟩ := readAll_concat h
    obtain ⟨rfl, ⟨rfl, hblank, rfl⟩ | ⟨rfl, hc⟩⟩ := read_eq_comment hlast
    · obtain ⟨before, rfl, hbefore⟩ := run_of_readAll hread
      have hclose : c ≠ ')' := by
        rintro rfl
        revert hblank
        decide
      refine ⟨before, c, [], by simp, hblank, by simpa using hbefore, ?_, by simp⟩
      simpa using hclose.symm
    · obtain ⟨before, d, after, rfl, hblank, hbefore, hafter, rfl⟩ := ih hread
      refine ⟨before, d, after ++ [c], by simp, hblank, by simpa using hbefore, ?_, rfl⟩
      simp only [List.mem_cons, not_or] at hafter
      simp [hafter, hc.symm]

/-! ## What stays open -/

/-- A text literal without a closing quote is reported on the line it opened on. -/
theorem scan_text {start line : Nat} {inside cs : List Char} (h : '"' ∉ cs) :
    scan (.text start inside) line cs = .error (.unterminatedText start) := by
  induction cs generalizing inside line with
  | nil => rfl
  | cons c cs ih =>
    simp only [List.mem_cons, not_or] at h
    rw [scan, if_neg (Ne.symm h.1)]
    exact ih h.2

/-- A comment without a closing parenthesis is reported on the line it opened on. -/
theorem scan_comment {start line : Nat} {cs : List Char} (h : ')' ∉ cs) :
    scan (.comment start) line cs = .error (.unterminatedComment start) := by
  induction cs generalizing line with
  | nil => rfl
  | cons c cs ih =>
    simp only [List.mem_cons, not_or] at h
    rw [scan, if_neg (Ne.symm h.1)]
    exact ih h.2

/-- A text that cannot be read holds a literal that is out of range, or cannot end where the
machine arrives. -/
theorem scan_eq_error {mode : Mode} {line : Nat} {cs : List Char} {error : Error}
    (h : scan mode line cs = .error error) :
    (∃ raw, error = .literalOutOfRange raw) ∨
      ∃ mode' ended, readAll mode line cs = .ok (mode', ended) ∧
        scan mode' (line + cs.count '\n') [] = .error error := by
  rw [← List.append_nil cs, scan_append] at h
  cases hread : readAll mode line cs with
  | error fault =>
    rw [hread] at h
    cases h
    exact .inl (readAll_eq_error hread)
  | ok arrived =>
    rw [hread] at h
    exact .inr ⟨arrived.1, arrived.2, rfl, behind_eq_error.mp h⟩

/-- At the end of a text a run is an open comment, or may be out of range. -/
theorem scan_run_eq_error {cs : List Char} {line : Nat} {error : Error}
    (h : scan (.run cs) line [] = .error error) :
    (cs = ['('] ∧ error = .unterminatedComment line) ∨ ∃ raw, error = .literalOutOfRange raw := by
  simp only [scan] at h
  split at h
  · cases h
    exact .inl ⟨rfl, rfl⟩
  · cases h
  · cases hclassify : classify cs.reverse with
    | ok token =>
      rw [hclassify] at h
      cases h
    | error fault =>
      rw [hclassify] at h
      cases h
      exact .inr ⟨_, classify_eq_error hclassify⟩

/-- Only a text literal is reported as one. -/
theorem mode_of_unterminatedText {mode : Mode} {line start : Nat}
    (h : scan mode line [] = .error (.unterminatedText start)) :
    ∃ inside, mode = .text start inside := by
  cases mode with
  | text start' inside =>
    cases h
    exact ⟨inside, rfl⟩
  | run cs =>
    obtain ⟨-, hcomment⟩ | ⟨raw, hraw⟩ := scan_run_eq_error h
    · cases hcomment
    · cases hraw
  | between | comment _ | remark => cases h

/-- Only a comment is reported as one, with or without a blank behind its parenthesis. -/
theorem mode_of_unterminatedComment {mode : Mode} {line start : Nat}
    (h : scan mode line [] = .error (.unterminatedComment start)) :
    mode = .comment start ∨ mode = .run ['('] ∧ start = line := by
  cases mode with
  | comment start' =>
    cases h
    exact .inl rfl
  | run cs =>
    obtain ⟨rfl, hcomment⟩ | ⟨raw, hraw⟩ := scan_run_eq_error h
    · cases hcomment
      exact .inr ⟨rfl, rfl⟩
    · cases hraw
  | between | text _ _ | remark => cases h

end Lexer

/-! ## Where what stays open opens -/

/-- What is reported of a text literal is the line of its opening quote: behind what comes
before, it has no other. -/
theorem tokenize_eq_unterminatedText_iff {source : String} {line : Nat} :
    tokenize source = .error (.unterminatedText line) ↔
      ∃ before inside tokens, source = before ++ "\"" ++ inside ∧ Whole before tokens ∧
        '"' ∉ inside.toList ∧ line = 1 + newlines before := by
  constructor
  · intro h
    rcases Lexer.scan_eq_error h with ⟨raw, hraw⟩ | ⟨mode, ended, hread, hend⟩
    · cases hraw
    · obtain ⟨inside, rfl⟩ := Lexer.mode_of_unterminatedText hend
      obtain ⟨before, after, hsource, hbefore, hafter, rfl⟩ := Lexer.quote_of_readAll hread
      refine ⟨String.ofList before, String.ofList after, ended, ?_,
        whole_of_readAll (by simpa using hbefore), by simpa using hafter, by simp [newlines]⟩
      apply String.toList_inj.mp
      simp [hsource]
  · rintro ⟨before, inside, tokens, rfl, hbefore, hinside, rfl⟩
    rw [String.append_assoc, hbefore]
    have hopen : tokenize ("\"" ++ inside) = .error (.unterminatedText 1) := by
      rw [tokenize, String.toList_append]
      have hscan : Lexer.scan (.text 1 []) 1 inside.toList = .error (.unterminatedText 1) :=
        Lexer.scan_text hinside
      exact hscan
    rw [hopen]
    rfl

/-- What is reported of a comment is the line of its parenthesis, which stands alone:
behind what comes before, it has no closing one. -/
theorem tokenize_eq_unterminatedComment_iff {source : String} {line : Nat} :
    tokenize source = .error (.unterminatedComment line) ↔
      ∃ before inside tokens, source = before ++ "(" ++ inside ∧ Whole before tokens ∧
        (∀ c ∈ inside.toList.head?, Text.isBlank c = true) ∧ ')' ∉ inside.toList ∧
        line = 1 + newlines before := by
  constructor
  · intro h
    rcases Lexer.scan_eq_error h with ⟨raw, hraw⟩ | ⟨mode, ended, hread, hend⟩
    · cases hraw
    · rcases Lexer.mode_of_unterminatedComment hend with rfl | ⟨rfl, rfl⟩
      · obtain ⟨before, c, after, hsource, hblank, hbefore, hafter, rfl⟩ :=
          Lexer.parenthesis_of_readAll hread
        refine ⟨String.ofList before, String.ofList (c :: after), ended, ?_,
          whole_of_readAll (by simpa using hbefore), by simpa using hblank,
          by simpa using hafter, by simp [newlines]⟩
        apply String.toList_inj.mp
        simp [hsource]
      · obtain ⟨before, hsource, hbefore⟩ := Lexer.run_of_readAll hread
        refine ⟨String.ofList before, "", ended, ?_, whole_of_readAll (by simpa using hbefore),
          by simp, by simp, by simp [hsource, newlines]⟩
        apply String.toList_inj.mp
        simp [hsource]
  · rintro ⟨before, inside, tokens, rfl, hbefore, hblank, hinside, rfl⟩
    rw [String.append_assoc, hbefore]
    have hopen : tokenize ("(" ++ inside) = .error (.unterminatedComment 1) := by
      rw [tokenize, String.toList_append]
      cases hchars : inside.toList with
      | nil => rfl
      | cons c rest =>
        have hc : Text.isBlank c = true := hblank c (by simp [hchars])
        rw [hchars, List.mem_cons, not_or] at hinside
        have hcomment : Lexer.scan .between 1 ('(' :: c :: rest) =
            Lexer.scan (.comment 1) (Lexer.lineAfter c 1) rest := by
          simp [Lexer.scan, hc, show Text.isBlank '(' = false by decide]
        exact hcomment.trans (Lexer.scan_comment hinside.2)
    rw [hopen]
    rfl

/-! ## One text below another -/

/-- A script is read line by line: below a text that can be read, any other text is read as
it is on its own, and what it leaves open is reported further down by the lines above it.
Whatever stays open is reported on the line it opens on. -/
theorem tokenize_lines :
    (∀ a b tokens, tokenize a = .ok tokens →
      (∀ later, tokenize b = .ok later → tokenize (a ++ "\n" ++ b) = .ok (tokens ++ later)) ∧
      (∀ raw, tokenize b = .error (.literalOutOfRange raw) →
        tokenize (a ++ "\n" ++ b) = .error (.literalOutOfRange raw)) ∧
      (∀ line, tokenize b = .error (.unterminatedText line) →
        tokenize (a ++ "\n" ++ b) = .error (.unterminatedText (line + 1 + newlines a))) ∧
      (∀ line, tokenize b = .error (.unterminatedComment line) →
        tokenize (a ++ "\n" ++ b) = .error (.unterminatedComment (line + 1 + newlines a)))) ∧
    (∀ source line, tokenize source = .error (.unterminatedText line) ↔
      ∃ before inside tokens, source = before ++ "\"" ++ inside ∧ Whole before tokens ∧
        '"' ∉ inside.toList ∧ line = 1 + newlines before) ∧
    (∀ source line, tokenize source = .error (.unterminatedComment line) ↔
      ∃ before inside tokens, source = before ++ "(" ++ inside ∧ Whole before tokens ∧
        (∀ c ∈ inside.toList.head?, Text.isBlank c = true) ∧ ')' ∉ inside.toList ∧
        line = 1 + newlines before) := by
  refine ⟨?_, fun source line => tokenize_eq_unterminatedText_iff,
    fun source line => tokenize_eq_unterminatedComment_iff⟩
  intro a b tokens ha
  have hwhole : tokenize (a ++ "\n" ++ b) =
      ((tokenize b).map (tokens ++ ·)).mapError (Error.below (newlines a + 1)) := by
    rw [whole_newline ha, newlines_newline]
  refine ⟨?_, ?_, ?_, ?_⟩
  · intro later hb
    rw [hwhole, hb]
    rfl
  · intro raw hb
    rw [hwhole, hb]
    rfl
  · intro line hb
    rw [hwhole, hb, Nat.add_right_comm, Nat.add_assoc]
    rfl
  · intro line hb
    rw [hwhole, hb, Nat.add_right_comm, Nat.add_assoc]
    rfl

/-- Below a remark and a text literal over two lines, the comment that nothing closes is
reported on the fourth line. -/
theorem tokenize_lines_remark :
    tokenize "1 \"a\nb\" \\ ( remark" = .ok [.number 1, .text "a\nb"] ∧
    tokenize "2 (x)\n( \"open" = .error (.unterminatedComment 2) ∧
    tokenize ("1 \"a\nb\" \\ ( remark" ++ "\n" ++ "2 (x)\n( \"open") =
      .error (.unterminatedComment 4) := by
  have habove : tokenize "1 \"a\nb\" \\ ( remark" = .ok [.number 1, .text "a\nb"] := by
    rfl
  have hbelow : tokenize "2 (x)\n( \"open" = .error (.unterminatedComment 2) := by
    rfl
  exact ⟨habove, hbelow, (tokenize_lines.1 _ _ _ habove).2.2.2 2 hbelow⟩

end HexArena.Script
