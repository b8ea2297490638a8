import HexArena.Proofs.Script.Lexer
import HexArena.Proofs.Script.Lines
import HexArena.Proofs.Text.Decimal

/-!
# Rendering tokens

Written one behind another with single spaces between them, the tokens of a script are a
script again, and it has the same tokens: comments, layout and spellings of numbers are
all that a script loses by being read.  What makes it so is the form of the tokens that
are read.  The quote ends a text literal and stands in none.  A word does not start with a
quote, does not read as a number, and is neither the parenthesis that opens a comment nor
the backslash that opens a remark.

Main results:

- Definition {lit}`Token.Written`: the tokens that scripts are read to.
- Theorem {lit}`written_of_tokenize`: a script is read to such tokens.
- Theorem {lit}`tokenize_renderAll_of_written`: such tokens are read back.
- Theorem {lit}`tokenize_renderAll`: rendering undoes reading.
-/

namespace HexArena

namespace Text

/-! ## Numerals -/

/-- The characters are digits, or a minus sign and digits. -/
def Numeral (cs : List Char) : Prop :=
  isDigits cs = true ∨ ∃ digits, isDigits digits = true ∧ cs = '-' :: digits

theorem not_isDigits_minus (cs : List Char) : isDigits ('-' :: cs) = false := by
  simp [isDigits]

/-- The text of an integer is a numeral. -/
theorem numeral_toString (n : Int) : Numeral (toString n).toList := by
  rw [toList_toString]
  by_cases h : n < 0
  · rw [if_pos h]
    exact .inr ⟨_, isDigits_toDigits _, rfl⟩
  · rw [if_neg h]
    exact .inl (isDigits_toDigits _)

/-- No digit is a blank. -/
theorem isBlank_of_isDigit {c : Char} (h : c.isDigit = true) : isBlank c = false := by
  simp only [Char.isDigit, Bool.and_eq_true, decide_eq_true_eq] at h
  obtain ⟨hlow, hhigh⟩ := h
  have hlow : 48 ≤ c.toNat := hlow
  have hhigh : c.toNat ≤ 57 := hhigh
  simp [isBlank, blankRanges]
  omega

theorem Numeral.ne_nil {cs : List Char} (h : Numeral cs) : cs ≠ [] := by
  rcases h with hdigits | ⟨digits, -, rfl⟩
  · exact (isDigits_iff.mp hdigits).1
  · exact List.cons_ne_nil _ _

/-- A numeral holds minus signs and digits only. -/
theorem Numeral.minus_or_digit {cs : List Char} (h : Numeral cs) {c : Char} (hc : c ∈ cs) :
    c = '-' ∨ c.isDigit = true := by
  rcases h with hdigits | ⟨digits, hdigits, rfl⟩
  · exact .inr ((isDigits_iff.mp hdigits).2 c hc)
  · rcases List.mem_cons.mp hc with rfl | hc
    · exact .inl rfl
    · exact .inr ((isDigits_iff.mp hdigits).2 c hc)

end Text

namespace Script

namespace Lexer

/-! ## Unquoted runs -/

/-- What an unquoted run is tested for is that it is a numeral. -/
theorem numeral_iff {raw : List Char} :
    Text.Numeral raw ↔
      Text.isDigits (match raw with | '-' :: rest => rest | _ => raw) = true := by
  split
  · rename_i rest
    constructor
    · rintro (h | ⟨digits, h, hraw⟩)
      · simp [Text.not_isDigits_minus] at h
      · cases hraw
        exact h
    · intro h
      exact .inr ⟨rest, h, rfl⟩
  · rename_i hminus
    constructor
    · rintro (h | ⟨digits, -, hraw⟩)
      · exact h
      · exact absurd hraw (hminus digits)
    · exact .inl

/-- A run that is no numeral is a word. -/
theorem classify_of_not_numeral {raw : List Char} (h : ¬ Text.Numeral raw) :
    classify raw = .ok (.word (String.ofList raw)) :=
  if_neg (mt numeral_iff.mpr h)

/-- A numeral is the integer it writes, if that is within the range. -/
theorem classify_of_numeral {raw : List Char} (h : Text.Numeral raw) :
    classify raw = match Text.readInt64? raw with
      | some n => .ok (.number n)
      | none => .error (.literalOutOfRange (String.ofList raw)) :=
  if_pos (numeral_iff.mp h)

/-- A run is read as an integer within the range, or as the word it spells. -/
theorem classify_eq_ok {raw : List Char} {token : Token} (h : classify raw = .ok token) :
    (∃ n, Fits64 n ∧ token = .number n) ∨
      ¬ Text.Numeral raw ∧ token = .word (String.ofList raw) := by
  by_cases hraw : Text.Numeral raw
  · rw [classify_of_numeral hraw] at h
    cases hn : Text.readInt64? raw with
    | some n =>
      rw [hn] at h
      cases h
      exact .inl ⟨n, Text.fits_of_readInt64? hn, rfl⟩
    | none =>
      rw [hn] at h
      cases h
  · rw [classify_of_not_numeral hraw] at h
    cases h
    exact .inr ⟨hraw, rfl⟩

/-- The characters are an unquoted run that opens neither a comment nor a remark. -/
structure Bare (cs : List Char) : Prop where
  /-- There are some, and none is a blank. -/
  solid : Solid cs
  /-- They do not open a text literal. -/
  unquoted : cs.head? ≠ some '"'
  /-- They do not open a comment. -/
  no_comment : cs ≠ ['(']
  /-- They do not open a remark. -/
  no_remark : cs ≠ ['\\']

/-- A numeral is an unquoted run. -/
theorem bare_of_numeral {cs : List Char} (h : Text.Numeral cs) : Bare cs := by
  have hother : ∀ c, c ≠ '-' → c.isDigit = false → c ∉ cs := by
    intro c hminus hdigit hc
    rcases h.minus_or_digit hc with rfl | hc
    · exact hminus rfl
    · simp [hc] at hdigit
  refine ⟨⟨h.ne_nil, ?_⟩, ?_, ?_, ?_⟩
  · intro c hc
    rcases h.minus_or_digit hc with rfl | hdigit
    · decide
    · exact Text.isBlank_of_isDigit hdigit
  · intro hhead
    exact hother '"' (by decide) (by decide) (List.mem_of_mem_head? hhead)
  · rintro rfl
    exact hother '(' (by decide) (by decide) List.mem_cons_self
  · rintro rfl
    exact hother '\\' (by decide) (by decide) List.mem_cons_self

end Lexer

/-! ## The tokens that are read -/

/-- The token is one that its written form is read as. -/
def Token.Written : Token → Prop
  | .number n => Fits64 n
  | .text s => '"' ∉ s.toList
  | .word name => Lexer.Bare name.toList ∧ ¬ Text.Numeral name.toList

namespace Lexer

/-- What the machine has read of a token is the start of one that can be read back. -/
def Mode.Clean : Mode → Prop
  | text _ inside => '"' ∉ inside
  | run cs => Lexer.Solid cs ∧ cs.getLast? ≠ some '"'
  | _ => True

/-- A run that ends is an integer or a word that can be read back. -/
theorem written_of_classify {cs : List Char} {token : Token} (hclean : (Mode.run cs).Clean)
    (hcomment : cs ≠ ['(']) (hremark : cs ≠ ['\\']) (h : classify cs.reverse = .ok token) :
    token.Written := by
  obtain ⟨hsolid, hquote⟩ := hclean
  rcases classify_eq_ok h with ⟨n, hn, rfl⟩ | ⟨hword, rfl⟩
  · exact hn
  · refine ⟨?_, by simpa using hword⟩
    rw [String.toList_ofList]
    refine ⟨hsolid.reverse, by simpa using hquote, ?_, ?_⟩
    · exact fun hrun => hcomment (by simpa using hrun)
    · exact fun hrun => hremark (by simpa using hrun)

/-- A character keeps what the machine has read clean, and ends tokens that can be read
back. -/
theorem Reads.clean {line : Nat} {c : Char} {mode mode' : Mode} {ended : List Token}
    (h : Reads line c mode mode' ended) (hclean : mode.Clean) :
    mode'.Clean ∧ ∀ token ∈ ended, token.Written := by
  cases h with
  | quote hc => exact ⟨List.not_mem_nil, by simp⟩
  | start hsolid hc =>
    refine ⟨⟨⟨List.cons_ne_nil c [], by simpa using hsolid⟩, ?_⟩, by simp⟩
    simpa using hc
  | inText hc => exact ⟨by simp [Mode.Clean, Ne.symm hc, show '"' ∉ _ from hclean], by simp⟩
  | @unquote _ inside hc =>
    have hinside : '"' ∉ inside := hclean
    exact ⟨trivial, by simpa [Token.Written] using hinside⟩
  | @inRun cs hsolid =>
    obtain ⟨⟨hne, hall⟩, hquote⟩ := hclean
    refine ⟨⟨⟨List.cons_ne_nil c cs, ?_⟩, ?_⟩, by simp⟩
    · simpa using ⟨hsolid, hall⟩
    · rw [List.getLast?_cons_of_ne_nil hne]
      exact hquote
  | token _ hcomment hremark hclassify =>
    refine ⟨trivial, ?_⟩
    simpa using written_of_classify hclean hcomment hremark hclassify
  | blank | comment | remark | emptyRemark | inComment | uncomment | inRemark | newline =>
    exact ⟨trivial, by simp⟩

/-- Several characters do so too. -/
theorem readAll_clean {mode mode' : Mode} {line : Nat} {cs : List Char} {ended : List Token}
    (h : readAll mode line cs = .ok (mode', ended)) (hclean : mode.Clean) :
    mode'.Clean ∧ ∀ token ∈ ended, token.Written := by
  induction cs generalizing mode line ended with
  | nil =>
    cases h
    exact ⟨hclean, by simp⟩
  | cons c cs ih =>
    rw [readAll] at h
    obtain ⟨⟨middle, first⟩, hfirst, hrest⟩ := bind_eq_ok.mp h
    obtain ⟨⟨last, later⟩, hlater, hall⟩ := bind_eq_ok.mp hrest
    cases hall
    obtain ⟨hmiddle, hwritten⟩ := (reads_of_read hfirst).clean hclean
    obtain ⟨hlast, hlate⟩ := ih hlater hmiddle
    refine ⟨hlast, ?_⟩
    intro token htoken
    rcases List.mem_append.mp htoken with hearly | htoken
    · exact hwritten token hearly
    · exact hlate token htoken

end Lexer

/-- A script is read to tokens that can be read back. -/
theorem written_of_tokenize {source : String} {tokens : List Token}
    (h : tokenize source = .ok tokens) : ∀ token ∈ tokens, token.Written :=
  (Lexer.readAll_clean (Lexer.readAll_newline h) trivial).2

/-! ## Reading a token back -/

namespace Lexer

/-- The characters of a text literal are read up to its closing quote. -/
theorem readAll_text {start line : Nat} {inside cs : List Char} (h : '"' ∉ cs) :
    readAll (.text start inside) line cs = .ok (.text start (cs.reverse ++ inside), []) := by
  induction cs generalizing inside line with
  | nil => rfl
  | cons c cs ih =>
    simp only [List.mem_cons, not_or] at h
    rw [readAll, read, if_neg (Ne.symm h.1)]
    simp [bind, Except.bind, pure, Except.pure, ih h.2]

/-- The characters of a run are read up to the blank behind it. -/
theorem readAll_run {line : Nat} {inside cs : List Char}
    (h : ∀ c ∈ cs, Text.isBlank c = false) :
    readAll (.run inside) line cs = .ok (.run (cs.reverse ++ inside), []) := by
  induction cs generalizing inside line with
  | nil => rfl
  | cons c cs ih =>
    obtain ⟨hc, hcs⟩ := List.forall_mem_cons.mp h
    have hread : read (.run inside) line c = .ok (.run (c :: inside), []) := by
      simp [read, hc]
    simp [readAll, hread, bind, Except.bind, pure, Except.pure, ih hcs]

/-- A run with a space behind it is what it is classified as. -/
theorem readAll_bare {cs : List Char} (h : Bare cs) {token : Token}
    (htoken : classify cs = .ok token) (line : Nat) :
    readAll .between line (cs ++ [' ']) = .ok (.between, [token]) := by
  obtain ⟨⟨hne, hsolid⟩, hquote, hcomment, hremark⟩ := h
  have hrun : readAll .between line cs = .ok (.run cs.reverse, []) := by
    cases cs with
    | nil => exact absurd rfl hne
    | cons c rest =>
      obtain ⟨hc, hrest⟩ := List.forall_mem_cons.mp hsolid
      have hstart : c ≠ '"' := by simpa using hquote
      rw [readAll, read, if_neg (by simp [hc]), if_neg hstart]
      simp [bind, Except.bind, pure, Except.pure, readAll_run hrest]
  have hend : ∀ line, read (.run cs.reverse) line ' ' = .ok (.between, [token]) := by
    intro line
    have hcomment' : cs.reverse ≠ ['('] := by simpa using hcomment
    have hremark' : cs.reverse ≠ ['\\'] := by simpa using hremark
    simp [read, show Text.isBlank ' ' = true by decide, htoken, Except.map]
  refine readAll_append_of_eq hrun ?_
  rw [readAll_singleton, hend]

/-- A text literal with a space behind it is read as its content. -/
theorem readAll_quoted {cs : List Char} (h : '"' ∉ cs) (line : Nat) :
    readAll .between line ('"' :: cs ++ ['"', ' ']) =
      .ok (.between, [.text (String.ofList cs)]) := by
  have hopen : readAll .between line ('"' :: cs) = .ok (.text line cs.reverse, []) := by
    rw [readAll, read, if_neg (by decide), if_pos rfl]
    simp [bind, Except.bind, pure, Except.pure, readAll_text h]
  refine readAll_append_of_eq hopen ?_
  simp [readAll, read, bind, Except.bind, pure, Except.pure, show Text.isBlank ' ' = true by decide]

/-- The written form of a token with a space behind it is read as the token. -/
theorem readAll_render {token : Token} (h : token.Written) (line : Nat) :
    readAll .between line (token.render.toList ++ [' ']) = .ok (.between, [token]) := by
  cases token with
  | number n =>
    have hnumeral := Text.numeral_toString n
    have hclassify : classify (toString n).toList = .ok (.number n) := by
      rw [classify_of_numeral hnumeral, Text.readInt64?_toString h]
    exact readAll_bare (bare_of_numeral hnumeral) hclassify line
  | text s =>
    have hchars : (Token.text s).render.toList ++ [' '] = '"' :: s.toList ++ ['"', ' '] := by
      simp [Token.render]
    rw [hchars, readAll_quoted h, String.ofList_toList]
  | word name =>
    obtain ⟨hbare, hword⟩ := h
    have hclassify : classify name.toList = .ok (.word name) := by
      rw [classify_of_not_numeral hword, String.ofList_toList]
    exact readAll_bare hbare hclassify line

/-- Written forms with a space behind each are read as the tokens. -/
theorem readAll_renders {tokens : List Token} (h : ∀ token ∈ tokens, token.Written) (line : Nat) :
    readAll .between line (tokens.flatMap fun token => token.render.toList ++ [' ']) =
      .ok (.between, tokens) := by
  induction tokens generalizing line with
  | nil => rfl
  | cons token tokens ih =>
    obtain ⟨htoken, htokens⟩ := List.forall_mem_cons.mp h
    exact readAll_append_of_eq (readAll_render htoken line) (ih htokens _)

/-- What the machine has read with a space behind it can be read without the space. -/
theorem scan_of_readAll_space {line : Nat} {cs : List Char} {tokens : List Token}
    (h : readAll .between line (cs ++ [' ']) = .ok (.between, tokens)) :
    scan .between line cs = .ok tokens := by
  obtain ⟨mode, ended, last, hread, hlast, rfl⟩ := readAll_concat h
  have hend : scan mode (line + cs.count '\n') [] = .ok last := by
    cases reads_of_read hlast with
    | blank _ => rfl
    | token _ hcomment hremark hclassify =>
      simp [scan, hclassify, bind, Except.bind, pure, Except.pure]
    | unquote hc | emptyRemark hc | uncomment hc | newline hc => exact absurd hc (by decide)
  rw [← List.append_nil cs, scan_of_readAll hread, hend, behind_ok]

end Lexer

/-! ## Rendering a script -/

/-- The written forms of tokens with single spaces between them. -/
def renderAll (tokens : List Token) : String :=
  String.intercalate " " (tokens.map Token.render)

/-- With a space behind the last token there is one behind each. -/
theorem toList_renderAll {tokens : List Token} (h : tokens ≠ []) :
    (renderAll tokens).toList ++ [' '] =
      tokens.flatMap fun token => token.render.toList ++ [' '] := by
  induction tokens with
  | nil => exact absurd rfl h
  | cons token tokens ih =>
    cases tokens with
    | nil => simp [renderAll]
    | cons next rest =>
      have hrest := ih (List.cons_ne_nil next rest)
      rw [List.flatMap_cons, ← hrest]
      simp [renderAll, String.toList_intercalate]

/-- Tokens that scripts are read to are read back from their written forms. -/
theorem tokenize_renderAll_of_written {tokens : List Token}
    (h : ∀ token ∈ tokens, token.Written) : tokenize (renderAll tokens) = .ok tokens := by
  by_cases hnil : tokens = []
  · subst hnil
    rfl
  · apply Lexer.scan_of_readAll_space
    rw [toList_renderAll hnil]
    exact Lexer.readAll_renders h 1

/-- Rendering undoes reading: the tokens of a script, written one behind another with
single spaces between them, are read as the same tokens.  The tokens that scripts are read
to are the integers within the range, the text literals without a quote, and the words that
are unquoted runs and no numerals. -/
theorem tokenize_renderAll :
    (∀ source tokens, tokenize source = .ok tokens → tokenize (renderAll tokens) = .ok tokens) ∧
    ∀ tokens, (∃ source, tokenize source = .ok tokens) ↔ ∀ token ∈ tokens, token.Written := by
  constructor
  · intro source tokens h
    exact tokenize_renderAll_of_written (written_of_tokenize h)
  · intro tokens
    constructor
    · rintro ⟨source, h⟩
      exact written_of_tokenize h
    · intro h
      exact ⟨renderAll tokens, tokenize_renderAll_of_written h⟩

/-- A remark, layout and the spellings of two integers are gone; a text literal over two
lines that looks like a comment, and words with quotes and parentheses in them, are as they
were. -/
theorem tokenize_renderAll_respelled :
    tokenize "-0\t007 \\ zeros\n\"( a\nb\" x\"y (z)" =
      .ok [.number 0, .number 7, .text "( a\nb", .word "x\"y", .word "(z)"] ∧
    renderAll [.number 0, .number 7, .text "( a\nb", .word "x\"y", .word "(z)"] =
      "0 7 \"( a\nb\" x\"y (z)" ∧
    tokenize "0 7 \"( a\nb\" x\"y (z)" =
      .ok [.number 0, .number 7, .text "( a\nb", .word "x\"y", .word "(z)"] := by
  have hsource : tokenize "-0\t007 \\ zeros\n\"( a\nb\" x\"y (z)" =
      .ok [.number 0, .number 7, .text "( a\nb", .word "x\"y", .word "(z)"] := by
    rfl
  have hrender : renderAll [.number 0, .number 7, .text "( a\nb", .word "x\"y", .word "(z)"] =
      "0 7 \"( a\nb\" x\"y (z)" := by
    rfl
  refine ⟨hsource, hrender, ?_⟩
  rw [← hrender]
  exact tokenize_renderAll.1 _ _ hsource

end Script

end HexArena
