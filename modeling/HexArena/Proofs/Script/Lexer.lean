import HexArena.Proofs.Checked
import HexArena.Script.Lexer

/-!
# Words of a script

Blanks separate the tokens of a script, so no word in it is blank.

Main results:

- Theorem {lit}`tokenize_word_solid`: a word that is read is more than blanks.
-/

namespace HexArena.Script

namespace Lexer

/-- The characters are one or more, and none of them is a blank. -/
def Solid (cs : List Char) : Prop :=
  cs ≠ [] ∧ ∀ c ∈ cs, Text.isBlank c = false

/-- An unquoted run that is being read is solid. -/
def Mode.Solid : Mode → Prop
  | run read => Lexer.Solid read
  | _ => True

theorem Mode.solid_remark (c : Char) :
    (if c = '\n' then Mode.between else Mode.remark).Solid := by
  split
  · trivial
  · trivial

theorem Solid.reverse {cs : List Char} (h : Solid cs) : Solid cs.reverse :=
  ⟨by simpa using h.1, fun c hc => h.2 c (List.mem_reverse.mp hc)⟩

/-- A solid run of characters is no blank text. -/
theorem Solid.isBlankText {cs : List Char} (h : Solid cs) :
    Text.isBlankText (String.ofList cs) = false := by
  obtain ⟨hne, hsolid⟩ := h
  cases cs with
  | nil => exact absurd rfl hne
  | cons c rest =>
    simp [Text.isBlankText, hsolid c List.mem_cons_self]

/-- The word a solid run stands for is not blank. -/
theorem classify_word {raw : List Char} (h : Solid raw) {name : String}
    (hword : classify raw = .ok (.word name)) : Text.isBlankText name = false := by
  unfold classify at hword
  extract_lets digits at hword
  split at hword
  · split at hword
    · cases hword
    · cases hword
  · cases hword
    exact h.isBlankText

/-- A word among the tokens of the rest of a script is not blank. -/
theorem scan_word {mode : Mode} (hmode : mode.Solid) {line : Nat} {cs : List Char}
    {tokens : List Token} (hscan : scan mode line cs = .ok tokens) {name : String}
    (hname : Token.word name ∈ tokens) : Text.isBlankText name = false := by
  fun_induction scan mode line cs generalizing tokens with
  | case1 | case4 | case6 =>
    cases hscan
    exact absurd hname List.not_mem_nil
  | case2 | case3 | case5 => cases hscan
  | case7 read _ _ _ =>
    obtain ⟨token, hclassify, hlater⟩ := bind_eq_ok.mp hscan
    cases hlater
    rw [List.mem_singleton] at hname
    subst hname
    exact classify_word (Solid.reverse hmode) hclassify
  | case10 _ c _ hc _ ih =>
    have hrun : (Mode.run [c]).Solid := by
      refine ⟨List.cons_ne_nil c [], ?_⟩
      simpa using hc
    exact ih hrun hscan hname
  | case11 _ _ line rest ih =>
    obtain ⟨later, hlater, htokens⟩ := bind_eq_ok.mp hscan
    cases htokens
    rcases List.mem_cons.mp hname with hhead | htail
    · cases hhead
    · exact ih trivial hlater htail
  | case15 read line c rest _ _ _ ih =>
    obtain ⟨token, hclassify, hrest⟩ := bind_eq_ok.mp hscan
    obtain ⟨later, hlater, htokens⟩ := bind_eq_ok.mp hrest
    cases htokens
    rcases List.mem_cons.mp hname with hhead | htail
    · subst hhead
      exact classify_word (Solid.reverse hmode) hclassify
    · exact ih trivial hlater htail
  | case16 read _ c _ hc ih =>
    have hrun : (Mode.run (c :: read)).Solid := by
      refine ⟨List.cons_ne_nil c read, ?_⟩
      intro d hd
      rcases List.mem_cons.mp hd with rfl | hread
      · simpa using hc
      · exact hmode.2 d hread
    exact ih hrun hscan hname
  | case14 _ c _ _ ih | case19 _ c _ ih => exact ih (Mode.solid_remark c) hscan hname
  | case8 _ _ _ _ ih | case9 _ _ _ ih | case12 _ _ _ _ _ _ ih | case13 _ _ _ _ ih
  | case17 _ _ _ ih | case18 _ _ _ _ _ ih => exact ih trivial hscan hname

end Lexer

/-- No word of a script is blank. -/
theorem tokenize_word_solid {source : String} {tokens : List Token}
    (htokens : tokenize source = .ok tokens) {name : String}
    (hname : Token.word name ∈ tokens) : Text.isBlankText name = false :=
  Lexer.scan_word (show Lexer.Mode.between.Solid from trivial) htokens hname

end HexArena.Script
