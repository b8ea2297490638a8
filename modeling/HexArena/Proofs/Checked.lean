import HexArena.Number

/-!
# Checked computations

How the result of a computation that may be given up comes from the results of
its parts, which overflows it reports, and when two computations correspond.

Main results:

- Theorem {lit}`bind_eq_ok`: a computation with a result has results on the way.
- Definition {lit}`Checked.OfComponent`: no overflow but that of a component.
- Definitions {lit}`Checked.Defined` and {lit}`Checked.Overflows`: no overflow at
  all, or some.
- Definition {lit}`Checked.Both`: the same overflow, or related results.
- Definition {lit}`Checked.Agree`: related results, as far as neither overflows.
-/

namespace HexArena

/-- Two computations in a row have a result if the first has one and the second
has one from there. -/
theorem bind_eq_ok {ε α β : Type} {first : Except ε α} {later : α → Except ε β} {b : β} :
    (first >>= later) = .ok b ↔ ∃ a, first = .ok a ∧ later a = .ok b := by
  cases first with
  | ok a =>
    constructor
    · intro h
      exact ⟨a, rfl, h⟩
    · rintro ⟨a', ha, h⟩
      cases ha
      exact h
  | error cause =>
    constructor
    · intro h
      cases h
    · rintro ⟨a, ha, -⟩
      cases ha

/-! ## Overflows of components -/

/-- The computation reports no overflow but that of a component. -/
def Checked.OfComponent {α : Type} (c : Checked α) : Prop :=
  ∀ cause, c = .error cause → cause = .component

namespace Checked

/-- A result reports no overflow. -/
theorem OfComponent.ok {α : Type} (a : α) : OfComponent (.ok a) :=
  nofun

/-- The overflow of a component is one. -/
theorem OfComponent.error {α : Type} : OfComponent (.error .component : Checked α) := by
  rintro cause ⟨⟩
  rfl

/-- Two computations in a row report what one of them reports. -/
theorem OfComponent.bind {α β : Type} {first : Checked α} {later : α → Checked β}
    (hfirst : OfComponent first) (hlater : ∀ a, OfComponent (later a)) :
    OfComponent (first >>= later) := by
  cases first with
  | ok a => exact hlater a
  | error cause =>
    rintro cause' ⟨⟩
    exact hfirst cause rfl

/-- A choice reports what one of the computations reports. -/
theorem OfComponent.ite {α : Type} {p : Prop} [Decidable p] {yes no : Checked α}
    (hyes : OfComponent yes) (hno : OfComponent no) : OfComponent (if p then yes else no) := by
  split
  · exact hyes
  · exact hno

end Checked

/-! ## Computations that do not overflow -/

/-- The computation has a result. -/
def Checked.Defined {α : Type} (c : Checked α) : Prop :=
  ∃ a, c = .ok a

namespace Checked

/-- A result is there. -/
theorem Defined.ok {α : Type} (a : α) : Defined (.ok a) :=
  ⟨a, rfl⟩

/-- Two computations in a row have a result if the second has one from there. -/
theorem Defined.bind {α β : Type} {first : Checked α} {later : α → Checked β}
    (hfirst : Defined first) (hlater : ∀ a, first = .ok a → Defined (later a)) :
    Defined (first >>= later) := by
  obtain ⟨a, rfl⟩ := hfirst
  exact hlater a rfl

/-- A choice has a result if both computations have one. -/
theorem Defined.ite {α : Type} {p : Prop} [Decidable p] {yes no : Checked α}
    (hyes : Defined yes) (hno : Defined no) : Defined (if p then yes else no) := by
  split
  · exact hyes
  · exact hno

/-- A computation with a result reports no overflow. -/
theorem Defined.ne_error {α : Type} {c : Checked α} (h : Defined c) (cause : Overflow) :
    c ≠ .error cause := by
  obtain ⟨a, rfl⟩ := h
  nofun

/-- The computation is given up. -/
def Overflows {α : Type} (c : Checked α) : Prop :=
  ∃ cause, c = .error cause

/-- A computation overflows exactly if it has no result. -/
theorem overflows_iff {α : Type} {c : Checked α} : Overflows c ↔ ¬ Defined c := by
  constructor
  · rintro ⟨cause, rfl⟩ ⟨a, ha⟩
    cases ha
  · intro hnot
    cases c with
    | ok a => exact absurd (Defined.ok a) hnot
    | error cause => exact ⟨cause, rfl⟩

end Checked

/-! ## Corresponding computations -/

/-- Two computations report the same overflow, or have related results. -/
def Checked.Both {α : Type} (related : α → α → Prop) : Checked α → Checked α → Prop
  | .ok a, .ok a' => related a a'
  | .error cause, .error cause' => cause = cause'
  | _, _ => False

/-- Computations that go on from related results. -/
theorem Checked.Both.bind {α β : Type} {related : α → α → Prop} {related' : β → β → Prop}
    {first first' : Checked α} {later later' : α → Checked β} (h : Both related first first')
    (hlater : ∀ a a', related a a' → Both related' (later a) (later' a')) :
    Both related' (first >>= later) (first' >>= later') := by
  cases first with
  | ok a =>
    cases first' with
    | ok a' => exact hlater a a' h
    | error cause => exact h.elim
  | error cause =>
    cases first' with
    | ok a' => exact h.elim
    | error cause' => exact h

/-- Related results are results of the computations. -/
theorem Checked.Both.with_eq {α : Type} {related : α → α → Prop} {c c' : Checked α}
    (h : Both related c c') : Both (fun a a' => c = .ok a ∧ related a a') c c' := by
  cases c with
  | ok a =>
    cases c' with
    | ok a' => exact ⟨rfl, h⟩
    | error cause => exact h.elim
  | error cause =>
    cases c' with
    | ok a' => exact h.elim
    | error cause' => exact h

/-- Results that are read off related results. -/
theorem Checked.Both.map {α β : Type} {related : α → α → Prop} {related' : β → β → Prop}
    {c c' : Checked α} {f : α → β} (h : Both related c c')
    (hf : ∀ a a', related a a' → related' (f a) (f a')) : Both related' (c.map f) (c'.map f) := by
  cases c with
  | ok a =>
    cases c' with
    | ok a' => exact hf a a' h
    | error cause => exact h.elim
  | error cause =>
    cases c' with
    | ok a' => exact h.elim
    | error cause' => exact h

/-- The same refusal, or related results. -/
inductive ResultRel {ε α β : Type} (related : α → β → Prop) : Except ε α → Except ε β → Prop
  | error (e : ε) : ResultRel related (.error e) (.error e)
  | ok {a : α} {b : β} (h : related a b) : ResultRel related (.ok a) (.ok b)

/-! ## Agreeing computations -/

/-- If both computations have results, these are related. -/
def Checked.Agree {α β : Type} (related : α → β → Prop) (c : Checked α) (c' : Checked β) : Prop :=
  ∀ a b, c = .ok a → c' = .ok b → related a b

namespace Checked.Agree

variable {α β γ δ : Type} {related : α → β → Prop} {related' : γ → δ → Prop}

/-- Related results agree. -/
theorem ok {a : α} {b : β} (h : related a b) : Agree related (.ok a) (.ok b) := by
  rintro a' b' ⟨⟩ ⟨⟩
  exact h

/-- A computation agrees with itself. -/
theorem refl (c : Checked α) : Agree Eq c c := by
  intro a b ha hb
  exact Except.ok.inj (ha.symm.trans hb)

/-- Computations that go on from related results. -/
theorem bind {first : Checked α} {first' : Checked β} {later : α → Checked γ}
    {later' : β → Checked δ} (hfirst : Agree related first first')
    (hlater : ∀ a b, related a b → Agree related' (later a) (later' b)) :
    Agree related' (first >>= later) (first' >>= later') := by
  intro c d hc hd
  obtain ⟨a, ha, hc⟩ := bind_eq_ok.mp hc
  obtain ⟨b, hb, hd⟩ := bind_eq_ok.mp hd
  exact hlater a b (hfirst a b ha hb) c d hc hd

/-- Computations that go on from equal results. -/
theorem bind_eq {first first' : Checked α} {later : α → Checked γ} {later' : α → Checked δ}
    (hfirst : Agree Eq first first') (hlater : ∀ a, Agree related' (later a) (later' a)) :
    Agree related' (first >>= later) (first' >>= later') := by
  refine hfirst.bind ?_
  rintro a _ rfl
  exact hlater a

end Checked.Agree

end HexArena
