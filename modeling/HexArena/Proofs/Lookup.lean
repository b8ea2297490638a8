import HexArena.Lookup
import Mathlib.Data.List.Forall2

/-!
# Changing the first match

How the list with its first matching element changed relates to the list
before.

Main results:

- Theorem {lit}`mem_updateFirst`: an element is an old one or the changed one.
- Theorem {lit}`mem_updateFirst_of_unique`: if there is one match at most, the
  old ones are those that do not match.
- Theorem {lit}`find?_updateFirst`: the first match is the changed one.
- Theorem {lit}`find?_updateFirst_of_disjoint`: a change does not concern what
  does not match.
- Theorem {lit}`updateFirst_updateFirst`: two changes of the first match are
  one.
- Theorem {lit}`forall₂_updateFirst`: a list that follows another one place by
  place goes on to do so if the changed element does.
- Theorems {lit}`rel_find?` and {lit}`rel_updateFirst`: lists whose elements are
  related are searched and changed alike.
-/

namespace HexArena

variable {α : Type} {p : α → Bool} {f : α → α}

/-- An element of the changed list is an old one, or the changed one. -/
theorem mem_updateFirst {l : List α} {a : α} (h : a ∈ updateFirst p f l) :
    a ∈ l ∨ ∃ b ∈ l, p b = true ∧ a = f b := by
  induction l with
  | nil => exact Or.inl h
  | cons b rest ih =>
    unfold updateFirst at h
    split at h
    · rename_i hb
      rcases List.mem_cons.mp h with rfl | hrest
      · exact Or.inr ⟨b, List.mem_cons_self, hb, rfl⟩
      · exact Or.inl (List.mem_cons_of_mem b hrest)
    · rcases List.mem_cons.mp h with rfl | hrest
      · exact Or.inl List.mem_cons_self
      · rcases ih hrest with hold | ⟨c, hc, hpc, rfl⟩
        · exact Or.inl (List.mem_cons_of_mem b hold)
        · exact Or.inr ⟨c, List.mem_cons_of_mem b hc, hpc, rfl⟩

/-- If there is one match at most, an element of the changed list is an old one
that does not match, or what is found, changed. -/
theorem mem_updateFirst_of_unique {l : List α}
    (hunique : l.Pairwise fun a b => p a = true → p b = false) {a : α}
    (h : a ∈ updateFirst p f l) : a ∈ l ∧ p a = false ∨ ∃ b, l.find? p = some b ∧ a = f b := by
  induction l with
  | nil => cases h
  | cons b rest ih =>
    obtain ⟨hfirst, hrest⟩ := List.pairwise_cons.mp hunique
    unfold updateFirst at h
    by_cases hb : p b = true
    · rw [if_pos hb] at h
      rcases List.mem_cons.mp h with rfl | ha
      · exact Or.inr ⟨b, List.find?_cons_of_pos hb, rfl⟩
      · exact Or.inl ⟨List.mem_cons_of_mem b ha, hfirst a ha hb⟩
    · rw [if_neg hb] at h
      rcases List.mem_cons.mp h with rfl | ha
      · exact Or.inl ⟨List.mem_cons_self, eq_false_of_ne_true hb⟩
      · rcases ih hrest ha with ⟨hmem, hnot⟩ | ⟨c, hfound, rfl⟩
        · exact Or.inl ⟨List.mem_cons_of_mem b hmem, hnot⟩
        · refine Or.inr ⟨c, ?_, rfl⟩
          rw [List.find?_cons_of_neg hb]
          exact hfound

theorem mem_updateFirst_of_not {l : List α} {a : α} (ha : a ∈ l) (hnot : p a = false) :
    a ∈ updateFirst p f l := by
  induction l with
  | nil => cases ha
  | cons b rest ih =>
    unfold updateFirst
    rcases List.mem_cons.mp ha with rfl | ha
    · simp [hnot]
    · split
      · exact List.mem_cons_of_mem _ ha
      · exact List.mem_cons_of_mem _ (ih ha)

/-- A change that keeps a reading of the elements keeps the readings of the
list. -/
theorem map_updateFirst {β : Type} {reading : α → β} {l : List α}
    (hf : ∀ a ∈ l, p a = true → reading (f a) = reading a) :
    (updateFirst p f l).map reading = l.map reading := by
  induction l with
  | nil => rfl
  | cons a rest ih =>
    unfold updateFirst
    split
    · rename_i ha
      simp [hf a List.mem_cons_self ha]
    · have hrest := ih fun b hb => hf b (List.mem_cons_of_mem a hb)
      simp [hrest]

/-- A change that keeps the match changes what is found. -/
theorem find?_updateFirst {l : List α} (hf : ∀ a ∈ l, p a = true → p (f a) = true) :
    (updateFirst p f l).find? p = (l.find? p).map f := by
  induction l with
  | nil => rfl
  | cons a rest ih =>
    unfold updateFirst
    split
    · rename_i ha
      simp [ha, hf a List.mem_cons_self ha]
    · rename_i ha
      have hrest := ih fun b hb => hf b (List.mem_cons_of_mem a hb)
      simp [ha, hrest]

/-- A change does not concern what does not match before or after it. -/
theorem find?_updateFirst_of_disjoint {q : α → Bool} {l : List α}
    (hold : ∀ a ∈ l, p a = true → q a = false) (hnew : ∀ a ∈ l, p a = true → q (f a) = false) :
    (updateFirst p f l).find? q = l.find? q := by
  induction l with
  | nil => rfl
  | cons a rest ih =>
    have hrest := ih (fun b hb => hold b (List.mem_cons_of_mem a hb))
      fun b hb => hnew b (List.mem_cons_of_mem a hb)
    unfold updateFirst
    split
    · rename_i ha
      simp [hold a List.mem_cons_self ha, hnew a List.mem_cons_self ha]
    · simp only [List.find?_cons, hrest]

/-- Without a match nothing is changed. -/
theorem updateFirst_of_find?_eq_none {l : List α} (h : l.find? p = none) :
    updateFirst p f l = l := by
  induction l with
  | nil => rfl
  | cons a rest ih =>
    have ha : p a = false := by
      simpa using List.find?_eq_none.mp h a List.mem_cons_self
    rw [List.find?_cons_of_neg (by simp [ha])] at h
    simp [updateFirst, ha, ih h]

/-- Two changes of the first match are one, if the first keeps the match. -/
theorem updateFirst_updateFirst {g : α → α} {l : List α}
    (hf : ∀ a ∈ l, p a = true → p (f a) = true) :
    updateFirst p g (updateFirst p f l) = updateFirst p (fun a => g (f a)) l := by
  induction l with
  | nil => rfl
  | cons a rest ih =>
    have hrest := ih fun b hb => hf b (List.mem_cons_of_mem a hb)
    by_cases ha : p a = true
    · simp [updateFirst, ha, hf a List.mem_cons_self ha]
    · simp [updateFirst, ha, hrest]

/-- A list that follows another one place by place goes on to do so when its
first match is changed, if the changed element does. -/
theorem forall₂_updateFirst {β : Type} {follows : β → α → Prop} {old : List β} {l : List α}
    (h : List.Forall₂ follows old l)
    (hf : ∀ b a, follows b a → l.find? p = some a → follows b (f a)) :
    List.Forall₂ follows old (updateFirst p f l) := by
  induction h with
  | nil => exact .nil
  | @cons b a old l hhead htail ih =>
    unfold updateFirst
    split
    · rename_i ha
      exact .cons (hf b a hhead (List.find?_cons_of_pos ha)) htail
    · rename_i ha
      refine .cons hhead (ih fun b' a' hfollows hfound => hf b' a' hfollows ?_)
      rw [List.find?_cons_of_neg ha]
      exact hfound

section Related

variable {β : Type} {related : α → β → Prop} {q : β → Bool} {g : β → β} {l : List α} {l' : List β}

/-- Lists whose elements are related are searched alike. -/
theorem rel_find? (h : List.Forall₂ related l l') (hmatch : ∀ a b, related a b → q b = p a) :
    Option.Rel related (l.find? p) (l'.find? q) := by
  induction h with
  | nil => exact .none
  | cons hhead _ ih =>
    rw [List.find?_cons, List.find?_cons, hmatch _ _ hhead]
    split
    · exact .some hhead
    · exact ih

/-- Lists whose elements are related stay so when their first matches are changed
alike. -/
theorem rel_updateFirst (h : List.Forall₂ related l l') (hmatch : ∀ a b, related a b → q b = p a)
    (hf : ∀ a b, related a b → related (f a) (g b)) :
    List.Forall₂ related (updateFirst p f l) (updateFirst q g l') := by
  induction h with
  | nil => exact .nil
  | cons hhead htail ih =>
    unfold updateFirst
    rw [hmatch _ _ hhead]
    split
    · exact .cons (hf _ _ hhead) htail
    · exact .cons hhead ih

/-- Lists whose elements are related and read alike have the same readings. -/
theorem map_filter_eq_of_rel {γ : Type} {reading : α → γ} {reading' : β → γ}
    (h : List.Forall₂ related l l') (hmatch : ∀ a b, related a b → q b = p a)
    (hreading : ∀ a b, related a b → reading' b = reading a) :
    (l'.filter q).map reading' = (l.filter p).map reading := by
  induction h with
  | nil => rfl
  | cons hhead _ ih =>
    rw [List.filter_cons, List.filter_cons, hmatch _ _ hhead]
    split
    · rw [List.map_cons, List.map_cons, hreading _ _ hhead, ih]
    · exact ih

end Related

end HexArena
