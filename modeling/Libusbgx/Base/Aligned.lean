import Mathlib.Data.List.Forall2
import Mathlib.Tactic.Common

/-!
# Aligned lists

Two lists are aligned by a relation when they have the same length and the relation holds place by
place.
-/

namespace Libusbgx

lemma map_eq_of_forall₂ {α β : Type} {R : α → β → Prop} {key : β → α} {l : List α} {l' : List β}
    (h : List.Forall₂ R l l') (hR : ∀ a ∈ l, ∀ b, R a b → key b = a) : l'.map key = l := by
  induction h with
  | nil => rfl
  | cons hab _ ih =>
    rw [List.map_cons, hR _ (List.mem_cons_self ..) _ hab,
      ih fun a ha => hR a (List.mem_cons_of_mem _ ha)]

/-- Everything on the right has its partner on the left. -/
lemma exists_of_forall₂ {α β : Type} {R : α → β → Prop} {l : List α} {l' : List β}
    (h : List.Forall₂ R l l') {b : β} (hb : b ∈ l') : ∃ a ∈ l, R a b := by
  induction h with
  | nil => cases hb
  | cons hab _ ih =>
    rcases List.mem_cons.mp hb with rfl | hb
    · exact ⟨_, List.mem_cons_self .., hab⟩
    · obtain ⟨a, ha, hR⟩ := ih hb
      exact ⟨a, List.mem_cons_of_mem _ ha, hR⟩

/-- Everything on the left has its partner on the right. -/
lemma exists_of_forall₂' {α β : Type} {R : α → β → Prop} {l : List α} {l' : List β}
    (h : List.Forall₂ R l l') {a : α} (ha : a ∈ l) : ∃ b ∈ l', R a b :=
  exists_of_forall₂ (List.Forall₂.flip h) ha

/-- Two alignments in a row. -/
lemma forall₂_comp {α β γ : Type} {R : α → β → Prop} {S : β → γ → Prop} {T : α → γ → Prop}
    (hRS : ∀ a b c, R a b → S b c → T a c) {l : List α} {l' : List β} {l'' : List γ}
    (h : List.Forall₂ R l l') (h' : List.Forall₂ S l' l'') : List.Forall₂ T l l'' := by
  induction h generalizing l'' with
  | nil =>
    cases h'
    exact .nil
  | cons hab _ ih =>
    obtain _ | ⟨hbc, h'⟩ := h'
    exact .cons (hRS _ _ _ hab hbc) (ih h')

/-- A search through a list that succeeds everywhere gives an aligned list. -/
lemma mapM_eq_some_iff {α β : Type} {f : α → Option β} {l : List α} {l' : List β} :
    l.mapM f = some l' ↔ List.Forall₂ (fun a b => f a = some b) l l' := by
  induction l generalizing l' with
  | nil => simp [eq_comm]
  | cons a l ih =>
    rw [List.mapM_cons]
    constructor
    · intro h
      simp only [bind, Option.bind_eq_some_iff, pure, Option.some.injEq] at h
      obtain ⟨b, hb, bs, hbs, rfl⟩ := h
      exact .cons hb (ih.mp hbs)
    · rintro (_ | ⟨hb, hbs⟩)
      rw [hb, ih.mpr hbs]
      rfl

/-- The same for a search that may fail with an error. -/
lemma mapM_eq_ok_iff {ε α β : Type} {f : α → Except ε β} {l : List α} {l' : List β} :
    l.mapM f = .ok l' ↔ List.Forall₂ (fun a b => f a = .ok b) l l' := by
  induction l generalizing l' with
  | nil => simp [pure, Except.pure, eq_comm]
  | cons a l ih =>
    rw [List.mapM_cons]
    constructor
    · intro h
      cases hb : f a with
      | error e =>
        rw [hb] at h
        cases h
      | ok b =>
        rw [hb] at h
        cases hbs : l.mapM f with
        | error e =>
          rw [hbs] at h
          cases h
        | ok bs =>
          rw [hbs] at h
          cases h
          exact .cons hb (ih.mp hbs)
    · rintro (_ | ⟨hb, hbs⟩)
      rw [hb, ih.mpr hbs]
      rfl

lemma mapM_eq_none_iff {α β : Type} {f : α → Option β} {l : List α} :
    l.mapM f = none ↔ ∃ a ∈ l, f a = none := by
  induction l with
  | nil => simp
  | cons a l ih =>
    rw [List.mapM_cons]
    cases hb : f a with
    | none => simp [hb]
    | some b => cases hbs : l.mapM f <;> simp_all

end Libusbgx
