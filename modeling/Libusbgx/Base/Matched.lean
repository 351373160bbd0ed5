import Mathlib.Logic.Function.Basic
import Mathlib.Tactic.Common

/-!
# Links kept at both ends

Two kinds of things are linked in pairs, and each end remembers the other: `f a` is the end
that `a` remembers, `g b` the one that `b` remembers.  The memories are `Matched` when they
agree.  The lemmas are about the updates that keep them so.
-/

namespace Libusbgx

variable {α β : Type}

/-- The two ends of every link remember each other. -/
def Matched (f : α → Option β) (g : β → Option α) : Prop := ∀ a b, f a = some b ↔ g b = some a

namespace Matched

variable {f : α → Option β} {g : β → Option α} {a : α} {b : β}

section Updates

variable [DecidableEq α] [DecidableEq β]

/-- Forgetting a link at both ends. -/
lemma unlink (h : Matched f g) (hab : f a = some b) :
    Matched (Function.update f a none) (Function.update g b none) := by
  intro x y
  by_cases hx : x = a
  · subst hx
    rw [Function.update_self]
    by_cases hy : y = b
    · subst hy
      rw [Function.update_self]
      simp
    · rw [Function.update_of_ne hy]
      constructor
      · simp
      · intro hg
        have := (h x y).mpr hg
        rw [hab] at this
        exact absurd (Option.some.inj this).symm hy
  · rw [Function.update_of_ne hx]
    by_cases hy : y = b
    · subst hy
      rw [Function.update_self]
      constructor
      · intro hf
        have h₁ := (h x y).mp hf
        have h₂ := (h a y).mp hab
        rw [h₁] at h₂
        exact absurd (Option.some.inj h₂) hx
      · simp
    · rw [Function.update_of_ne hy]
      exact h x y

/-- Linking two things that were free. -/
lemma link (h : Matched f g) (ha : f a = none) (hb : g b = none) :
    Matched (Function.update f a (some b)) (Function.update g b (some a)) := by
  intro x y
  by_cases hx : x = a
  · subst hx
    rw [Function.update_self]
    by_cases hy : y = b
    · subst hy
      rw [Function.update_self]
      simp
    · rw [Function.update_of_ne hy]
      constructor
      · intro he
        exact absurd (Option.some.inj he).symm hy
      · intro hg
        have := (h x y).mpr hg
        rw [ha] at this
        simp at this
  · rw [Function.update_of_ne hx]
    by_cases hy : y = b
    · subst hy
      rw [Function.update_self]
      constructor
      · intro hf
        have := (h x y).mp hf
        rw [hb] at this
        simp at this
      · intro he
        exact absurd (Option.some.inj he).symm hx
    · rw [Function.update_of_ne hy]
      exact h x y

end Updates

end Matched

/-- Links that were made one after the other, where a later link to the same `b` takes its place
at `b` but is not taken off the earlier `a`. -/
structure LastLinked (f : α → Option β) (g : β → Option α) : Prop where
  back : ∀ a b, g b = some a → f a = some b
  taken : ∀ a b, f a = some b → g b ≠ none

namespace LastLinked

variable {f : α → Option β} {g : β → Option α} {a : α} {b : β}

/-- The next link. -/
lemma link [DecidableEq α] [DecidableEq β] (h : LastLinked f g) (ha : f a = none) :
    LastLinked (Function.update f a (some b)) (Function.update g b (some a)) where
  back x y hy := by
    by_cases hyb : y = b
    · subst hyb
      rw [Function.update_self] at hy
      rw [← Option.some.inj hy, Function.update_self]
    · rw [Function.update_of_ne hyb] at hy
      have hx : x ≠ a := by
        rintro rfl
        rw [h.back x y hy] at ha
        simp at ha
      rw [Function.update_of_ne hx]
      exact h.back x y hy
  taken x y hx := by
    by_cases hyb : y = b
    · rw [hyb, Function.update_self]
      simp
    · rw [Function.update_of_ne hyb]
      by_cases hxa : x = a
      · subst hxa
        rw [Function.update_self] at hx
        exact absurd (Option.some.inj hx).symm hyb
      · rw [Function.update_of_ne hxa] at hx
        exact h.taken x y hx

/-- When no two things were linked to the same end, none was left behind. -/
lemma matched (h : LastLinked f g) (hinj : ∀ a a' b, f a = some b → f a' = some b → a = a') :
    Matched f g := by
  intro a b
  refine ⟨fun hf => ?_, h.back a b⟩
  obtain ⟨a', ha'⟩ := Option.ne_none_iff_exists'.mp (h.taken a b hf)
  rw [ha', hinj a a' b hf (h.back a' b ha')]

end LastLinked

end Libusbgx
