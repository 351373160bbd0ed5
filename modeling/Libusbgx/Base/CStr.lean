import Mathlib.Data.Char
import Mathlib.Data.List.Lex
import Mathlib.Tactic.Common

/-!
# C strings

A C string is the list of its characters without the terminating NUL.  The order of `strcmp`
is the lexicographic order on such lists, which Lean's `<` on `List Char` is.  The file has
the two searches `strchr` and `strrchr` in the form in which code uses them, as a cut of the
string at the first or at the last occurrence of a character.
-/

namespace Libusbgx

/-- A string of characters; the terminating NUL is not part of it. -/
abbrev CStr : Type := List Char

instance : LawfulBEq CStr := inferInstance

/-- The string that starts at a buffer: it stops at the first NUL. -/
def ofBuffer (buf : CStr) : CStr := buf.takeWhile (· ≠ '\x00')

/-- The part of a string before its first newline. -/
def untilNewline (s : CStr) : CStr := s.takeWhile (· ≠ '\n')

/-- `strcmp`; only the sign of its result means something. -/
def strcmp : CStr → CStr → ℤ
  | [], [] => 0
  | [], _ :: _ => -1
  | _ :: _, [] => 1
  | a :: s, b :: t => if a = b then strcmp s t else (a.toNat : ℤ) - b.toNat

/-- `strchr`: the parts before and after the first occurrence of `c`. -/
def cutFirst (c : Char) : CStr → Option (CStr × CStr)
  | [] => none
  | a :: s => if a = c then some ([], s) else (cutFirst c s).map fun pq => (a :: pq.1, pq.2)

/-- `strrchr`: the parts before and after the last occurrence of `c`. -/
def cutLast (c : Char) : CStr → Option (CStr × CStr)
  | [] => none
  | a :: s =>
    match cutLast c s with
    | some pq => some (a :: pq.1, pq.2)
    | none => if a = c then some ([], s) else none

/-! ## Comparison -/

/-- `strcmp` compares in the order of strings. -/
lemma strcmp_neg_iff {s t : CStr} : strcmp s t < 0 ↔ s < t := by
  induction s generalizing t with
  | nil => cases t <;> simp [strcmp]
  | cons a s ih =>
    cases t with
    | nil => simp [strcmp]
    | cons b t =>
      rw [strcmp, List.cons_lt_cons_iff]
      by_cases hab : a = b
      · simp [hab, ih]
      · have hlt : (a.toNat : ℤ) - b.toNat < 0 ↔ a < b := by
          have hchar : a < b ↔ a.toNat < b.toNat := Iff.rfl
          rw [hchar]
          omega
        simp [hab, hlt]

lemma strcmp_swap (s t : CStr) : strcmp t s = - strcmp s t := by
  induction s generalizing t with
  | nil => cases t <;> simp [strcmp]
  | cons a s ih =>
    cases t with
    | nil => simp [strcmp]
    | cons b t =>
      rw [strcmp, strcmp]
      by_cases hab : a = b
      · simp [hab, ih]
      · rw [if_neg hab, if_neg (Ne.symm hab)]
        omega

lemma strcmp_pos_iff {s t : CStr} : 0 < strcmp s t ↔ t < s := by
  rw [← strcmp_neg_iff, strcmp_swap]
  omega

lemma strcmp_nonpos_iff {s t : CStr} : strcmp s t ≤ 0 ↔ s ≤ t := by
  rw [← Int.not_lt, strcmp_pos_iff, not_lt]

/-! ## Cuts -/

variable {c : Char} {s p q : CStr}

lemma cutFirst_eq_some : cutFirst c s = some (p, q) ↔ s = p ++ c :: q ∧ c ∉ p := by
  induction s generalizing p with
  | nil => simp [cutFirst]
  | cons a s ih =>
    rw [cutFirst]
    by_cases hac : a = c
    · subst hac
      simp only [if_true, Option.some.injEq, Prod.mk.injEq]
      constructor
      · rintro ⟨rfl, rfl⟩
        simp
      · rintro ⟨h, hp⟩
        cases p with
        | nil => simpa using h
        | cons b p =>
          simp only [List.cons_append, List.cons.injEq] at h
          exact absurd (by simp [h.1]) hp
    · simp only [if_neg hac, Option.map_eq_some_iff, Prod.mk.injEq, Prod.exists]
      constructor
      · rintro ⟨p', q', h, rfl, rfl⟩
        obtain ⟨rfl, hp⟩ := ih.mp h
        exact ⟨rfl, by simp [hp, Ne.symm hac]⟩
      · rintro ⟨h, hp⟩
        cases p with
        | nil =>
          simp only [List.nil_append, List.cons.injEq] at h
          exact absurd h.1 hac
        | cons b p =>
          simp only [List.cons_append, List.cons.injEq] at h
          obtain ⟨rfl, rfl⟩ := h
          exact ⟨p, q, ih.mpr ⟨rfl, fun hc => hp (by simp [hc])⟩, rfl, rfl⟩

lemma cutFirst_append (h : c ∉ p) : cutFirst c (p ++ c :: q) = some (p, q) :=
  cutFirst_eq_some.mpr ⟨rfl, h⟩

lemma cutLast_eq_none : cutLast c s = none ↔ c ∉ s := by
  induction s with
  | nil => simp [cutLast]
  | cons a s ih =>
    rw [cutLast]
    cases h : cutLast c s with
    | none =>
      by_cases hac : a = c
      · simp [hac]
      · simp [if_neg hac, ih.mp h, Ne.symm hac]
    | some pq =>
      have hne : cutLast c s ≠ none := by simp [h]
      have : c ∈ s := by
        by_contra hc
        exact hne (ih.mpr hc)
      simp [this]

lemma cutLast_eq_some : cutLast c s = some (p, q) ↔ s = p ++ c :: q ∧ c ∉ q := by
  induction s generalizing p q with
  | nil => simp [cutLast]
  | cons a s ih =>
    rw [cutLast]
    -- the character is cut off here only if it does not come again
    cases h : cutLast c s with
    | none =>
      have hs : c ∉ s := cutLast_eq_none.mp h
      by_cases hac : a = c
      · subst hac
        simp only [if_true, Option.some.injEq, Prod.mk.injEq]
        constructor
        · rintro ⟨rfl, rfl⟩
          exact ⟨rfl, hs⟩
        · rintro ⟨heq, -⟩
          cases p with
          | nil => simpa using heq
          | cons b p =>
            simp only [List.cons_append, List.cons.injEq] at heq
            exact absurd (by rw [heq.2]; simp) hs
      · simp only [if_neg hac, reduceCtorEq, false_iff, not_and]
        intro heq
        cases p with
        | nil =>
          simp only [List.nil_append, List.cons.injEq] at heq
          exact absurd heq.1 hac
        | cons b p =>
          simp only [List.cons_append, List.cons.injEq] at heq
          exact absurd (by rw [heq.2]; simp) hs
    | some pq =>
      obtain ⟨p', q'⟩ := pq
      obtain ⟨rfl, hq'⟩ := ih.mp h
      simp only [Option.some.injEq, Prod.mk.injEq]
      constructor
      · rintro ⟨rfl, rfl⟩
        exact ⟨rfl, hq'⟩
      · rintro ⟨heq, hq⟩
        cases p with
        | nil =>
          simp only [List.nil_append, List.cons.injEq] at heq
          exact absurd (by rw [← heq.2]; simp) hq
        | cons b p =>
          simp only [List.cons_append, List.cons.injEq] at heq
          have := ih.mpr ⟨heq.2, hq⟩
          rw [h] at this
          simp only [Option.some.injEq, Prod.mk.injEq] at this
          exact ⟨by rw [heq.1, this.1], this.2⟩

lemma cutLast_append (h : c ∉ q) : cutLast c (p ++ c :: q) = some (p, q) :=
  cutLast_eq_some.mpr ⟨rfl, h⟩

end Libusbgx
