import Libusbgx.Source.Create

/-!
# The lists of the library

The constructors put a new object into its list with `INSERT_TAILQ_STRING_ORDER`, which compares names with
`strcmp`.  The macro is the insertion into a sorted list, and it keeps the lists in the order in which the
directories are read.
-/

namespace Libusbgx

variable {α : Type} {nameField : α → CStr} {toInsert : α} {l : List α}

/-- The names go up in the order of `strcmp`. -/
def InStringOrder (nameField : α → CStr) (l : List α) : Prop :=
  l.Pairwise fun a b => strcmp (nameField a) (nameField b) ≤ 0

lemma inStringOrder_iff : InStringOrder nameField l ↔ l.Pairwise (nameField · ≤ nameField ·) := by
  rw [InStringOrder]
  simp only [strcmp_nonpos_iff]

/-! ## The macro -/

lemma insertBeforeInStringOrder_eq :
    insertBeforeInStringOrder nameField toInsert l = insertBefore nameField toInsert l := by
  induction l with
  | nil => rfl
  | cons cur l ih =>
    rw [insertBeforeInStringOrder, insertBefore]
    by_cases h : nameField cur < nameField toInsert
    · rw [if_pos (strcmp_pos_iff.mpr h), if_pos h, ih]
    · rw [if_neg (fun hpos => h (strcmp_pos_iff.mp hpos)), if_neg h]

/-- The macro is the insertion that the constructors use. -/
lemma insertTailqStringOrder_eq : insertTailqStringOrder nameField toInsert l = insertSorted nameField toInsert l := by
  cases l with
  | nil => rfl
  | cons first l =>
    rw [insertTailqStringOrder, insertSorted]
    by_cases hfirst : nameField toInsert < nameField first
    · rw [if_pos (strcmp_neg_iff.mpr hfirst), if_pos hfirst]
    rw [if_neg (fun hneg => hfirst (strcmp_neg_iff.mp hneg)), if_neg hfirst]
    by_cases hlast : nameField ((first :: l).getLast (List.cons_ne_nil first l)) < nameField toInsert
    · rw [if_pos (strcmp_pos_iff.mpr hlast), if_pos hlast]
    · rw [if_neg (fun hpos => hlast (strcmp_pos_iff.mp hpos)), if_neg hlast, insertBeforeInStringOrder_eq]

/-- A list in the order of strings stays in it, nothing is lost, only the new element is added, and the others keep
their order. -/
theorem insertTailqStringOrder_inOrder (nameField : α → CStr) (toInsert : α) (l : List α)
    (h : InStringOrder nameField l) :
    InStringOrder nameField (insertTailqStringOrder nameField toInsert l) ∧
      (insertTailqStringOrder nameField toInsert l).Perm (toInsert :: l) ∧
      l.Sublist (insertTailqStringOrder nameField toInsert l) ∧
      ∃ l₁ l₂, l = l₁ ++ l₂ ∧ insertTailqStringOrder nameField toInsert l = l₁ ++ toInsert :: l₂ := by
  rw [insertTailqStringOrder_eq, inStringOrder_iff]
  exact ⟨insertSorted_pairwise (inStringOrder_iff.mp h), insertSorted_perm, sublist_insertSorted,
    insertSorted_split nameField toInsert l⟩

/-- A name that is there already. -/
theorem insertTailqStringOrder_twice :
    InStringOrder Prod.fst (insertTailqStringOrder Prod.fst ("b".toList, 3)
        [("a".toList, 0), ("b".toList, 1), ("c".toList, 2)]) ∧
      (insertTailqStringOrder Prod.fst ("b".toList, 3) [("a".toList, 0), ("b".toList, 1), ("c".toList, 2)]).Perm
        [("b".toList, 3), ("a".toList, 0), ("b".toList, 1), ("c".toList, 2)] ∧
      [("a".toList, 0), ("b".toList, 1), ("c".toList, 2)].Sublist (insertTailqStringOrder Prod.fst ("b".toList, 3)
        [("a".toList, 0), ("b".toList, 1), ("c".toList, 2)]) ∧
      ∃ l₁ l₂, [("a".toList, 0), ("b".toList, 1), ("c".toList, 2)] = l₁ ++ l₂ ∧
        insertTailqStringOrder Prod.fst ("b".toList, 3) [("a".toList, 0), ("b".toList, 1), ("c".toList, 2)] =
          l₁ ++ ("b".toList, 3) :: l₂ :=
  insertTailqStringOrder_inOrder Prod.fst ("b".toList, 3) [("a".toList, 0), ("b".toList, 1), ("c".toList, 2)] (by
    simp [InStringOrder, strcmp])

end Libusbgx
