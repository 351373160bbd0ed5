import Mathlib.Data.List.Forall2
import Mathlib.Data.List.Pairwise
import Mathlib.Data.List.Sort
import Mathlib.Tactic.Common

/-!
# Insertion into a sorted list

Insertion as it is written for linked lists whose ends are at hand: at the front if the new
key is below the first, at the back if it is above the last, and otherwise before the first
element whose key is not below the new one.
-/

namespace Libusbgx

variable {α κ : Type} [LinearOrder κ] (key : α → κ)

/-- Insert before the first element whose key is not below that of `x`; without such an
element nothing is inserted. -/
def insertBefore (x : α) : List α → List α
  | [] => []
  | y :: ys => if key y < key x then y :: insertBefore x ys else x :: y :: ys

/-- Insert into a list sorted by `key`. -/
def insertSorted (x : α) (l : List α) : List α :=
  match l with
  | [] => [x]
  | y :: ys =>
    if key x < key y then x :: y :: ys
    else if key ((y :: ys).getLast (List.cons_ne_nil y ys)) < key x then (y :: ys) ++ [x]
    else insertBefore key x (y :: ys)

variable {key} {x : α} {l : List α}

/-- The new element comes between two parts of the list. -/
lemma insertBefore_split (h : ∃ y ∈ l, key x ≤ key y) :
    ∃ l₁ l₂, l = l₁ ++ l₂ ∧ insertBefore key x l = l₁ ++ x :: l₂ := by
  induction l with
  | nil =>
    obtain ⟨y, hy, -⟩ := h
    exact absurd hy List.not_mem_nil
  | cons y ys ih =>
    rw [insertBefore]
    by_cases hy : key y < key x
    · rw [if_pos hy]
      obtain ⟨z, hz, hxz⟩ := h
      rcases List.mem_cons.mp hz with rfl | hz
      · exact absurd hy (not_lt.mpr hxz)
      · obtain ⟨l₁, l₂, rfl, heq⟩ := ih ⟨z, hz, hxz⟩
        exact ⟨y :: l₁, l₂, rfl, congrArg (y :: ·) heq⟩
    · rw [if_neg hy]
      exact ⟨[], y :: ys, rfl, rfl⟩

/-- So it does wherever it is inserted, whether the list is sorted or not. -/
lemma insertSorted_split (key : α → κ) (x : α) (l : List α) :
    ∃ l₁ l₂, l = l₁ ++ l₂ ∧ insertSorted key x l = l₁ ++ x :: l₂ := by
  cases l with
  | nil => exact ⟨[], [], rfl, rfl⟩
  | cons y ys =>
    rw [insertSorted]
    by_cases h₁ : key x < key y
    · rw [if_pos h₁]
      exact ⟨[], y :: ys, rfl, rfl⟩
    · rw [if_neg h₁]
      by_cases h₂ : key ((y :: ys).getLast (List.cons_ne_nil y ys)) < key x
      · rw [if_pos h₂]
        exact ⟨y :: ys, [], (List.append_nil _).symm, rfl⟩
      · rw [if_neg h₂]
        -- the last element is one before which there is room
        exact insertBefore_split ⟨_, List.getLast_mem _, not_lt.mp h₂⟩

/-- Nothing is lost and nothing but `x` is added. -/
lemma insertSorted_perm : (insertSorted key x l).Perm (x :: l) := by
  obtain ⟨l₁, l₂, rfl, heq⟩ := insertSorted_split key x l
  rw [heq]
  exact List.perm_middle

/-- The order of the others stays. -/
lemma sublist_insertSorted : l.Sublist (insertSorted key x l) := by
  obtain ⟨l₁, l₂, rfl, heq⟩ := insertSorted_split key x l
  rw [heq]
  exact (List.Sublist.refl l₁).append (List.sublist_cons_self x l₂)

@[simp] lemma mem_insertSorted {z : α} : z ∈ insertSorted key x l ↔ z = x ∨ z ∈ l := by
  rw [insertSorted_perm.mem_iff, List.mem_cons]

lemma insertBefore_pairwise (h : l.Pairwise (key · ≤ key ·)) (hy : ∃ y ∈ l, key x ≤ key y) :
    (insertBefore key x l).Pairwise (key · ≤ key ·) := by
  induction l with
  | nil => exact List.Pairwise.nil
  | cons y ys ih =>
    rw [insertBefore]
    have h' := List.pairwise_cons.mp h
    by_cases hlt : key y < key x
    · rw [if_pos hlt]
      have hys : ∃ z ∈ ys, key x ≤ key z := by
        obtain ⟨z, hz, hxz⟩ := hy
        rcases List.mem_cons.mp hz with rfl | hz
        · exact absurd hlt (not_lt.mpr hxz)
        · exact ⟨z, hz, hxz⟩
      refine List.pairwise_cons.mpr ⟨fun z hz => ?_, ih h'.2 hys⟩
      obtain ⟨l₁, l₂, rfl, heq⟩ := insertBefore_split hys
      rw [heq, List.perm_middle.mem_iff] at hz
      rcases List.mem_cons.mp hz with rfl | hz
      · exact le_of_lt hlt
      · exact h'.1 z hz
    · rw [if_neg hlt]
      refine List.pairwise_cons.mpr ⟨fun z hz => ?_, h⟩
      rcases List.mem_cons.mp hz with rfl | hz
      · exact not_lt.mp hlt
      · exact le_trans (not_lt.mp hlt) (h'.1 z hz)

/-- Sorted lists stay sorted. -/
lemma insertSorted_pairwise (h : l.Pairwise (key · ≤ key ·)) :
    (insertSorted key x l).Pairwise (key · ≤ key ·) := by
  cases l with
  | nil => exact List.pairwise_singleton _ _
  | cons y ys =>
    have h' := List.pairwise_cons.mp h
    rw [insertSorted]
    by_cases h₁ : key x < key y
    · rw [if_pos h₁]
      refine List.pairwise_cons.mpr ⟨fun z hz => ?_, h⟩
      rcases List.mem_cons.mp hz with rfl | hz
      · exact le_of_lt h₁
      · exact le_trans (le_of_lt h₁) (h'.1 z hz)
    · rw [if_neg h₁]
      by_cases h₂ : key ((y :: ys).getLast (List.cons_ne_nil y ys)) < key x
      · rw [if_pos h₂]
        refine List.pairwise_append.mpr ⟨h, List.pairwise_singleton _ _, fun z hz w hw => ?_⟩
        rw [List.mem_singleton.mp hw]
        have : Std.Refl fun a b : α => key a ≤ key b := ⟨fun _ => le_refl _⟩
        exact le_trans (h.rel_getLast hz) (le_of_lt h₂)
      · rw [if_neg h₂]
        exact insertBefore_pairwise h ⟨_, List.getLast_mem _, not_lt.mp h₂⟩

/-! ### Lists in order -/

/-- Two lists with the same keys in increasing order go along with each other. -/
lemma forall₂_of_keys {β : Type} {key : α → κ} {key' : β → κ} {R : α → β → Prop} {l : List α} {l' : List β}
    (h : (l.map key).Pairwise (· < ·)) (h' : (l'.map key').Pairwise (· < ·))
    (hl : ∀ a ∈ l, ∃ b ∈ l', key' b = key a) (hl' : ∀ b ∈ l', ∃ a ∈ l, key a = key' b)
    (hR : ∀ a ∈ l, ∀ b ∈ l', key' b = key a → R a b) : List.Forall₂ R l l' := by
  have hkeys : l'.map key' = l.map key := by
    have hperm : (l'.map key').Perm (l.map key) := by
      refine (List.perm_ext_iff_of_nodup (h'.imp ne_of_lt) (h.imp ne_of_lt)).mpr fun k => ?_
      constructor
      · intro hk
        obtain ⟨b, hb, rfl⟩ := List.mem_map.mp hk
        obtain ⟨a, ha, hab⟩ := hl' b hb
        exact List.mem_map.mpr ⟨a, ha, hab⟩
      · intro hk
        obtain ⟨a, ha, rfl⟩ := List.mem_map.mp hk
        obtain ⟨b, hb, hab⟩ := hl a ha
        exact List.mem_map.mpr ⟨b, hb, hab⟩
    exact hperm.eq_of_pairwise (fun _ _ _ _ hab hba => absurd hab (lt_asymm hba)) h' h
  have hall : List.Forall₂ (fun a b => key' b = key a) l l' := by
    have hsame : List.Forall₂ (fun k k' => k' = k) (l.map key) (l'.map key') := by
      rw [hkeys]
      exact List.forall₂_same.mpr fun _ _ => rfl
    exact List.forall₂_map_right_iff.mp (List.forall₂_map_left_iff.mp hsame)
  refine List.forall₂_iff_zip.mpr ⟨hall.length_eq, fun hab => ?_⟩
  obtain ⟨ha, hb⟩ := List.of_mem_zip hab
  exact hR _ ha _ hb ((List.forall₂_iff_zip.mp hall).2 hab)
end Libusbgx
