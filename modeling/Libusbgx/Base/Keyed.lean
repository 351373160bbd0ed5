import Mathlib.Data.List.Nodup
import Mathlib.Data.List.Perm.Basic
import Mathlib.Logic.Function.Basic
import Mathlib.Tactic.Common

/-!
# Lists with keys

A linked list of records that are found by a key.  The lemmas say what an update, a removal
and an insertion do to the element found under a key; in all of them the list may be in any
order.
-/

namespace Libusbgx

variable {α β : Type} (key : α → β)

/-- Every key belongs to at most one element. -/
def KeysNodup (l : List α) : Prop := (l.map key).Nodup

instance [DecidableEq β] (l : List α) : Decidable (KeysNodup key l) :=
  inferInstanceAs (Decidable (l.map key).Nodup)

variable {key} {l l' : List α} {b : β} {x : α}

lemma KeysNodup.eq (hl : KeysNodup key l) {y : α} (hx : x ∈ l) (hy : y ∈ l) (h : key x = key y) :
    x = y :=
  List.inj_on_of_nodup_map hl hx hy h

lemma KeysNodup.perm (hl : KeysNodup key l) (h : l'.Perm l) : KeysNodup key l' :=
  (h.map key).nodup_iff.mpr hl

lemma KeysNodup.filter (hl : KeysNodup key l) (p : α → Bool) : KeysNodup key (l.filter p) :=
  hl.sublist (List.filter_sublist.map key)

lemma KeysNodup.cons (hl : KeysNodup key l) (hx : ∀ y ∈ l, key y ≠ key x) :
    KeysNodup key (x :: l) := by
  refine List.nodup_cons.mpr ⟨?_, hl⟩
  intro h
  obtain ⟨y, hy, he⟩ := List.mem_map.mp h
  exact hx y hy he

lemma KeysNodup.map {f : α → α} (hl : KeysNodup key l) (hf : ∀ x, key (f x) = key x) :
    KeysNodup key (l.map f) := by
  have : (l.map f).map key = l.map key := by
    rw [List.map_map]
    exact List.map_congr_left fun x _ => hf x
  rw [KeysNodup, this]
  exact hl

/-- An element does not have a key of those before it. -/
lemma KeysNodup.ne_of_prefix (hl : KeysNodup key l) (h : l' ++ [x] <+: l) : ∀ y ∈ l', key y ≠ key x := by
  intro y hy heq
  have hsub : KeysNodup key (l' ++ [x]) := List.Nodup.sublist (h.sublist.map key) hl
  rw [KeysNodup, List.map_append, List.nodup_append] at hsub
  exact hsub.2.2 (key y) (List.mem_map_of_mem hy) (key x) (by simp) heq

/-! ### What is found under a key -/

variable [DecidableEq β]

lemma find?_key_mem (h : l.find? (fun x => key x = b) = some x) : x ∈ l :=
  List.mem_of_find?_eq_some h

lemma find?_key_key (h : l.find? (fun x => key x = b) = some x) : key x = b := by
  simpa using List.find?_some h

lemma find?_key_eq_none : l.find? (fun x => key x = b) = none ↔ ∀ x ∈ l, key x ≠ b := by
  simp [List.find?_eq_none]

lemma find?_key_isSome (h : ∃ x ∈ l, key x = b) : ∃ x, l.find? (fun x => key x = b) = some x := by
  obtain ⟨x, hx, hb⟩ := h
  cases h : l.find? (fun x => key x = b) with
  | some y => exact ⟨y, rfl⟩
  | none => exact absurd hb (find?_key_eq_none.mp h x hx)

/-- Among distinct keys, the element found is the element that is there. -/
lemma find?_key_eq_some (hl : KeysNodup key l) :
    l.find? (fun x => key x = b) = some x ↔ x ∈ l ∧ key x = b := by
  refine ⟨fun h => ⟨find?_key_mem h, find?_key_key h⟩, ?_⟩
  rintro ⟨hx, rfl⟩
  obtain ⟨y, hy⟩ : ∃ y, l.find? (fun y => key y = key x) = some y :=
    find?_key_isSome ⟨x, hx, rfl⟩
  rw [hy, hl.eq (find?_key_mem hy) hx (find?_key_key hy)]

lemma find?_key_perm (hl : KeysNodup key l) (h : l'.Perm l) (b : β) :
    l'.find? (fun x => key x = b) = l.find? (fun x => key x = b) := by
  ext x
  rw [find?_key_eq_some (hl.perm h), find?_key_eq_some hl, h.mem_iff]

/-- An update that leaves the keys alone updates the element found. -/
lemma find?_key_map {f : α → α} (hf : ∀ x, key (f x) = key x) (l : List α) (b : β) :
    (l.map f).find? (fun x => key x = b) = (l.find? (fun x => key x = b)).map f := by
  induction l with
  | nil => rfl
  | cons y ys ih =>
    rw [List.map_cons, List.find?_cons, List.find?_cons, hf]
    by_cases h : key y = b
    · simp [h]
    · simp [h, ih]

lemma find?_key_filter_ne (l : List α) (a b : β) :
    (l.filter fun x => key x ≠ a).find? (fun x => key x = b) =
      if b = a then none else l.find? (fun x => key x = b) := by
  induction l with
  | nil => simp
  | cons y ys ih =>
    by_cases hy : key y = a
    · rw [List.filter_cons_of_neg (by simpa using hy), ih]
      by_cases hb : b = a
      · simp [hb]
      · rw [if_neg hb, if_neg hb, List.find?_cons_of_neg]
        simpa using fun h => hb (by rw [← h, hy])
    · rw [List.filter_cons_of_pos (by simpa using hy), List.find?_cons, List.find?_cons, ih]
      by_cases hyb : key y = b
      · have hba : b ≠ a := fun h => hy (hyb.trans h)
        simp [hyb, hba]
      · simp [hyb]

/-- Overwriting the element with a key and taking it out is taking it out. -/
lemma filter_key_replace (l : List α) (hx : key x = b) :
    (l.map fun y => if key y = b then x else y).filter (fun y => key y ≠ b) = l.filter fun y => key y ≠ b := by
  induction l with
  | nil => rfl
  | cons y ys ih =>
    rw [List.map_cons]
    by_cases hy : key y = b
    · rw [if_pos hy, List.filter_cons_of_neg (by simpa using hx), List.filter_cons_of_neg (by simpa using hy), ih]
    · rw [if_neg hy, List.filter_cons_of_pos (by simpa using hy), List.filter_cons_of_pos (by simpa using hy), ih]

lemma find?_key_cons (x : α) (l : List α) (b : β) :
    (x :: l).find? (fun x => key x = b) =
      if key x = b then some x else l.find? (fun x => key x = b) := by
  rw [List.find?_cons]
  by_cases h : key x = b <;> simp [h]

end Libusbgx
