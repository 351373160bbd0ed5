import Libusbgx.Names
import Libusbgx.Source.Label
import Mathlib.Data.List.Find

/-!
# Which function a label stands for

A label that no function was given by the user stands for the function whose type and instance
it spells.  `usbg_lookup_function` cuts the label at its first `_`, and finds that function
unless the name of the type has a `_` itself; of a label without any `_` it makes nothing at all.
-/

namespace Libusbgx

open Prog

/-- The function a label stands for. -/
def resolveLabel (g : Gadget) (label : CStr) : Option Func :=
  (g.functions.find? (·.label = some label)).or
    (g.functions.find? (generateFunctionLabel · = label))

/-- `usbg_lookup_function` returns the function the label stands for, and does nothing else. -/
def LookupRight (g : Gadget) (label : CStr) : Prop :=
  ∀ (κ : Type) (w : World κ), usbgLookupFunction g label w = (.ok (resolveLabel g label), w)

/-- The part of a label before its first `_`, of which `rest` follows, is counted in an `int`
without getting lost: it is short, or what the `int` leaves of it names no function. -/
def PrefixCounted (g : Gadget) (label pre rest : CStr) : Prop :=
  pre.length < 2 ^ 31 ∨ 0 ≤ toInt pre.length ∧
    ∀ f ∈ g.functions, f.inst = rest → f.type.name ≠ label.take (toInt pre.length).toNat

/-- The label was given to a function by the user, or it has a `_` after a part that can be
counted and does not spell a mass storage function of the gadget. -/
def LabelFound (g : Gadget) (label : CStr) : Prop :=
  (∃ f ∈ g.functions, f.label = some label) ∨
  ∃ pre rest, cutFirst '_' label = some (pre, rest) ∧ PrefixCounted g label pre rest ∧
    ∀ f ∈ g.functions, f.type = .massStorage → generateFunctionLabel f ≠ label

variable {g : Gadget} {label pre rest : CStr} {f : Func}

/-- Mass storage is the only type whose name has a `_`. -/
lemma underscore_mem_name {t : FunctionType} : '_' ∈ t.name ↔ t = .massStorage := by
  cases t <;> decide

lemma length_name_lt (t : FunctionType) : t.name.length < usbgMaxNameLength := by
  cases t <;> decide

lemma name_ne_nil (t : FunctionType) : t.name ≠ [] := by
  cases t <;> decide

/-- A label that spells a function of another type is cut between the type and the instance. -/
lemma cutFirst_generateFunctionLabel (hf : f.type ≠ .massStorage) :
    cutFirst '_' (generateFunctionLabel f) = some (f.type.name, f.inst) :=
  cutFirst_append fun h => hf (underscore_mem_name.mp h)

lemma name_massStorage :
    FunctionType.massStorage.name = "mass".toList ++ '_' :: "storage".toList := by
  decide

/-- The first `_` of a label that spells a function is in the name of its type, or behind it. -/
lemma length_pre_lt (hcut : cutFirst '_' label = some (pre, rest))
    (hf : generateFunctionLabel f = label) : pre.length < usbgMaxNameLength := by
  by_cases ht : f.type = .massStorage
  · rw [← hf, generateFunctionLabel, ht, name_massStorage, List.append_assoc, List.cons_append,
      cutFirst_append (by decide)] at hcut
    obtain ⟨rfl, -⟩ := Prod.mk.inj (Option.some.inj hcut)
    decide
  · rw [← hf, cutFirst_generateFunctionLabel ht] at hcut
    obtain ⟨rfl, -⟩ := Prod.mk.inj (Option.some.inj hcut)
    exact length_name_lt _

lemma toInt_natCast {n : ℕ} (h : n < 2 ^ 31) : toInt n = n := by
  rw [toInt, Int.bmod_eq_of_le (by omega) (by omega)]

/-- An `int` never makes a count longer. -/
lemma toNat_toInt_le (n : ℕ) : (toInt n).toNat ≤ n := by
  rw [toInt]
  have h := Int.bmod_le (x := n) (m := 2 ^ 32) (by norm_num)
  rcases lt_or_ge n (2 ^ 31) with hn | hn
  · rw [Int.bmod_eq_of_le (by omega) (by omega)]
    simp
  · omega

lemma length_pre_le (hcut : cutFirst '_' label = some (pre, rest)) : pre.length ≤ label.length := by
  rw [(cutFirst_eq_some.mp hcut).1, List.length_append]
  exact Nat.le_add_right _ _

/-- How `split_function_label` ends. -/
lemma splitFunctionLabel_eq {κ : Type} (hcut : cutFirst '_' label = some (pre, rest))
    (hn : 0 ≤ toInt pre.length) (w : World κ) :
    splitFunctionLabel label w =
      match usbgLookupFunctionType (label.take (toInt pre.length).toNat) with
      | none => (.fail .notFound, w)
      | some t => (.ok (t, rest), w) := by
  have hderef : (deref (cutFirst '_' label) : Io κ (CStr × CStr)) w = (.ok (pre, rest), w) := by
    rw [hcut]
    rfl
  have hle : (toInt pre.length).toNat ≤ label.length :=
    (toNat_toInt_le pre.length).trans (length_pre_le hcut)
  have hhead : label.head? = some '_' → (toInt pre.length).toNat = 0 := by
    intro h
    cases pre with
    | nil => exact Nat.le_zero.mp (toNat_toInt_le 0)
    | cons c pre =>
      obtain ⟨rfl, hc⟩ := cutFirst_eq_some.mp hcut
      obtain rfl : c = '_' := Option.some.inj h
      exact absurd (List.mem_cons_self ..) hc
  refine (bind_ok hderef).trans ?_
  show splitLabelAt label rest (toInt pre.length) w = _
  generalize toInt pre.length = n at hn hle hhead ⊢
  rw [splitLabelAt]
  by_cases hstop : (usbgMaxNameLength : ℤ) ≤ n ∨ label.head? = some '_'
  · -- no type has a name that is so long, or empty
    have hnone : usbgLookupFunctionType (label.take n.toNat) = none := by
      rw [Option.eq_none_iff_forall_not_mem]
      intro t ht
      have hname := usbgLookupFunctionType_eq_some.mp ht
      rcases hstop with hlong | h
      · have hlt := length_name_lt t
        rw [hname, List.length_take, min_eq_left hle] at hlt
        omega
      · rw [hhead h, List.take_zero] at hname
        exact name_ne_nil t hname
    rw [hnone, require_of_not (not_not.mpr hstop)]
    exact fail_apply _ _
  · rw [require_of hstop, pure_bind, if_neg (not_lt.mpr hn)]
    cases usbgLookupFunctionType (label.take n.toNat) with
    | none => exact fail_apply _ _
    | some t => exact pure_apply _ _

/-- The function that is found under the name of a type and an instance. -/
def functionNamed (g : Gadget) (name inst : CStr) : Option Func :=
  g.functions.find? fun f => f.type.name = name ∧ f.inst = inst

lemma functionNamed_eq (g : Gadget) (name inst : CStr) :
    (usbgLookupFunctionType name).bind (usbgGetFunction g · inst) = functionNamed g name inst := by
  rw [functionNamed]
  cases ht : usbgLookupFunctionType name with
  | none =>
    refine (List.find?_eq_none.mpr fun f _ hf => ?_).symm
    have hname : f.type.name = name := by simpa using (decide_eq_true_eq.mp hf).1
    rw [usbgLookupFunctionType_eq_some.mpr hname] at ht
    cases ht
  | some t =>
    obtain rfl := usbgLookupFunctionType_eq_some.mp ht
    rw [Option.bind_some, usbgGetFunction]
    congr 1
    funext f
    simp only [FunctionType.name_injective.eq_iff]

lemma functionNamed_eq_none {name inst : CStr} :
    functionNamed g name inst = none ↔ ∀ f ∈ g.functions, f.inst = inst → f.type.name ≠ name := by
  rw [functionNamed, List.find?_eq_none]
  refine forall₂_congr fun f _ => ?_
  rw [decide_eq_true_eq]
  tauto

/-- What `usbg_lookup_function` returns for a label with a `_` that no user has chosen. -/
lemma usbgLookupFunction_eq {κ : Type} (huser : g.functions.find? (·.label = some label) = none)
    (hcut : cutFirst '_' label = some (pre, rest)) (hn : 0 ≤ toInt pre.length) (w : World κ) :
    usbgLookupFunction g label w =
      (.ok (functionNamed g (label.take (toInt pre.length).toNat) rest), w) := by
  have hsplit := splitFunctionLabel_eq hcut hn w
  rw [usbgLookupFunction, huser, ← functionNamed_eq]
  cases ht : usbgLookupFunctionType (label.take (toInt pre.length).toNat) with
  | none =>
    rw [ht] at hsplit
    exact (bind_ok (attempt_fail hsplit)).trans (pure_apply _ _)
  | some t =>
    rw [ht] at hsplit
    exact (bind_ok (attempt_ok hsplit)).trans (pure_apply _ _)

/-- Of a label without a `_` that no user has chosen, `usbg_lookup_function` makes nothing. -/
lemma usbgLookupFunction_undef {κ : Type} (huser : g.functions.find? (·.label = some label) = none)
    (h : cutFirst '_' label = none ∨ ∃ pre rest, cutFirst '_' label = some (pre, rest) ∧
      toInt pre.length < 0) (w : World κ) : usbgLookupFunction g label w = (.undef, w) := by
  have hsplit : splitFunctionLabel label w = (.undef, w) := by
    rcases h with hnone | ⟨pre, rest, hcut, hneg⟩
    · exact bind_undef (by rw [hnone]; exact undef_apply w)
    · have hderef : (deref (cutFirst '_' label) : Io κ (CStr × CStr)) w = (.ok (pre, rest), w) := by
        rw [hcut]
        rfl
      have hhead : label.head? ≠ some '_' := by
        intro h
        cases pre with
        | nil => exact absurd hneg (by decide)
        | cons c pre =>
          obtain ⟨rfl, hc⟩ := cutFirst_eq_some.mp hcut
          obtain rfl : c = '_' := Option.some.inj h
          exact hc (List.mem_cons_self ..)
      refine (bind_ok hderef).trans ?_
      show splitLabelAt label rest (toInt pre.length) w = _
      generalize toInt pre.length = n at hneg ⊢
      have hshort : ¬ ((usbgMaxNameLength : ℤ) ≤ n ∨ label.head? = some '_') := by
        rintro (hlong | h)
        · exact absurd (hlong.trans_lt hneg) (by decide)
        · exact hhead h
      rw [splitLabelAt, require_of hshort, pure_bind, if_pos hneg]
      exact undef_apply w
  rw [usbgLookupFunction, huser]
  exact bind_undef (by rw [attempt_apply, hsplit])

/-- The functions a label spells, when it is cut at its first `_`. -/
lemma functionNamed_eq_find? (hcut : cutFirst '_' label = some (pre, rest))
    (hms : ∀ f ∈ g.functions, f.type = .massStorage → generateFunctionLabel f ≠ label) :
    functionNamed g pre rest = g.functions.find? (generateFunctionLabel · = label) := by
  refine List.find?_congr fun f hf => decide_eq_decide.mpr ⟨?_, fun h => ?_⟩
  · rintro ⟨hname, hinst⟩
    rw [generateFunctionLabel, hname, hinst]
    exact (cutFirst_eq_some.mp hcut).1.symm
  · have ht : f.type ≠ .massStorage := fun ht => hms f hf ht h
    rw [← h, cutFirst_generateFunctionLabel ht] at hcut
    exact Prod.mk.inj (Option.some.inj hcut)

/-- No function is spelled by a label whose first `_` comes late. -/
lemma find?_generateFunctionLabel_eq_none (hcut : cutFirst '_' label = some (pre, rest))
    (hlong : usbgMaxNameLength ≤ pre.length) :
    g.functions.find? (generateFunctionLabel · = label) = none := by
  refine List.find?_eq_none.mpr fun f _ hf => ?_
  exact absurd (length_pre_lt hcut (decide_eq_true_eq.mp hf)) (not_lt.mpr hlong)

/-- `usbg_lookup_function` finds the function a label stands for exactly when the user has chosen
the label, or it has a `_` and does not spell a mass storage function (and its first `_` does not
come so late that an `int` cannot say where). -/
theorem lookupRight_iff (g : Gadget) (label : CStr) : LookupRight g label ↔ LabelFound g label := by
  cases huser : g.functions.find? (·.label = some label) with
  | some f =>
    have hright : LookupRight g label := by
      intro κ w
      rw [usbgLookupFunction, resolveLabel, huser]
      rfl
    refine iff_of_true hright (.inl ⟨f, List.mem_of_find?_eq_some huser, ?_⟩)
    simpa using List.find?_some huser
  | none =>
    have hnot : ¬ ∃ f ∈ g.functions, f.label = some label := by
      rintro ⟨f, hf, hl⟩
      exact List.find?_eq_none.mp huser f hf (by simpa using hl)
    have hresolve : resolveLabel g label = g.functions.find? (generateFunctionLabel · = label) := by
      rw [resolveLabel, huser, Option.none_or]
    cases hcut : cutFirst '_' label with
    | none =>
      refine iff_of_false (fun h => ?_) ?_
      · have hrun := h Unit { sys := (), next := 0 }
        rw [usbgLookupFunction_undef huser (.inl hcut)] at hrun
        cases (Prod.mk.inj hrun).1
      · rintro (huser | ⟨pre, rest, hcut', -⟩)
        · exact hnot huser
        · rw [hcut] at hcut'
          cases hcut'
    | some parts =>
      obtain ⟨pre, rest⟩ := parts
      rw [LabelFound, or_iff_right hnot]
      by_cases hneg : toInt pre.length < 0
      · refine iff_of_false (fun h => ?_) ?_
        · have hrun := h Unit { sys := (), next := 0 }
          rw [usbgLookupFunction_undef huser (.inr ⟨pre, rest, hcut, hneg⟩)] at hrun
          cases (Prod.mk.inj hrun).1
        · rintro ⟨pre', rest', hcut', hcount, -⟩
          obtain ⟨rfl, rfl⟩ := Prod.mk.inj (Option.some.inj (hcut.symm.trans hcut'))
          rcases hcount with hshort | ⟨hn, -⟩
          · rw [toInt_natCast hshort] at hneg
            omega
          · exact absurd hneg (not_lt.mpr hn)
      · have hn : 0 ≤ toInt pre.length := not_lt.mp hneg
        -- what is left is to compare the two searches
        have hright : LookupRight g label ↔ functionNamed g (label.take (toInt pre.length).toNat) rest =
            g.functions.find? (generateFunctionLabel · = label) := by
          constructor
          · intro h
            have hrun := h Unit { sys := (), next := 0 }
            rw [usbgLookupFunction_eq huser hcut hn, hresolve] at hrun
            exact Outcome.ok.inj (Prod.mk.inj hrun).1
          · intro h κ w
            rw [usbgLookupFunction_eq huser hcut hn, hresolve, h]
        rw [hright]
        have hcond : (∃ pre rest, cutFirst '_' label = some (pre, rest) ∧
            PrefixCounted g label pre rest ∧
            ∀ f ∈ g.functions, f.type = .massStorage → generateFunctionLabel f ≠ label) ↔
            PrefixCounted g label pre rest ∧
              ∀ f ∈ g.functions, f.type = .massStorage → generateFunctionLabel f ≠ label := by
          constructor
          · rintro ⟨pre', rest', hcut', h⟩
            obtain ⟨rfl, rfl⟩ := Prod.mk.inj (Option.some.inj (hcut.symm.trans hcut'))
            exact h
          · exact fun h => ⟨pre, rest, hcut, h⟩
        rw [hcond]
        by_cases hshort : pre.length < 2 ^ 31
        · have htake : label.take (toInt pre.length).toNat = pre := by
            rw [toInt_natCast hshort, Int.toNat_natCast, (cutFirst_eq_some.mp hcut).1, List.take_left]
          rw [htake]
          constructor
          · refine fun h => ⟨.inl hshort, fun f hf ht hl => ?_⟩
            have hpre : pre = "mass".toList := by
              rw [← hl, generateFunctionLabel, ht, name_massStorage, List.append_assoc,
                List.cons_append, cutFirst_append (by decide)] at hcut
              exact (Prod.mk.inj (Option.some.inj hcut)).1.symm
            have hnone : functionNamed g pre rest = none :=
              functionNamed_eq_none.mpr fun f' _ _ => by
                rw [hpre]
                cases f'.type <;> decide
            rw [hnone] at h
            exact List.find?_eq_none.mp h.symm f hf (decide_eq_true hl)
          · exact fun h => functionNamed_eq_find? hcut h.2
        · have hlong : usbgMaxNameLength ≤ pre.length := by
            refine le_trans ?_ (not_lt.mp hshort)
            decide
          rw [find?_generateFunctionLabel_eq_none hcut hlong, functionNamed_eq_none]
          constructor
          · refine fun h => ⟨.inr ⟨hn, h⟩, fun f _ _ hl => ?_⟩
            exact absurd (length_pre_lt hcut hl) (not_lt.mpr hlong)
          · rintro ⟨hcount | hcount, -⟩
            · exact absurd hcount hshort
            · exact hcount.2

/-- A gadget with one mass storage function. -/
def storageGadget : Gadget :=
  { Gadget.allocated 0 ["/c".toList, gadgetsDir] "g".toList with
    functions := [.allocated 1 ["/c".toList, gadgetsDir, "g".toList, functionsDir] .massStorage "0".toList] }

/-- The label of a mass storage function is not found, and a label without a `_` is the end of the
program. -/
theorem lookupRight_fails :
    ¬ LookupRight storageGadget "mass_storage_0".toList ∧ ¬ LookupRight storageGadget "x".toList := by
  constructor
  · intro h
    have hrun : ((usbgLookupFunction storageGadget "mass_storage_0".toList :
        Io Unit (Option Func)) { sys := (), next := 0 }).1 = .ok none := by
      decide +kernel
    rw [h] at hrun
    have hsome : (resolveLabel storageGadget "mass_storage_0".toList).isSome := by decide +kernel
    rw [Outcome.ok.inj hrun] at hsome
    cases hsome
  · intro h
    have hrun : ((usbgLookupFunction storageGadget "x".toList : Io Unit (Option Func))
        { sys := (), next := 0 }).1 = .undef := by
      decide +kernel
    rw [h] at hrun
    cases hrun

end Libusbgx
