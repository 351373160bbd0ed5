import Libusbgx.MassStorage.SetAttrs

/-!
# The attributes of which unit

After `usbg_f_ms_set_attrs` the units should be those that the array asks for, each with the
attributes of the entry with its number, in whichever order the entries stand.
-/

namespace Libusbgx

open Prog Machine

variable {M : Machine} {d : Path} {T T' : Tree} {f f' : Func} {w : World Fs} {i : ℕ}
  {attrs : MsAttrs} {toBe : List ℤ}

/-- The number of the unit that an entry of the array is for. -/
def MsLunAttrs.effectiveId (l : MsLunAttrs) (k : ℕ) : ℤ := if 0 ≤ l.id then l.id else k

/-- The members of `struct usbg_f_ms_lun_attrs`. -/
def MsLunAttrs.Typed (l : MsLunAttrs) : Prop :=
  ∃ cdrom ro nofua removable file inquiryString,
    l.vals = [.bool cdrom, .bool ro, .bool nofua, .bool removable, .string file, .string inquiryString]

/-- The units are those that are asked for, and each has the attributes of its entry. -/
structure UnitsInPlace (attrs : MsAttrs) (d : Path) (T : Tree) : Prop where
  dirs : ∀ i < maxLuns, T.IsDir (lunAt d i) ↔ ∃ k, ∃ l : MsLunAttrs, attrs.luns[k]? = some l ∧ l.effectiveId k = i
  holds : ∀ k, ∀ l : MsLunAttrs, attrs.luns[k]? = some l → ∀ i : ℕ, l.effectiveId k = i → LunHolds d T i l.vals

/-- At the index `i` there stands an entry with these attributes; at the end of the array these are the
attributes that the kernel gives to a new unit. -/
def EntryAt (M : Machine) (attrs : MsAttrs) (d : Path) (T : Tree) (i : ℕ) (vals : List AttrVal) : Prop :=
  match attrs.luns[i]? with
  | some l => l.vals = vals
  | none => LunHolds d (T.addAll (M.newDir (lunAt d i))) i vals

/-- The attributes of every entry stand at the number of its unit. -/
def UnitsInOrder (M : Machine) (attrs : MsAttrs) (d : Path) (T : Tree) : Prop :=
  ∀ k, ∀ l : MsLunAttrs, attrs.luns[k]? = some l → ∀ i : ℕ, l.effectiveId k = i →
    EntryAt M attrs d T i l.vals

/-- A unit that is not asked for is in the mask when its round comes. -/
def StraysKnown (M : Machine) (attrs : MsAttrs) (w : World Fs) (f : Func) : Prop :=
  ∀ toBe s i t, msSetAttrsStart M.kernel attrs (w, f) = (.ok toBe, s) →
    msRounds M.kernel attrs toBe i s = (.ok (), t) → i < maxLuns → (i : ℤ) ∉ toBe →
      w.tree.IsDir (lunAt f.dir i) → i ∈ t.2.luns

/-! ## The entries -/

lemma lunsToBe_eq_some (h : lunsToBe attrs = some toBe) :
    (∀ id : ℤ, id ∈ toBe ↔ ∃ k, ∃ l : MsLunAttrs, attrs.luns[k]? = some l ∧ l.effectiveId k = id) ∧
      ∀ id ∈ toBe, id < maxLuns := by
  rw [lunsToBe] at h
  split at h
  · next hlt =>
    obtain rfl := Option.some.inj h
    refine ⟨fun id => ?_, hlt⟩
    constructor
    · intro hid
      obtain ⟨⟨l, k⟩, hlk, rfl⟩ := List.mem_map.mp hid
      exact ⟨k, l, List.mem_zipIdx_iff_getElem?.mp hlk, rfl⟩
    · rintro ⟨k, l, hl, rfl⟩
      exact List.mem_map.mpr ⟨(l, k), List.mem_zipIdx_iff_getElem?.mpr hl, rfl⟩
  · cases h

/-- The text of a value says which value it is. -/
lemma AttrVal.text_bool_inj {b b' : Bool} (h : (AttrVal.bool b).text = (AttrVal.bool b').text) :
    b = b' := by
  have key : ∀ b b', (AttrVal.bool b).text = (AttrVal.bool b').text → b = b' := by decide
  exact key b b' h

/-- Attributes that the same files hold are the same. -/
lemma LunHolds.vals_eq {l l' : MsLunAttrs} (hl : l.Typed) (hl' : l'.Typed) (h : LunHolds d T i l.vals)
    (h' : LunHolds d T i l'.vals) : l.vals = l'.vals := by
  -- each file holds one text
  have key : ∀ a v v', (a, v) ∈ msLunAttr.zip l.vals → (a, v') ∈ msLunAttr.zip l'.vals →
      v.text = v'.text := by
    intro a v v' hv hv'
    obtain ⟨t, ht, hfile⟩ := h (a, v) hv
    obtain ⟨t', ht', hfile'⟩ := h' (a, v') hv'
    rw [hfile] at hfile'
    rw [ht, ht', Node.file.inj (Option.some.inj hfile')]
  obtain ⟨cdrom, ro, nofua, removable, file, inquiryString, hvals⟩ := hl
  obtain ⟨cdrom', ro', nofua', removable', file', inquiryString', hvals'⟩ := hl'
  rw [hvals, hvals'] at key ⊢
  have hcdrom := AttrVal.text_bool_inj (key (.rw "cdrom" .bool) (.bool cdrom) (.bool cdrom')
    (by simp [msLunAttr]) (by simp [msLunAttr]))
  have hro := AttrVal.text_bool_inj (key (.rw "ro" .bool) (.bool ro) (.bool ro')
    (by simp [msLunAttr]) (by simp [msLunAttr]))
  have hnofua := AttrVal.text_bool_inj (key (.rw "nofua" .bool) (.bool nofua) (.bool nofua')
    (by simp [msLunAttr]) (by simp [msLunAttr]))
  have hremovable := AttrVal.text_bool_inj (key (.rw "removable" .bool) (.bool removable)
    (.bool removable') (by simp [msLunAttr]) (by simp [msLunAttr]))
  have hfile : file = file' := key (.rw "file" .string) (.string file) (.string file')
    (by simp [msLunAttr]) (by simp [msLunAttr])
  have hinquiry : inquiryString = inquiryString' := key (.rw "inquiry_string" .string)
    (.string inquiryString) (.string inquiryString') (by simp [msLunAttr]) (by simp [msLunAttr])
  rw [hcdrom, hro, hnofua, hremovable, hfile, hinquiry]

/-- The attributes of a unit depend only on what is below it. -/
lemma lunHolds_congr {vals : List AttrVal} (h : ∀ q, lunAt d i <+: q → T'.get q = T.get q) :
    LunHolds d T' i vals ↔ LunHolds d T i vals := by
  refine forall₂_congr fun av _ => exists_congr fun t => and_congr_right fun _ => ?_
  rw [h _ (List.prefix_append ..)]

/-- After its round a unit has the attributes that stand at its number. -/
lemma RoundContent.holds_iff (h : RoundContent M d attrs i T T') (htyped : ∀ l ∈ attrs.luns, l.Typed)
    {l : MsLunAttrs} (hl : l.Typed) : LunHolds d T' i l.vals ↔ EntryAt M attrs d T i l.vals := by
  rw [RoundContent, lunAttrsAt] at h
  rw [EntryAt]
  split at h
  · cases h
  · next hat =>
    -- the end of the array
    obtain ⟨-, hnew⟩ := h
    have hnone : attrs.luns[i]? = none := by
      split at hat
      · exact Option.some.inj hat
      · split at hat
        · next hi => exact List.getElem?_eq_none hi.ge
        · cases hat
    rw [hnone]
    exact lunHolds_congr hnew
  · next l' hat =>
    have hsome : attrs.luns[i]? = some l' := by
      split at hat
      · exact Option.some.inj hat
      · split at hat
        · cases hat
        · cases hat
    rw [hsome]
    dsimp only
    constructor
    · intro hheld
      exact LunHolds.vals_eq (htyped l' (List.mem_of_getElem? hsome)) hl h hheld
    · intro hvals
      rw [← hvals]
      exact h

/-! ## After all rounds -/

/-- A unit that is not asked for is left when it is not in the mask as its round comes. -/
lemma msRounds_left {s t : World Fs × Func} (h : LunsOk d s.1.tree s.2) {n : ℕ} (hn : n ≤ maxLuns)
    (hrun : msRounds M.kernel attrs toBe n s = (.ok (), t)) (hi : i < n) (hasked : (i : ℤ) ∉ toBe) :
    ∃ u, msRounds M.kernel attrs toBe i s = (.ok (), u) ∧
      (t.1.tree.IsDir (lunAt d i) ↔ s.1.tree.IsDir (lunAt d i) ∧ i ∉ u.2.luns) := by
  induction n generalizing t with
  | zero => omega
  | succ n ih =>
    rw [msRounds, forEach_range_succ] at hrun
    obtain ⟨_, u, hrounds, hround⟩ := bind_eq_ok.mp hrun
    have hdone := msRounds_ends (M := M) attrs toBe (w := s.1) (f := s.2) (n := n) h
      (by omega)
    rw [msRounds, hrounds] at hdone
    have hstep := msSetAttrsRound_ends (M := M) attrs toBe (w := u.1) (f := u.2)
      hdone.ok (i := n) (by omega)
    rw [hround] at hstep
    rcases Nat.lt_succ_iff_lt_or_eq.mp hi with hlt | rfl
    · obtain ⟨v, hv, hiff⟩ := ih (by omega) hrounds hlt
      refine ⟨v, hv, ?_⟩
      rw [← hiff]
      exact hstep.step.isDir_iff (by omega) (by omega) (by omega)
    · refine ⟨u, hrounds, ?_⟩
      rw [hstep.left hasked]
      exact and_congr_left fun _ => isDir_congr (hdone.below le_rfl (by omega) List.prefix_rfl)

/-- A successful `usbg_f_ms_set_attrs` has done all rounds. -/
lemma usbgFMsSetAttrs_ok {s : World Fs × Func} (h : LunsOk f.dir w.tree f)
    (hrun : usbgFMsSetAttrs M.kernel attrs (w, f) = (.ok (), s)) :
    ∃ toBe s₀, msSetAttrsStart M.kernel attrs (w, f) = (.ok toBe, s₀) ∧
      Started M f.dir attrs w.tree s₀.1.tree f s₀.2 toBe ∧
        msRounds M.kernel attrs toBe maxLuns s₀ = (.ok (), s) := by
  have hrun' := hrun
  rw [usbgFMsSetAttrs_eq] at hrun'
  obtain ⟨toBe, s₀, hstart, hloop⟩ := bind_eq_ok.mp hrun'
  have hstarted := msSetAttrsStart_ends (M := M) attrs h
  rw [hstart] at hstarted
  refine ⟨toBe, s₀, hstart, hstarted, ?_⟩
  rcases msSetAttrsLoop_cases M.kernel attrs toBe [] (List.range maxLuns) s₀ with
    ⟨t, hrounds, hok⟩ | ⟨pre, j, post, t, e, u, hrange, hrounds, hfail⟩ | ⟨t, hundef⟩
  · rw [hok] at hloop
    obtain ⟨-, rfl⟩ := Prod.mk.inj hloop
    exact hrounds
  · obtain ⟨rfl, hj⟩ := eq_range_of_range_eq hrange
    rw [usbgFMsSetAttrs_of_fail hstarted.ok hj hstart hrounds hfail] at hrun
    cases hrun
  · rw [hundef] at hloop
    cases hloop

/-- When the mask has been read, or can be read, no unit is overlooked. -/
lemma StraysKnown.of_read (h : LunsOk f.dir w.tree f) (hcomplete : LunsComplete f.dir w.tree f)
    (hread : f.lunsInitiated = true ∨
      M.Grants (.scandir (f.path ++ [f.name, []])) ∧ w.tree.IsDir f.dir) : StraysKnown M attrs w f := by
  intro toBe s i t hstart hrounds hi hasked hdir
  have hstarted := msSetAttrsStart_ends (M := M) attrs h
  rw [hstart] at hstarted
  have hdone := msRounds_ends (M := M) attrs toBe (w := s.1) (f := s.2)
    hstarted.ok hi.le
  rw [hrounds] at hdone
  refine hdone.complete (hstarted.complete hcomplete) (hdone.known (hstarted.known hread)) i hi ?_
  rw [isDir_congr (hdone.below le_rfl hi List.prefix_rfl), isDir_congr (hstarted.below i hi _ List.prefix_rfl)]
  exact hdir

/-- It is enough that each entry stands at the index of its unit. -/
lemma UnitsInOrder.of_index (h : ∀ k, ∀ l : MsLunAttrs, attrs.luns[k]? = some l → l.effectiveId k = k) :
    UnitsInOrder M attrs d T := by
  intro k l hl i hid
  obtain rfl : k = i := by exact_mod_cast (h k l hl).symm.trans hid
  rw [EntryAt, hl]

/-- Exactly when the entries stand in the order of their units, or the order does not matter, and no unit
is overlooked, a successful `usbg_f_ms_set_attrs` puts every unit in its place. -/
theorem unitsInPlace_iff (M : Machine) (attrs : MsAttrs) (w : World Fs) (f : Func)
    (h : LunsOk f.dir w.tree f) (htyped : ∀ l ∈ attrs.luns, l.Typed) (s : World Fs × Func)
    (hrun : usbgFMsSetAttrs M.kernel attrs (w, f) = (.ok (), s)) :
    UnitsInPlace attrs f.dir s.1.tree ↔
      UnitsInOrder M attrs f.dir w.tree ∧ StraysKnown M attrs w f := by
  obtain ⟨toBe, s₀, hstart, hstarted, hrounds⟩ := usbgFMsSetAttrs_ok h hrun
  obtain ⟨hmem, hlt⟩ := lunsToBe_eq_some hstarted.asked
  have hdone := msRounds_ends (M := M) attrs toBe (w := s₀.1) (f := s₀.2)
    hstarted.ok le_rfl
  rw [hrounds] at hdone
  have hinit : ∀ i < maxLuns, (s₀.1.tree.IsDir (lunAt f.dir i) ↔ w.tree.IsDir (lunAt f.dir i)) :=
    fun i hi => isDir_congr (hstarted.below i hi _ List.prefix_rfl)
  -- the units that are asked for are there, and have what stands at their numbers
  have hholds : ∀ k, ∀ l : MsLunAttrs, attrs.luns[k]? = some l → ∀ i : ℕ, l.effectiveId k = i →
      (LunHolds f.dir s.1.tree i l.vals ↔ EntryAt M attrs f.dir w.tree i l.vals) := by
    intro k l hl i hid
    have hasked : (i : ℤ) ∈ toBe := (hmem i).mpr ⟨k, l, hl, hid⟩
    have hi : i < maxLuns := by exact_mod_cast hlt i hasked
    have hcontent := (hdone.content i hi hasked).congr
      (fun q hq => (hstarted.below i hi q hq).symm) fun _ _ => rfl
    exact hcontent.holds_iff htyped (htyped l (List.mem_of_getElem? hl))
  constructor
  · rintro ⟨hdirs, hvals⟩
    refine ⟨fun k l hl i hid => (hholds k l hl i hid).mp (hvals k l hl i hid), ?_⟩
    intro toBe' s' i t hstart' hrounds' hi hasked hdir
    rw [hstart] at hstart'
    obtain ⟨htoBe, rfl⟩ := Prod.mk.inj hstart'
    obtain rfl := Outcome.ok.inj htoBe
    obtain ⟨u, hu, hleft⟩ := msRounds_left hstarted.ok le_rfl hrounds hi hasked
    rw [hu] at hrounds'
    obtain ⟨-, rfl⟩ := Prod.mk.inj hrounds'
    by_contra hout
    have hstray : s.1.tree.IsDir (lunAt f.dir i) := hleft.mpr ⟨(hinit i hi).mpr hdir, hout⟩
    exact hasked ((hmem i).mpr ((hdirs i hi).mp hstray))
  · rintro ⟨horder, hknown⟩
    refine ⟨fun i hi => ?_, fun k l hl i hid => (hholds k l hl i hid).mpr (horder k l hl i hid)⟩
    rw [← hmem i]
    constructor
    · intro hdir
      by_contra hasked
      obtain ⟨u, hu, hleft⟩ := msRounds_left hstarted.ok le_rfl hrounds hi hasked
      obtain ⟨hdir₀, hout⟩ := hleft.mp hdir
      exact hout (hknown toBe s₀ i u hstart hu hi hasked ((hinit i hi).mp hdir₀))
    · exact hdone.present i hi

/-- Two units in the other order. -/
def swappedUnits : MsAttrs where
  stall := true
  luns := [unitAttrs 1 "/b".toList, unitAttrs 0 "/a".toList]

lemma typed_unitAttrs (id : ℤ) (file : CStr) : (unitAttrs id file).Typed :=
  ⟨false, false, false, true, some file, some [], rfl⟩

/-- The call for a function that has the first unit. -/
def swappedRun : Outcome UsbgError Unit × World Fs × Func :=
  usbgFMsSetAttrs (unitsMachine []).kernel swappedUnits (worldOf (unitsTree [0]), unitsFunc)

lemma swappedRun_ok : swappedRun.1 = .ok () := by decide +kernel

/-- The same entries in the order of their units. -/
def orderedUnits : MsAttrs := { swappedUnits with luns := swappedUnits.luns.reverse }

/-- The same call with them. -/
def orderedRun : Outcome UsbgError Unit × World Fs × Func :=
  usbgFMsSetAttrs (unitsMachine []).kernel orderedUnits (worldOf (unitsTree [0]), unitsFunc)

lemma orderedRun_ok : orderedRun.1 = .ok () := by decide +kernel

lemma unitsInOrder_orderedUnits : UnitsInOrder M orderedUnits d T := by
  refine UnitsInOrder.of_index fun k l hl => ?_
  have hk : k < 2 := (List.getElem?_eq_some_iff.mp hl).1
  rcases (by omega : k = 0 ∨ k = 1) with rfl | rfl
  · obtain rfl := Option.some.inj hl
    rfl
  · obtain rfl := Option.some.inj hl
    rfl

/-- The two entries for units 1 and 0, and the same in their order. -/
theorem unitsInPlace_swapped :
    (UnitsInPlace swappedUnits unitsFunc.dir swappedRun.2.1.tree ↔
      UnitsInOrder (unitsMachine []) swappedUnits unitsFunc.dir (worldOf (unitsTree [0])).tree ∧
        StraysKnown (unitsMachine []) swappedUnits (worldOf (unitsTree [0])) unitsFunc) ∧
    UnitsInPlace orderedUnits unitsFunc.dir orderedRun.2.1.tree := by
  have htyped : ∀ l ∈ swappedUnits.luns, l.Typed := by
    intro l hl
    rcases List.mem_pair.mp hl with rfl | rfl
    · exact typed_unitAttrs 1 _
    · exact typed_unitAttrs 0 _
  refine ⟨unitsInPlace_iff (unitsMachine []) swappedUnits (worldOf (unitsTree [0])) unitsFunc lunsOk_unitsTree
    htyped swappedRun.2 (by rw [← swappedRun_ok]; exact swappedRun.eta.symm), ?_⟩
  refine (unitsInPlace_iff (unitsMachine []) orderedUnits (worldOf (unitsTree [0])) unitsFunc lunsOk_unitsTree
    (fun l hl => htyped l (List.mem_reverse.mp hl)) orderedRun.2
    (by rw [← orderedRun_ok]; exact orderedRun.eta.symm)).mpr ⟨unitsInOrder_orderedUnits, ?_⟩
  exact StraysKnown.of_read lunsOk_unitsTree (fun hread => absurd hread (by decide))
    (.inr ⟨fun _ => rfl, by decide +kernel⟩)

/-- The call succeeds, and each of the two units gets the attributes of the other. -/
theorem unitsInPlace_fails :
    lunsToBe swappedUnits = some [1, 0] ∧ swappedRun.1 = .ok () ∧
      ¬ UnitsInPlace swappedUnits unitsFunc.dir swappedRun.2.1.tree := by
  refine ⟨by decide +kernel, swappedRun_ok, fun h => ?_⟩
  have hheld := h.holds 0 (unitAttrs 1 "/b".toList) rfl 1 rfl
  obtain ⟨t, ht, hfile⟩ := hheld (.rw "file" .string, .string (some "/b".toList))
    (by simp [msLunAttr, unitAttrs])
  obtain rfl := Option.some.inj ht
  revert hfile
  decide +kernel

end Libusbgx
