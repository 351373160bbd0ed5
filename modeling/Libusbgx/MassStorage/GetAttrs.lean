import Libusbgx.MassStorage.InPlace

/-!
# Reading the attributes of a mass storage function

`usbg_f_ms_get_attrs` makes an array that is as long as the number of the units, and writes it at the
numbers of the units.
-/

namespace Libusbgx

open Prog Machine

variable {M : Machine} {d : Path} {T T' : Tree} {f f' : Func} {w : World Fs} {i : ℕ}

/-! ## What is read -/

/-- A value that is read from a file with this content.  A number that does not end with the content
goes on in what stands behind it in the buffer. -/
def AttrVal.ReadFrom (content : CStr) : AttrVal → Prop
  | .bool b => ∃ stale, b =
      decide (toInt (strtol 10 (ofBuffer (content.take usbgMaxStrLength ++ stale))).value ≠ 0)
  | .string s => s = some (untilNewline (ofBuffer (content.take (usbgMaxFileSize - 1))))
  | _ => False

/-- The values are those of the files of the unit. -/
def LunReads (d : Path) (T : Tree) (i : ℕ) (vals : List AttrVal) : Prop :=
  List.Forall₂ (fun a v => ∃ content, T.get (lunAt d i ++ [a.name]) = some (.file content) ∧
    v.ReadFrom content) msLunAttr vals

/-- The numbers of the units. -/
def unitsOf (d : Path) (T : Tree) : List ℕ := (List.range maxLuns).filter fun i => T.IsDir (lunAt d i)

lemma mem_unitsOf : i ∈ unitsOf d T ↔ i < maxLuns ∧ T.IsDir (lunAt d i) := by
  rw [unitsOf, List.mem_filter, List.mem_range, decide_eq_true_eq]

/-- The array holds the units in the order of their numbers, and a null pointer at the end. -/
structure UnitsListed (d : Path) (T : Tree) (r : MsAttrsRead) : Prop where
  count : r.nluns = (unitsOf d T).length
  length : r.luns.length = r.nluns + 1
  entries : ∀ k i : ℕ, (unitsOf d T)[k]? = some i →
    ∃ l : MsLunAttrs, r.luns[k]? = some (some l) ∧ l.id = i ∧ LunReads d T i l.vals
  last : r.luns[r.nluns]? = some none

/-- `usbg_f_ms_get_attrs` lists the units when it succeeds, and stays inside of its array. -/
def AttrsListed (M : Machine) (w : World Fs) (f : Func) : Prop :=
  Ends (fun r _ => UnitsListed f.dir w.tree r) (fun _ _ => True) False (usbgFMsGetAttrs M.kernel (w, f))

/-- There is no unit behind a number without one. -/
def UnitsContiguous (d : Path) (T : Tree) : Prop :=
  ∀ i j, i ≤ j → j < maxLuns → T.IsDir (lunAt d j) → T.IsDir (lunAt d i)

instance (d : Path) (T : Tree) : Decidable (UnitsContiguous d T) :=
  decidable_of_iff (∀ j < maxLuns, ∀ i ≤ j, T.IsDir (lunAt d j) → T.IsDir (lunAt d i))
    ⟨fun h i j hij hj => h j hj i hij, fun h j hj i hij => h i j hij hj⟩

/-! ## The parts -/

lemma usbgReadBool_ends {path : Path} {name file : CStr} :
    Ends (fun b w' => (path ++ [name, file]).Fits ∧ w'.tree = w.tree ∧ ∃ content,
        w.tree.get (path ++ [name, file]).resolve = some (.file content) ∧
          AttrVal.ReadFrom content (.bool b))
      (fun _ w' => w'.tree = w.tree) False (usbgReadBool M.kernel path name file w) := by
  rw [usbgReadBool, usbgReadDec, usbgReadInt, usbgReadBuf]
  simp only [Prog.bind_assoc]
  refine Ends.bind usbgReadBufLimited_ends ?_
  rintro _ w' ⟨hfits, ht, content, hfile, rfl⟩
  exact ⟨hfits, ht, content, hfile, _, rfl⟩

lemma usbgReadStringAlloc_ends {path : Path} {name file : CStr} :
    Ends (fun s w' => w'.tree = w.tree ∧ ∃ content,
        w.tree.get (path ++ [name, file]).resolve = some (.file content) ∧
          AttrVal.ReadFrom content (.string (some s)))
      (fun _ w' => w'.tree = w.tree) False (usbgReadStringAlloc M.kernel path name file w) := by
  rw [usbgReadStringAlloc, usbgReadStringLimited]
  refine Ends.bind usbgReadBufLimited_ends ?_
  rintro _ w' ⟨-, ht, content, hfile, rfl⟩
  refine ⟨ht, content, hfile, ?_⟩
  rw [AttrVal.ReadFrom, List.take_take, Nat.min_eq_left (by omega)]

/-- Reading one attribute of a unit. -/
lemma usbgFMsGetLunAttrVal_ends (h : LunsOk d w.tree f) {a : Attr} (ha : a ∈ msLunAttr) :
    Ends (fun v s => s.1.tree = w.tree ∧ s.2 = f ∧ ∃ content,
        w.tree.get (lunAt d i ++ [a.name]) = some (.file content) ∧ v.ReadFrom content)
      (fun _ _ => True) False (usbgFMsGetLunAttrVal M.kernel i a (w, f)) := by
  have hname : a.name ≠ [] := by
    have key : ∀ a ∈ msLunAttr, a.name ≠ [] := by decide
    exact key a ha
  have hresolve := resolve_lunFile h.dir h.clean i hname
  have hkind : a.kind = .bool ∨ a.kind = .string := by
    have key : ∀ a ∈ msLunAttr, a.kind = .bool ∨ a.kind = .string := by decide
    exact key a ha
  rw [usbgFMsGetLunAttrVal, self_bind_apply]
  refine Ends.require_bind (fun _ => ?_) fun _ => trivial
  rcases hkind with hkind | hkind
  · rw [hkind]
    refine Ends.bind (R := fun b s => s.2 = f ∧ s.1.tree = w.tree ∧ ∃ content,
      w.tree.get (lunPath f i ++ [[], a.name]).resolve = some (.file content) ∧
        AttrVal.ReadFrom content (.bool b))
      (ends_io (usbgReadBool_ends.mono (fun _ _ h => ⟨rfl, h.2⟩) fun _ _ _ => trivial)) ?_
    rintro b s ⟨hfunc, ht, hread⟩
    rw [hresolve] at hread
    exact ⟨ht, hfunc, hread⟩
  · rw [hkind]
    refine Ends.bind (R := fun t s => s.2 = f ∧ s.1.tree = w.tree ∧ ∃ content,
      w.tree.get (lunPath f i ++ [[], a.name]).resolve = some (.file content) ∧
        AttrVal.ReadFrom content (.string (some t)))
      (ends_io (usbgReadStringAlloc_ends.mono (fun _ _ h => ⟨rfl, h⟩) fun _ _ _ => trivial)) ?_
    rintro t s ⟨hfunc, ht, hread⟩
    rw [hresolve] at hread
    exact ⟨ht, hfunc, hread⟩

/-- Reading the attributes of a unit. -/
lemma usbgFMsGetLunAttrs_ends (h : LunsOk d w.tree f) :
    Ends (fun (l : MsLunAttrs) s => s.1.tree = w.tree ∧ s.2 = f ∧ l.id = i ∧ LunReads d w.tree i l.vals)
      (fun _ _ => True) False (usbgFMsGetLunAttrs M.kernel i (w, f)) := by
  have hvals : ∀ table : List Attr, (∀ a ∈ table, a ∈ msLunAttr) → ∀ w' : World Fs, w'.tree = w.tree →
      Ends (fun vals s => s.1.tree = w.tree ∧ s.2 = f ∧ List.Forall₂ (fun (a : Attr) v => ∃ content,
          w.tree.get (lunAt d i ++ [a.name]) = some (.file content) ∧ v.ReadFrom content) table vals)
        (fun _ _ => True) False (getLunAttrVals M.kernel i table (w', f)) := by
    intro table
    induction table with
    | nil => exact fun _ w' ht => ⟨ht, rfl, .nil⟩
    | cons a table ih =>
      intro htable w' ht
      have h' : LunsOk d w'.tree f := by rwa [ht]
      refine Ends.bind (usbgFMsGetLunAttrVal_ends (i := i) h' (htable a (by simp))) ?_
      rintro v ⟨w₁, f₁⟩ ⟨ht₁, hfunc, hread⟩
      obtain rfl : f = f₁ := hfunc.symm
      rw [ht] at hread
      refine Ends.bind (ih (fun a' ha' => htable a' (by simp [ha'])) w₁ (ht₁.trans ht)) ?_
      rintro vals s ⟨ht₂, hfunc₂, hrest⟩
      exact ⟨ht₂, hfunc₂, .cons hread hrest⟩
  refine Ends.bind (hvals msLunAttr (fun _ ha => ha) w rfl) ?_
  rintro vals s ⟨ht, hfunc, hall⟩
  exact ⟨ht, hfunc, rfl, hall⟩

/-! ## The loop -/

/-- The array after the rounds for the numbers in `done`: every unit in the mask has been written at its
number. -/
structure Filled (d : Path) (T : Tree) (mask done : List ℕ) (n : ℕ) (arr : List (Option MsLunAttrs)) :
    Prop where
  length : arr.length = n
  inside : ∀ j ∈ done, j ∈ mask → j < n
  written : ∀ j ∈ done, j ∈ mask →
    ∃ l : MsLunAttrs, arr[j]? = some (some l) ∧ l.id = j ∧ LunReads d T j l.vals
  empty : ∀ j < n, ¬ (j ∈ done ∧ j ∈ mask) → arr[j]? = some none

namespace Filled

variable {mask done : List ℕ} {n : ℕ} {arr : List (Option MsLunAttrs)}

lemma start (d : Path) (T : Tree) (mask : List ℕ) (n : ℕ) :
    Filled d T mask [] n (List.replicate n none) where
  length := List.length_replicate
  inside _ hj := absurd hj (by simp)
  written _ hj := absurd hj (by simp)
  empty j hj _ := by rw [List.getElem?_replicate, if_pos hj]

/-- A unit that is not in the mask is passed over. -/
lemma skip (h : Filled d T mask done n arr) (hi : i ∉ mask) : Filled d T mask (done ++ [i]) n arr := by
  have hmem : ∀ j, j ∈ done ++ [i] → j ∈ mask → j ∈ done := by
    intro j hj hm
    rcases List.mem_append.mp hj with hj | hj
    · exact hj
    · exact absurd (List.mem_singleton.mp hj ▸ hm) hi
  exact ⟨h.length, fun j hj hm => h.inside j (hmem j hj hm) hm, fun j hj hm => h.written j (hmem j hj hm) hm,
    fun j hj hout => h.empty j hj fun hin => hout ⟨List.mem_append_left _ hin.1, hin.2⟩⟩

/-- A unit in the mask is written at its number. -/
lemma set (h : Filled d T mask done n arr) (hi : i ∈ mask) (hin : i < n) {l : MsLunAttrs} (hid : l.id = i)
    (hread : LunReads d T i l.vals) : Filled d T mask (done ++ [i]) n (arr.set i (some l)) := by
  have hmem : ∀ j, j ∈ done ++ [i] → j ≠ i → j ∈ done := by
    intro j hj hne
    rcases List.mem_append.mp hj with hj | hj
    · exact hj
    · exact absurd (List.mem_singleton.mp hj) hne
  have hget : (arr.set i (some l))[i]? = some (some l) := by
    rw [List.getElem?_set_self (by rw [h.length]; exact hin)]
  constructor
  case length => rw [List.length_set, h.length]
  case inside =>
    intro j hj hm
    by_cases hji : j = i
    · rw [hji]
      exact hin
    · exact h.inside j (hmem j hj hji) hm
  case written =>
    intro j hj hm
    by_cases hji : j = i
    · subst hji
      exact ⟨l, hget, hid, hread⟩
    · rw [List.getElem?_set_ne (Ne.symm hji)]
      exact h.written j (hmem j hj hji) hm
  case empty =>
    intro j hj hout
    have hji : j ≠ i := by
      rintro rfl
      exact hout ⟨by simp, hi⟩
    rw [List.getElem?_set_ne (Ne.symm hji)]
    exact h.empty j hj fun hin => hout ⟨List.mem_append_left _ hin.1, hin.2⟩

end Filled

/-- The loop fills the array, or leaves it where a unit in the mask has a number behind its end. -/
lemma msGetAttrsLoop_ends (h : LunsOk d w.tree f) (n : ℕ) :
    Ends (fun arr _ => Filled d w.tree f.luns (List.range maxLuns) n arr) (fun _ _ => True)
      (∃ i ∈ f.luns, n ≤ i)
      ((List.range maxLuns).foldlM (msGetAttrsRound M.kernel) (List.replicate n none) (w, f)) := by
  refine (Ends.foldlM (fun done arr s => (s.1.tree = w.tree ∧ s.2 = f) ∧ Filled d w.tree f.luns done n arr) ?_
    ⟨⟨rfl, rfl⟩, Filled.start ..⟩).mono (fun _ _ h => h.2) fun _ _ h => h
  rintro done i arr ⟨w', f'⟩ - ⟨⟨ht, rfl⟩, hfilled⟩
  dsimp only at ht
  rw [msGetAttrsRound, self_bind_apply]
  dsimp only
  by_cases hmask : i ∉ f'.luns
  · rw [if_pos hmask]
    exact ⟨⟨ht, rfl⟩, hfilled.skip hmask⟩
  rw [if_neg hmask]
  have hin : i ∈ f'.luns := not_not.mp hmask
  by_cases hout : arr.length ≤ i
  · rw [if_pos hout]
    exact ⟨i, hin, hfilled.length ▸ hout⟩
  rw [if_neg hout]
  have h' : LunsOk d w'.tree f' := by rwa [ht]
  refine Ends.bind ((usbgFMsGetLunAttrs_ends (i := i) h').mono_undef (fun _ _ h => h) (fun _ _ h => h)
    fun h => h.elim) ?_
  rintro l s ⟨ht', hfunc, hid, hread⟩
  rw [ht] at ht' hread
  exact ⟨⟨ht', hfunc⟩, hfilled.set hin (by rw [← hfilled.length]; omega) hid hread⟩

/-! ## All units -/

/-- What `usbg_f_ms_get_attrs` does before the loop. -/
def msGetAttrsStart (K : Kernel Fs) : On Fs Func (Bool × ℕ) := do
  let stall ← usbgFMsGetStall K
  let _ ← getLunMask K
  let nluns ← usbgFMsGetNluns K
  pure (stall, nluns)

lemma usbgFMsGetAttrs_eq (K : Kernel Fs) :
    usbgFMsGetAttrs K = (msGetAttrsStart K >>= fun r => do
      let luns ← (List.range maxLuns).foldlM (msGetAttrsRound K) (List.replicate (r.2 + 1) none)
      pure { stall := r.1, nluns := r.2, luns }) := by
  simp only [usbgFMsGetAttrs, msGetAttrsStart, Prog.bind_assoc, Prog.pure_bind]

/-- The units are in the mask once it has been asked for. -/
def MaskSeen (M : Machine) (w : World Fs) (f : Func) : Prop :=
  ∀ r s, msGetAttrsStart M.kernel (w, f) = (.ok r, s) →
    ∀ i < maxLuns, w.tree.IsDir (lunAt f.dir i) → i ∈ s.2.luns

lemma msGetAttrsStart_ends (h : LunsOk d w.tree f) :
    Ends (fun r s => s.1.tree = w.tree ∧ LunsOk d w.tree s.2 ∧
        r.2 = ((List.range maxLuns).filter fun i => i ∈ s.2.luns).length ∧
        (LunsComplete d w.tree f → LunsComplete d w.tree s.2) ∧
        ((f.lunsInitiated = true ∨ M.Grants (.scandir (f.path ++ [f.name, []])) ∧ w.tree.IsDir d) →
          s.2.lunsInitiated = true))
      (fun _ _ => True) False (msGetAttrsStart M.kernel (w, f)) := by
  rw [msGetAttrsStart]
  refine Ends.bind (R := fun _ s => s.2 = f ∧ (f.path ++ [f.name, []]).Fits ∧ s.1.tree = w.tree) ?_ ?_
  · rw [usbgFMsGetStall, self_bind_apply]
    exact ends_io (usbgReadBool_ends.mono (fun _ _ h => ⟨rfl, fits_funcDir h.1, h.2.1⟩) fun _ _ _ => trivial)
  rintro stall ⟨w₁, f₁⟩ ⟨hfunc, hfits, ht₁⟩
  obtain rfl : f = f₁ := hfunc.symm
  dsimp only at ht₁
  rw [← ht₁] at h ⊢
  refine Ends.bind ((getLunMask_ends h).mono (fun _ _ h => h) fun _ _ h => h.elim) ?_
  rintro - ⟨w₂, f₂⟩ ⟨ht₂, hmask₂, -, hread⟩
  dsimp only at ht₂ hmask₂ hread
  rw [← ht₂] at hmask₂ hread ⊢
  rw [usbgFMsGetNluns]
  simp only [Prog.bind_assoc, Prog.pure_bind]
  refine Ends.bind ((getLunMask_ends hmask₂.ok).mono (fun _ _ h => h) fun _ _ h => h.elim) ?_
  rintro luns ⟨w₃, f₃⟩ ⟨ht₃, hmask₃, rfl, -⟩
  dsimp only at ht₃ hmask₃
  refine ⟨ht₃, hmask₃.ok, rfl, fun hc => hmask₃.complete (hmask₂.complete hc), fun hknown => ?_⟩
  have hknown₂ : f₂.lunsInitiated = true := by
    rcases hknown with hk | ⟨hg, hdir⟩
    · rw [hmask₂.known hk]
      exact hk
    · exact hread hfits hg hdir
  rw [hmask₃.known hknown₂]
  exact hknown₂

/-- When the mask has been read, or can be read, no unit is overlooked. -/
lemma MaskSeen.of_read (h : LunsOk f.dir w.tree f) (hcomplete : LunsComplete f.dir w.tree f)
    (hread : f.lunsInitiated = true ∨
      M.Grants (.scandir (f.path ++ [f.name, []])) ∧ w.tree.IsDir f.dir) : MaskSeen M w f := by
  intro r s hstart i hi hdir
  have hends := msGetAttrsStart_ends (M := M) h
  rw [hstart] at hends
  obtain ⟨-, -, -, hc, hknown⟩ := hends
  exact hc hcomplete (hknown hread) i hi hdir

/-- The numbers below `n` that have a property which no larger number has alone. -/
lemma filter_range_eq {p : ℕ → Prop} [DecidablePred p] (h : ∀ i j, i ≤ j → p j → p i) (n : ℕ) :
    (List.range n).filter (fun i => p i) = List.range ((List.range n).filter fun i => p i).length := by
  induction n with
  | zero => rfl
  | succ n ih =>
    rw [List.range_succ, List.filter_append]
    by_cases hn : p n
    · have hall : (List.range n).filter (fun i => p i) = List.range n := by
        refine List.filter_eq_self.mpr fun i hi => ?_
        exact decide_eq_true (h i n (List.mem_range.mp hi).le hn)
      rw [hall, List.filter_singleton, decide_eq_true hn]
      simp [List.range_succ]
    · rw [List.filter_singleton, decide_eq_false hn]
      simpa using ih

lemma UnitsContiguous.unitsOf_eq (h : UnitsContiguous d T) :
    unitsOf d T = List.range (unitsOf d T).length := by
  have hdown : ∀ i j, i ≤ j → (j < maxLuns ∧ T.IsDir (lunAt d j)) → i < maxLuns ∧ T.IsDir (lunAt d i) :=
    fun i j hij hj => ⟨lt_of_le_of_lt hij hj.1, h i j hij hj.1 hj.2⟩
  have hunits : unitsOf d T = (List.range maxLuns).filter fun i => i < maxLuns ∧ T.IsDir (lunAt d i) := by
    refine List.filter_congr fun i hi => ?_
    have hlt := List.mem_range.mp hi
    simp [hlt]
  rw [hunits]
  exact filter_range_eq hdown maxLuns

section Listed

variable {mask : List ℕ} {r : MsAttrsRead}

/-- An array that lists the units has them at their numbers. -/
lemma UnitsListed.number (h : UnitsListed d T r)
    (hfilled : Filled d T mask (List.range maxLuns) (r.nluns + 1) r.luns) {k : ℕ}
    (hk : (unitsOf d T)[k]? = some i) : i = k ∧ k ∈ mask := by
  obtain ⟨l, hl, hid, -⟩ := h.entries k i hk
  have hlt : k < r.nluns + 1 := by
    rw [← hfilled.length]
    exact (List.getElem?_eq_some_iff.mp hl).1
  by_cases hin : k ∈ List.range maxLuns ∧ k ∈ mask
  · obtain ⟨l', hl', hid', -⟩ := hfilled.written k hin.1 hin.2
    rw [hl] at hl'
    obtain rfl := Option.some.inj (Option.some.inj hl')
    exact ⟨by exact_mod_cast hid.symm.trans hid', hin.2⟩
  · have hnone := hfilled.empty k hlt hin
    rw [hl] at hnone
    cases hnone

lemma UnitsListed.contiguous (h : UnitsListed d T r)
    (hfilled : Filled d T mask (List.range maxLuns) (r.nluns + 1) r.luns) : UnitsContiguous d T := by
  intro i j hij hj hdir
  obtain ⟨k, hk⟩ := List.mem_iff_getElem?.mp (mem_unitsOf.mpr ⟨hj, hdir⟩)
  obtain rfl := (h.number hfilled hk).1
  have hlt : i < (unitsOf d T).length := lt_of_le_of_lt hij (List.getElem?_eq_some_iff.mp hk).1
  have hi := List.getElem?_eq_getElem hlt
  have hmem := List.mem_of_getElem? hi
  rw [(h.number hfilled hi).1] at hmem
  exact (mem_unitsOf.mp hmem).2

lemma UnitsListed.seen (h : UnitsListed d T r)
    (hfilled : Filled d T mask (List.range maxLuns) (r.nluns + 1) r.luns) (hi : i < maxLuns)
    (hdir : T.IsDir (lunAt d i)) : i ∈ mask := by
  obtain ⟨k, hk⟩ := List.mem_iff_getElem?.mp (mem_unitsOf.mpr ⟨hi, hdir⟩)
  obtain ⟨rfl, hmask⟩ := h.number hfilled hk
  exact hmask

/-- Units without gaps are at their numbers in the array. -/
lemma UnitsListed.of_contiguous (h : UnitsContiguous d T) (hmask : ∀ i, i ∈ mask ↔ i ∈ unitsOf d T)
    (hcount : r.nluns = (unitsOf d T).length)
    (hfilled : Filled d T mask (List.range maxLuns) (r.nluns + 1) r.luns) : UnitsListed d T r where
  count := hcount
  length := hfilled.length
  entries k i hk := by
    have hmem := List.mem_of_getElem? hk
    rw [h.unitsOf_eq] at hk
    obtain ⟨hlt, hget⟩ := List.getElem?_eq_some_iff.mp hk
    rw [List.getElem_range] at hget
    subst hget
    exact hfilled.written k (List.mem_range.mpr (mem_unitsOf.mp hmem).1) ((hmask k).mpr hmem)
  last := by
    refine hfilled.empty r.nluns (by omega) fun hin => ?_
    have hmem := (hmask _).mp hin.2
    rw [h.unitsOf_eq, List.mem_range, ← hcount] at hmem
    exact absurd hmem (lt_irrefl _)

end Listed

/-- Unless it returns an error, `usbg_f_ms_get_attrs` lists the units exactly when their numbers have no
gaps and none is overlooked. -/
theorem attrsListed_iff (M : Machine) (w : World Fs) (f : Func) (h : LunsOk f.dir w.tree f)
    (hrun : ∀ e s, usbgFMsGetAttrs M.kernel (w, f) ≠ (.fail e, s)) :
    AttrsListed M w f ↔ UnitsContiguous f.dir w.tree ∧ MaskSeen M w f := by
  have hstarted := msGetAttrsStart_ends (M := M) h
  rw [AttrsListed]
  rw [usbgFMsGetAttrs_eq] at hrun ⊢
  rcases hstart : msGetAttrsStart M.kernel (w, f) with ⟨⟨stall, nluns⟩ | e | _, s₀⟩
  swap
  · exact absurd (bind_fail hstart) (hrun e s₀)
  swap
  · rw [hstart] at hstarted
    exact hstarted.elim
  rw [hstart] at hstarted
  obtain ⟨ht, hok, hcount, -, -⟩ := hstarted
  dsimp only at hcount
  rw [bind_ok hstart]
  have hloop := msGetAttrsLoop_ends (M := M) (w := s₀.1) (f := s₀.2) (d := f.dir) (by rwa [ht]) (nluns + 1)
  have hrun' : ∀ e s, (List.range maxLuns).foldlM (msGetAttrsRound M.kernel)
      (List.replicate (nluns + 1) none) s₀ ≠ (.fail e, s) := by
    intro e s hfail
    exact hrun e s (by rw [bind_ok hstart, bind_fail hfail])
  -- the mask holds only units that are there; it misses none if it has been read from the directory
  have hmask : (∀ i < maxLuns, w.tree.IsDir (lunAt f.dir i) → i ∈ s₀.2.luns) →
      ∀ i, i ∈ s₀.2.luns ↔ i ∈ unitsOf f.dir w.tree := fun hseen i =>
    ⟨fun hi => mem_unitsOf.mpr (hok.sound i hi), fun hi => hseen i (mem_unitsOf.mp hi).1 (mem_unitsOf.mp hi).2⟩
  constructor
  · intro hlisted
    rcases hfill : (List.range maxLuns).foldlM (msGetAttrsRound M.kernel)
      (List.replicate (nluns + 1) none) s₀ with ⟨arr | e | _, s⟩
    · rw [show (s₀.1, s₀.2) = s₀ from rfl, hfill, ht] at hloop
      rw [bind_ok hfill] at hlisted
      refine ⟨UnitsListed.contiguous hlisted hloop, fun r s' hstart' i hi hdir => ?_⟩
      rw [hstart] at hstart'
      obtain ⟨-, rfl⟩ := Prod.mk.inj hstart'
      exact UnitsListed.seen hlisted hloop hi hdir
    · exact absurd hfill (hrun' e s)
    · rw [bind_undef hfill] at hlisted
      exact hlisted.elim
  · rintro ⟨hcontiguous, hseen⟩
    have hmask' := hmask (hseen _ s₀ hstart)
    have hcount' : nluns = (unitsOf f.dir w.tree).length := by
      rw [hcount, unitsOf]
      congr 1
      refine List.filter_congr fun i hi => decide_eq_decide.mpr ?_
      rw [hmask' i, mem_unitsOf]
      exact and_iff_right (List.mem_range.mp hi)
    refine Ends.bind (hloop.mono_undef (fun _ _ h => h) (fun _ _ h => h) ?_) ?_
    · rintro ⟨i, hi, hle⟩
      have hmem := (hmask' i).mp hi
      rw [hcontiguous.unitsOf_eq, List.mem_range, ← hcount'] at hmem
      omega
    · intro arr s hfilled
      rw [ht] at hfilled
      exact UnitsListed.of_contiguous hcontiguous hmask' hcount' hfilled

lemma lunsOk_units (ids : List ℕ) (h : ∀ e ∈ (unitsTree ids).entries, e.1.dropLast = unitsFunc.dir →
    scanIndex "lun.".toList (e.1.getLastD []) = .mismatch ∨
      ∃ i < maxLuns, e.1.getLastD [] = lunDir i ∧ e.2.isDir = true) :
    LunsOk unitsFunc.dir (worldOf (unitsTree ids)).tree unitsFunc := by
  rw [tree_worldOf]
  exact lunsOk_of_entries ⟨by decide, by decide +kernel⟩ rfl h

/-- How `usbg_f_ms_get_attrs` ends for a function with the units of these numbers. -/
def getAttrsUnits (ids : List ℕ) : Outcome UsbgError MsAttrsRead :=
  (usbgFMsGetAttrs (unitsMachine []).kernel (worldOf (unitsTree ids), unitsFunc)).1

/-- Two units, the numbers of which have no gap. -/
theorem attrsListed_two :
    AttrsListed (unitsMachine []) (worldOf (unitsTree [0, 1])) unitsFunc ↔
      UnitsContiguous unitsFunc.dir (worldOf (unitsTree [0, 1])).tree ∧
        MaskSeen (unitsMachine []) (worldOf (unitsTree [0, 1])) unitsFunc :=
  attrsListed_iff (unitsMachine []) (worldOf (unitsTree [0, 1])) unitsFunc
    (lunsOk_units [0, 1] (by decide +kernel))
    (by
      intro e s hfail
      have hok : getAttrsUnits [0, 1] = .ok ⟨true, 2, [some (unitAttrs 0 []), some (unitAttrs 1 []), none]⟩ := by
        decide +kernel
      rw [getAttrsUnits, hfail] at hok
      cases hok)

lemma not_attrsListed_of_last {r : MsAttrsRead} (hrun : (usbgFMsGetAttrs M.kernel (w, f)).1 = .ok r)
    (hlast : r.luns[r.nluns]? ≠ some none) : ¬ AttrsListed M w f := by
  intro h
  rw [AttrsListed] at h
  rcases hr : usbgFMsGetAttrs M.kernel (w, f) with ⟨_ | _ | _, s⟩
  · rw [hr] at h hrun
    obtain rfl := Outcome.ok.inj hrun
    exact hlast (UnitsListed.last h)
  · rw [hr] at hrun
    cases hrun
  · rw [hr] at hrun
    cases hrun

lemma not_attrsListed_of_undef (hrun : (usbgFMsGetAttrs M.kernel (w, f)).1 = .undef) :
    ¬ AttrsListed M w f := by
  intro h
  rw [AttrsListed] at h
  rcases hr : usbgFMsGetAttrs M.kernel (w, f) with ⟨_ | _ | _, s⟩ <;> rw [hr] at h hrun
  · cases hrun
  · cases hrun
  · exact h

lemma getAttrsUnits_gap :
    getAttrsUnits [0, 2] = .ok ⟨true, 2, [some (unitAttrs 0 []), none, some (unitAttrs 2 [])]⟩ := by
  decide +kernel

lemma getAttrsUnits_behind : getAttrsUnits [0, 3] = .undef := by decide +kernel

/-- With the units 0 and 2 the array has a null pointer before its end but none at it, and with the units
0 and 3 it is written behind its end. -/
theorem attrsListed_fails :
    ¬ AttrsListed (unitsMachine []) (worldOf (unitsTree [0, 2])) unitsFunc ∧
      ¬ AttrsListed (unitsMachine []) (worldOf (unitsTree [0, 3])) unitsFunc :=
  And.intro (not_attrsListed_of_last getAttrsUnits_gap (by decide))
    (not_attrsListed_of_undef getAttrsUnits_behind)

end Libusbgx
