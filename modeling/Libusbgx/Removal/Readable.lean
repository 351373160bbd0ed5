import Libusbgx.MassStorage.Index
import Libusbgx.Removal.Callbacks

/-!
# When `ms_remove` can read the mask

`init_luns` writes the mask at the number of every entry of the directory that looks like a unit.  An entry
without a number, or with one that is not in the range of the mask, leaves `ms_remove` without a meaning.
-/

namespace Libusbgx

open Prog Machine

variable {M : Machine} {w : World Fs} {T T' : Tree} {f f' : Func}

/-- Where the mask has still to be read and the directory can be listed, the numbers in the names of the
entries are in the range of the mask. -/
def MaskSound (M : Machine) (T : Tree) (f : Func) : Prop :=
  f.lunsInitiated = false → (f.dir ++ [[]]).Fits → (∃ n, M.fault n (.scandir (f.dir ++ [[]])) = none) →
    T.IsDir f.dir.resolve → NamesInRange f.dir.resolve T

/-- The same, for a function of any type. -/
def UnitsReadable (M : Machine) (T : Tree) (f : Func) : Prop := f.type = .massStorage → MaskSound M T f

lemma Shrinks.get (h : Shrinks T T') {q : Path} {n : Node CStr CStr} (hn : T'.get q = some n) : T.get q = some n := by
  rcases h q with heq | hnone
  · rw [← heq]
    exact hn
  · rw [hnone] at hn
    cases hn

/-- What is gone does no harm, and neither does a change of the mask. -/
lemma MaskSound.shrinks (h : MaskSound M T f) (hs : Shrinks T T') (hdir : f'.dir = f.dir)
    (hinit : f'.lunsInitiated = false → f.lunsInitiated = false) : MaskSound M T' f' := by
  intro hnew hfits hlisted hisDir name n hn
  rw [hdir] at hfits hlisted hisDir hn
  obtain ⟨made, hmade⟩ := FileTree.isDir_iff.mp hisDir
  exact h (hinit hnew) hfits hlisted (FileTree.isDir_iff.mpr ⟨made, hs.get hmade⟩) name n (hs.get hn)

lemma path_slash (f : Func) : f.path ++ [f.name, []] = f.dir ++ [[]] := by
  rw [Func.dir, List.append_assoc]
  rfl

lemma resolve_slash (f : Func) : (f.dir ++ [[]]).resolve = f.dir.resolve := by
  rw [Func.dir]
  cases f.path with
  | nil => rfl
  | cons a p => simp [Path.resolve, List.filter_cons]

/-! ## Reading the mask -/

/-- One round of the loop of `init_luns`. -/
def markLun {κ : Type} (e : Dirent) : On κ Func Unit :=
  match scanIndex "lun.".toList e.name with
  | .mismatch => pure ()
  | .eof => undef
  | .index id => if 0 ≤ id ∧ id < maxLuns then update (setLun id.toNat) else undef

/-- The name is none of a unit, or has a number in the range of the mask. -/
def Markable (e : Dirent) : Prop :=
  scanIndex "lun.".toList e.name = .mismatch ∨ ∃ i < maxLuns, scanIndex "lun.".toList e.name = .index i

lemma markLun_ends {e : Dirent} (h : Markable e) {s : World Fs × Func} :
    Ends (fun _ t => t.1 = s.1 ∧ ∃ luns, t.2 = { s.2 with luns }) (fun _ _ => False) False (markLun e s) := by
  rw [markLun]
  rcases h with hscan | ⟨i, hi, hscan⟩
  · rw [hscan]
    exact ⟨rfl, s.2.luns, rfl⟩
  · rw [hscan]
    dsimp only
    rw [if_pos (by omega)]
    exact ⟨rfl, _, rfl⟩

lemma markLun_undef {e : Dirent} (h : ¬ Markable e) (s : World Fs × Func) : markLun e s = (.undef, s) := by
  rw [markLun]
  cases hscan : scanIndex "lun.".toList e.name with
  | mismatch => exact absurd (.inl hscan) h
  | eof => rfl
  | index i =>
    dsimp only
    rw [if_neg fun hrange => h (.inr ⟨i.toNat, by omega, by rw [hscan, Int.toNat_of_nonneg hrange.1]⟩)]
    rfl

lemma forEach_markLun_undef {ds : List Dirent} (h : ∃ e ∈ ds, ¬ Markable e) (s : World Fs × Func) :
    (forEach markLun ds s).1 = .undef := by
  induction ds generalizing s with
  | nil => simp at h
  | cons d ds ih =>
    rw [forEach_cons]
    by_cases hd : Markable d
    · obtain ⟨e, he, hnot⟩ := h
      rcases List.mem_cons.mp he with rfl | he
      · exact absurd hd hnot
      · obtain ⟨⟨⟩, t, ht, -⟩ := (markLun_ends hd (s := s)).exists_ok
        rw [bind_ok ht]
        exact ih ⟨e, he, hnot⟩ t
    · rw [bind_undef (markLun_undef hd s)]

/-- Something has been done to the mask of the function, and nothing to the tree. -/
def MaskTouched (M : Machine) (T : Tree) (f : Func) (t : World Fs × Func) : Prop :=
  MaskSound M t.1.tree t.2 ∧ t.2.dir = f.dir ∧ t.1.tree = T

lemma MaskSound.touched (h : MaskSound M T f) {t : World Fs × Func} {luns : List ℕ} {init : Bool} (ht : t.1.tree = T)
    (hf' : t.2 = { f with luns, lunsInitiated := init }) (hinit : init = false → f.lunsInitiated = false) :
    MaskTouched M T f t := by
  have hdir : t.2.dir = f.dir := by rw [hf']; rfl
  rw [MaskTouched, ht]
  exact ⟨h.shrinks (Shrinks.refl _) hdir (by rw [hf']; exact hinit), hdir, rfl⟩

/-- `get_lun_mask`, where the names are in range -/
lemma getLunMask_ends_of_sound (h : MaskSound M w.tree f) :
    Ends (fun _ => MaskTouched M w.tree f) (fun _ _ => False) False (getLunMask M.kernel (w, f)) := by
  rw [getLunMask, self_bind_apply]
  refine Ends.bind (R := fun _ => MaskTouched M w.tree f) ?_ fun _ _ => id
  refine Ends.when (fun hnew => ?_) fun _ => ⟨h, rfl, rfl⟩
  have hinit : f.lunsInitiated = false := by simpa using hnew
  -- an error of the listing is dropped, and the mask is read again the next time
  refine Ends.attempt_bind (R := fun _ t => t.1.tree = w.tree ∧ ∃ luns, t.2 = { f with luns })
    (F := fun _ t => t.1.tree = w.tree ∧ t.2 = f) ?_ ?_ ?_
  · rw [initLuns, self_bind_apply]
    refine Ends.require_bind (fun hfits => ?_) fun _ => ⟨rfl, rfl⟩
    refine Ends.bind (R := fun (ds : List Dirent) t => (t.1.tree = w.tree ∧ t.2 = f) ∧
      ∀ e ∈ ds.filter fileSelect, Markable e) (ends_io (ends_numberedCall (c := .scandir _)
        (fun ds w' hf hexec _ => ?_) fun e w' _ ht _ => ⟨ht, rfl⟩)) ?_
    · obtain ⟨hread, ht⟩ := exec_scandir.mp hexec
      obtain ⟨hdir, rfl⟩ := readDir_eq_ok.mp hread
      refine ⟨⟨ht, rfl⟩, fun e he => ?_⟩
      obtain ⟨hmem, hsel⟩ := List.mem_filter.mp he
      obtain ⟨⟨name, n⟩, hn, rfl⟩ := List.mem_map.mp hmem
      rw [path_slash] at hfits hf hdir hn
      rw [resolve_slash] at hdir hn
      exact h hinit hfits ⟨_, hf⟩ hdir name n (FileTree.mem_children.mp hn) hsel
    · rintro ds ⟨w', f'⟩ ⟨⟨ht, hsame⟩, hds⟩
      dsimp only at ht hsame
      refine Ends.forEach (f := markLun) (I := fun t : World Fs × Func => t.1.tree = w.tree ∧
        ∃ luns, t.2 = { f with luns }) (fun e he t hI => ?_) ⟨ht, f.luns, hsame⟩
      refine (markLun_ends (hds e he)).mono ?_ fun _ _ h => h.elim
      rintro - u ⟨hw, luns, hu⟩
      obtain ⟨ht', luns', hf'⟩ := hI
      exact ⟨by rw [hw]; exact ht', luns, by rw [hu, hf']⟩
  · rintro - t ⟨ht, luns, hf'⟩
    have hdone : ({ t.2 with lunsInitiated := true } : Func) = { f with luns, lunsInitiated := true } := by rw [hf']
    exact h.touched (t := (t.1, { t.2 with lunsInitiated := true })) ht hdone fun h => by cases h
  · rintro e t ⟨ht, hf'⟩
    have hsame : t.2 = { f with luns := f.luns, lunsInitiated := f.lunsInitiated } := hf'
    exact h.touched ht hsame id

/-- Where reading the mask has a meaning, the names are in range. -/
lemma namesInRange_of_getLunMask (hinit : f.lunsInitiated = false) (hfits : (f.dir ++ [[]]).Fits)
    (hf : M.fault w.sys.log.length (.scandir (f.dir ++ [[]])) = none) (hdir : w.tree.IsDir f.dir.resolve)
    (h : (getLunMask M.kernel (w, f)).1 ≠ .undef) : NamesInRange f.dir.resolve w.tree := by
  intro name n hn hsel
  by_contra hnot
  refine h ?_
  have hexec : M.exec (.scandir (f.dir ++ [[]])) w.tree =
      .ok ((w.tree.children f.dir.resolve).map fun e => { name := e.1, isLink := e.2.isLink }, w.tree) :=
    exec_scandir.mpr ⟨readDir_eq_ok.mpr (by rw [resolve_slash]; exact ⟨hdir, rfl⟩), rfl⟩
  obtain ⟨w', hcall⟩ := numberedCall_ok hf hexec
  have hmem : (⟨name, n.isLink⟩ : Dirent) ∈ ((w.tree.children f.dir.resolve).map fun e =>
      ({ name := e.1, isLink := e.2.isLink } : Dirent)).filter fileSelect :=
    List.mem_filter.mpr ⟨List.mem_map.mpr ⟨(name, n), FileTree.mem_children.mpr hn, rfl⟩, hsel⟩
  obtain ⟨t, hloop⟩ : ∃ t, initLuns M.kernel (w, f) = (.undef, t) := by
    refine ⟨(initLuns M.kernel (w, f)).2, Prod.ext ?_ rfl⟩
    rw [initLuns, self_bind_apply]
    dsimp only
    rw [path_slash, require_of hfits, pure_bind, bind_ok (io_ok hcall)]
    exact forEach_markLun_undef ⟨_, hmem, hnot⟩ (w', f)
  rw [getLunMask, self_bind_apply, when_of (by simp [hinit])]
  have hattempt : attempt (initLuns M.kernel) (w, f) = (.undef, t) := by rw [attempt_apply, hloop]
  rw [bind_undef (bind_undef hattempt)]

/-! ## The callback -/

/-- `usbg_f_ms_rm_lun` -/
lemma usbgFMsRmLun_ends_of_sound (h : MaskSound M w.tree f) (i : ℕ) :
    Ends (fun _ t => MaskSound M t.1.tree t.2) (fun _ t => MaskSound M t.1.tree t.2) False
      (usbgFMsRmLun M.kernel i (w, f)) := by
  rw [usbgFMsRmLun]
  refine Ends.require_bind (fun _ => ?_) fun _ => h
  refine Ends.bind ((getLunMask_ends_of_sound h).mono (fun _ _ h => h) fun _ _ h => h.elim) ?_
  rintro luns ⟨w₁, f₁⟩ ⟨hsound, -, -⟩
  dsimp only at hsound
  rw [if_neg (by omega)]
  refine Ends.require_bind (fun _ => ?_) fun _ => hsound
  rw [self_bind_apply]
  refine Ends.require_bind (fun _ => ?_) fun _ => hsound
  refine Ends.bind (R := fun _ t => MaskSound M t.1.tree t.2) (ends_io (ends_rmdir (fun w' hrmdir _ => ?_)
    fun e w' _ ht _ => ?_)) fun _ t ht => ?_
  · obtain ⟨-, -, -, ht⟩ := rmdir_eq_ok.mp hrmdir
    rw [ht]
    exact hsound.shrinks (shrinks_prune _ _) rfl id
  · dsimp only
    rw [ht]
    exact hsound
  · exact ht.shrinks (Shrinks.refl _) rfl id

/-- `ms_remove`, where the names are in range -/
lemma msRemove_defined (h : MaskSound M w.tree f) (opts : RmOpts) : (msRemove M.kernel opts (w, f)).1 ≠ .undef := by
  have hends : Ends (fun _ t => MaskSound M t.1.tree t.2) (fun _ t => MaskSound M t.1.tree t.2) False
      (msRemove M.kernel opts (w, f)) := by
    rw [msRemove]
    refine Ends.bind ((getLunMask_ends_of_sound h).mono (fun _ _ h => h) fun _ _ h => h.elim) ?_
    rintro - t ⟨hsound, -, -⟩
    refine Ends.forEach (fun i _ s hs => ?_) hsound
    rw [self_bind_apply]
    exact Ends.when (fun _ => usbgFMsRmLun_ends_of_sound hs i) fun _ => hs
  exact hends.defined

end Libusbgx
