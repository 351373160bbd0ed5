import Libusbgx.Configfs.Calls
import Libusbgx.Source.Function.Uvc

/-!
# The frames of a video function

The directories of the frames, and the masks that `get_formats_mask` reads from them.  An entry of a
format directory counts for the number that `sscanf` finds in its name.
-/

namespace Libusbgx

open Prog Machine

/-! ## Directories -/

/-- The directory of the streams of the function in `d`. -/
def streamingAt (d : Path) : Path := d ++ [uvcPathStreaming]

/-- The format that a row of the masks is for. -/
def formatName (k : ℕ) : Path := formatNames.getD k []

/-- The directory of a format. -/
def formatAt (d : Path) (k : ℕ) : Path := streamingAt d ++ formatName k

/-- The directory of a frame of a format. -/
def frameIn (d : Path) (k i : ℕ) : Path := formatAt d k ++ [frameDir i]

/-- A row of the masks. -/
def Func.row (f : Func) (k : ℕ) : List ℕ := f.frames.getD k []

section Paths

variable {d : Path} {f : Func} {i j k : ℕ} {format : Path}

lemma frameDir_ne_nil (id : ℤ) : frameDir id ≠ [] := List.append_ne_nil_of_left_ne_nil (by decide) _

lemma uvcPathStreaming_ne_nil : uvcPathStreaming ≠ [] := by decide

lemma formatName_ne_nil : ∀ name ∈ formatName k, name ≠ [] := by
  have key : ∀ p ∈ formatNames, ∀ name ∈ p, name ≠ [] := by decide
  intro name hname
  rw [formatName, List.getD_eq_getElem?_getD] at hname
  cases hk : formatNames[k]? with
  | none =>
    rw [hk] at hname
    cases hname
  | some p =>
    rw [hk] at hname
    exact key p (List.mem_of_getElem? hk) name hname

lemma scanIndex_frameDir (hi : i < maxFrames) : scanIndex "frame.".toList (frameDir i) = .index i := by
  have key : ∀ i < maxFrames, scanIndex "frame.".toList (frameDir (i : ℕ)) = .index i := by decide
  exact key i hi

lemma frameDir_injective (hi : i < maxFrames) (hj : j < maxFrames) (h : frameDir i = frameDir j) : i = j := by
  have hscan := scanIndex_frameDir hi
  rw [h, scanIndex_frameDir hj] at hscan
  exact (Int.ofNat.inj (IndexScan.index.inj hscan)).symm

lemma resolve_formatPath (hclean : f.dir.Clean) (format : Path) :
    (uvcFormatPath f format).resolve = streamingAt f.dir ++ format.filter (· ≠ []) := by
  have hpath : uvcFormatPath f format = f.dir ++ (uvcPathStreaming :: (format ++ [[]])) := by
    simp [uvcFormatPath, Func.dir]
  rw [hpath, hclean.resolve_append]
  simp [streamingAt, uvcPathStreaming_ne_nil]

lemma filter_formatName (k : ℕ) : (formatName k).filter (· ≠ []) = formatName k :=
  List.filter_eq_self.mpr (by simpa using formatName_ne_nil)

end Paths

/-! ## Reading the masks -/

section Masks

variable {M : Machine} {w : World Fs} {f : Func} {k : ℕ} {s : World Fs × Func}

/-- The entries of the format directory are read: the scan is not refused when its turn comes. -/
def Listed (M : Machine) (w : World Fs) (f : Func) (k : ℕ) : Prop :=
  (uvcFormatPath f (formatName k)).Fits ∧
    M.fault (w.sys.log.length + k) (.scandir (uvcFormatPath f (formatName k))) = none ∧
      w.tree.IsDir (formatAt f.dir k)

/-- An entry of the format directory for which the number `i` is found. -/
def Counts (T : Tree) (d : Path) (k i : ℕ) : Prop :=
  ∃ name n, T.get (formatAt d k ++ [name]) = some n ∧ fileSelect ⟨name, n.isLink⟩ = true ∧
    scanIndex "frame.".toList name = .index i

/-- All numbers that are found in the format directory are in the range of the masks. -/
def Countable (T : Tree) (d : Path) (k : ℕ) : Prop :=
  ∀ name n, T.get (formatAt d k ++ [name]) = some n → fileSelect ⟨name, n.isLink⟩ = true →
    scanIndex "frame.".toList name = .mismatch ∨ ∃ i < maxFrames, scanIndex "frame.".toList name = .index i

/-- What `get_formats_mask` has in a row. -/
def RowRead (M : Machine) (w : World Fs) (f : Func) (k i : ℕ) : Prop :=
  i ∈ f.row k ∨ f.formatsInitiated = false ∧ Listed M w f k ∧ Counts w.tree f.dir k i

/-- `get_formats_mask` only writes to the masks. -/
def RowsReadable (M : Machine) (w : World Fs) (f : Func) : Prop :=
  f.formatsInitiated = false → ∀ k < maxFormats, Listed M w f k → Countable w.tree f.dir k

/-- Nothing but the masks has changed, which have grown by the frames in `new`. -/
structure RowsGrown (f f' : Func) (new : ℕ → ℕ → Prop) : Prop where
  dir : f'.dir = f.dir
  path : ∀ format, uvcFormatPath f' format = uvcFormatPath f format
  length : f'.frames.length = f.frames.length
  mem : ∀ k i, i ∈ f'.row k ↔ i ∈ f.row k ∨ new k i

lemma RowsGrown.refl (f : Func) : RowsGrown f f fun _ _ => False :=
  ⟨rfl, fun _ => rfl, rfl, fun _ _ => by simp⟩

lemma RowsGrown.congr {f' : Func} {new new' : ℕ → ℕ → Prop} (h : RowsGrown f f' new)
    (hnew : ∀ k i, new k i ↔ new' k i) : RowsGrown f f' new' :=
  ⟨h.dir, h.path, h.length, fun k i => (h.mem k i).trans (or_congr_right (hnew k i))⟩

lemma RowsGrown.trans {f' f'' : Func} {new new' : ℕ → ℕ → Prop} (h : RowsGrown f f' new)
    (h' : RowsGrown f' f'' new') : RowsGrown f f'' fun k i => new k i ∨ new' k i where
  dir := h'.dir.trans h.dir
  path format := (h'.path format).trans (h.path format)
  length := h'.length.trans h.length
  mem k i := by rw [h'.mem, h.mem, or_assoc]

lemma rowsGrown_setFrame {j i : ℕ} (hj : j < f.frames.length) :
    RowsGrown f (setFrame j i f) fun k i' => k = j ∧ i' = i := by
  refine ⟨rfl, fun _ => rfl, by simp [setFrame], fun k i' => ?_⟩
  rw [Func.row, Func.row, setFrame, List.getD_eq_getElem?_getD, List.getD_eq_getElem?_getD,
    List.getElem?_modify]
  by_cases hk : j = k
  · subst hk
    rw [List.getElem?_eq_getElem hj]
    simp [or_comm]
  · simp [hk, Ne.symm hk]

lemma exists_mem_concat {β : Type} {P : β → Prop} {l : List β} {b : β} :
    (∃ e ∈ l ++ [b], P e) ↔ (∃ e ∈ l, P e) ∨ P b := by
  simp [or_and_right, exists_or]

/-- The loop of `init_frames` -/
lemma markFrames_ends (hk : k < f.frames.length) (ds : List Dirent) {w : World Fs} :
    Ends (fun _ s => s.1 = w ∧ (∀ e ∈ ds, scanIndex "frame.".toList e.name = .mismatch ∨
        ∃ i < maxFrames, scanIndex "frame.".toList e.name = .index i) ∧
        RowsGrown f s.2 fun k' i => k' = k ∧ ∃ e ∈ ds, scanIndex "frame.".toList e.name = .index i)
      (fun _ _ => False)
      (¬ ∀ e ∈ ds, scanIndex "frame.".toList e.name = .mismatch ∨
        ∃ i < maxFrames, scanIndex "frame.".toList e.name = .index i)
      (forEach (fun e : Dirent =>
        match scanIndex "frame.".toList e.name with
        | .mismatch => pure ()
        | .eof => undef
        | .index id => if 0 ≤ id ∧ id < maxFrames then update (setFrame k id.toNat) else undef) ds (w, f)) := by
  -- exactly the frames of the names that are done are marked
  refine Ends.forEachDone (fun (done : List Dirent) (s : World Fs × Func) => s.1 = w ∧
    (∀ e ∈ done, scanIndex "frame.".toList e.name = .mismatch ∨
      ∃ i < maxFrames, scanIndex "frame.".toList e.name = .index i) ∧
    RowsGrown f s.2 fun k' i => k' = k ∧ ∃ e ∈ done, scanIndex "frame.".toList e.name = .index i) ?_
    ⟨rfl, by simp, (RowsGrown.refl f).congr (by simp)⟩
  rintro done e ⟨w', f'⟩ hdone ⟨rfl, hcounted, hgrown⟩
  have he : e ∈ ds := hdone.subset (by simp)
  have hall : ∀ (_ : scanIndex "frame.".toList e.name = .mismatch ∨
      ∃ i < maxFrames, scanIndex "frame.".toList e.name = .index i), ∀ e' ∈ done ++ [e],
      scanIndex "frame.".toList e'.name = .mismatch ∨ ∃ i < maxFrames, scanIndex "frame.".toList e'.name = .index i := by
    intro hnew e' he'
    rcases List.mem_append.mp he' with he' | he'
    · exact hcounted e' he'
    · exact List.mem_singleton.mp he' ▸ hnew
  cases hscan : scanIndex "frame.".toList e.name with
  | mismatch =>
    refine ⟨rfl, hall (.inl hscan), hgrown.congr fun k' i => and_congr_right fun _ => ?_⟩
    rw [exists_mem_concat, hscan]
    exact (or_iff_left (fun h => by cases h)).symm
  | eof =>
    intro hall
    -- `sscanf` finds no number and the index is not set
    rcases hall e he with h | ⟨i, -, h⟩ <;> cases hscan.symm.trans h
  | index id =>
    refine Ends.ite (fun hid => ?_) fun hid hall => ?_
    · obtain ⟨i, rfl⟩ := Int.eq_ofNat_of_zero_le hid.1
      refine ⟨rfl, hall (.inr ⟨i, by exact_mod_cast hid.2, hscan⟩),
        (hgrown.trans (rowsGrown_setFrame (hgrown.length ▸ hk))).congr fun k' i' => ?_⟩
      rw [Int.toNat_natCast, ← and_or_left]
      refine and_congr_right fun _ => ?_
      rw [exists_mem_concat, hscan, IndexScan.index.injEq, Nat.cast_inj, @eq_comm _ i']
    · rcases hall e he with h | ⟨i, hi, h⟩
      · cases hscan.symm.trans h
      · cases hscan.symm.trans h
        exact hid ⟨by omega, by exact_mod_cast hi⟩

/-- The scan of a format directory is not refused now. -/
def ListedNow (M : Machine) (w : World Fs) (f : Func) (k : ℕ) : Prop :=
  (uvcFormatPath f (formatName k)).Fits ∧
    M.fault w.sys.log.length (.scandir (uvcFormatPath f (formatName k))) = none ∧
      w.tree.IsDir (formatAt f.dir k)

/-- `init_frames` -/
lemma initFrames_ends (hclean : f.dir.Clean) (hk : k < f.frames.length) :
    Ends (fun _ s => (ListedNow M w f k ∧ Countable w.tree f.dir k) ∧ s.1.tree = w.tree ∧
        s.1.sys.log.length = w.sys.log.length + 1 ∧
        RowsGrown f s.2 fun k' i => k' = k ∧ Counts w.tree f.dir k i)
      (fun _ s => ¬ ListedNow M w f k ∧ s.1.tree = w.tree ∧
        ((uvcFormatPath f (formatName k)).Fits → s.1.sys.log.length = w.sys.log.length + 1) ∧ s.2 = f)
      (ListedNow M w f k ∧ ¬ Countable w.tree f.dir k)
      (initFrames M.kernel k (formatName k) (w, f)) := by
  have hresolve : (uvcFormatPath f (formatName k)).resolve = formatAt f.dir k := by
    rw [resolve_formatPath hclean, filter_formatName]
    rfl
  rw [initFrames, self_bind_apply]
  refine Ends.require_bind (fun hfits => ?_) fun hfits => ⟨fun h => hfits h.1, rfl, fun h => absurd h hfits, rfl⟩
  refine Ends.bind (R := fun (ds : List Dirent) s => s.2 = f ∧ ListedNow M w f k ∧ s.1.tree = w.tree ∧
    s.1.sys.log.length = w.sys.log.length + 1 ∧
      ∀ e : Dirent, e ∈ ds ↔ ∃ n, w.tree.get (formatAt f.dir k ++ [e.name]) = some n ∧ e.isLink = n.isLink) ?_ ?_
  · refine ends_io (ends_numberedCall (c := .scandir (uvcFormatPath f (formatName k))) (fun ds w' hf hexec hlog => ?_) fun e w' hwhy ht hlog => ?_)
    · obtain ⟨hread, ht⟩ := exec_scandir.mp hexec
      obtain ⟨hdir, rfl⟩ := readDir_eq_ok.mp hread
      rw [hresolve] at hdir
      refine ⟨rfl, ⟨hfits, hf, hdir⟩, ht, by rw [hlog, List.length_cons], fun e => ?_⟩
      rw [hresolve, List.mem_map]
      constructor
      · rintro ⟨⟨name, n⟩, hmem, rfl⟩
        exact ⟨n, FileTree.mem_children.mp hmem, rfl⟩
      · rintro ⟨n, hn, hlink⟩
        exact ⟨(e.name, n), FileTree.mem_children.mpr hn, by rw [← hlink]⟩
    · refine ⟨fun hlisted => ?_, ht, fun _ => by rw [hlog, List.length_cons], rfl⟩
      obtain ⟨errno, herr⟩ := hwhy hlisted.2.1
      have hok : readDir w.tree (uvcFormatPath f (formatName k)).resolve = .ok _ :=
        readDir_eq_ok.mpr ⟨hresolve ▸ hlisted.2.2, rfl⟩
      rw [exec, hok] at herr
      cases herr
  · rintro ds ⟨w', f'⟩ ⟨rfl, hlisted, ht, hlog, hds⟩
    -- what is in the listing is what is in the tree
    refine (markFrames_ends hk _).mono_undef ?_ (fun _ _ h => h.elim) fun hnot => ⟨hlisted, fun hall => hnot ?_⟩
    · rintro - s ⟨rfl, hcounted, hgrown⟩
      refine ⟨⟨hlisted, fun name n hn hsel => ?_⟩, ht, hlog,
        hgrown.congr fun k' i => and_congr_right fun _ => ⟨?_, ?_⟩⟩
      · exact hcounted ⟨name, n.isLink⟩ (List.mem_filter.mpr ⟨(hds _).mpr ⟨n, hn, rfl⟩, hsel⟩)
      · rintro ⟨e, he, hscan⟩
        obtain ⟨n, hn, hlink⟩ := (hds e).mp (List.mem_of_mem_filter he)
        have hsel := (List.mem_filter.mp he).2
        rw [show e = ⟨e.name, n.isLink⟩ by rw [← hlink]] at hsel
        exact ⟨e.name, n, hn, hsel, hscan⟩
      · rintro ⟨name, n, hn, hsel, hscan⟩
        exact ⟨⟨name, n.isLink⟩, List.mem_filter.mpr ⟨(hds _).mpr ⟨n, hn, rfl⟩, hsel⟩, hscan⟩
    · intro e he
      obtain ⟨n, hn, hlink⟩ := (hds e).mp (List.mem_of_mem_filter he)
      have hsel := (List.mem_filter.mp he).2
      rw [show e = ⟨e.name, n.isLink⟩ by rw [← hlink]] at hsel
      exact hall e.name n hn hsel

/-- One round of `get_formats_mask` -/
lemma maskRound_ends (hclean : f.dir.Clean) (hk : k < f.frames.length) :
    Ends (fun _ s => (ListedNow M w f k → Countable w.tree f.dir k) ∧ s.1.tree = w.tree ∧
        ((uvcFormatPath f (formatName k)).Fits → s.1.sys.log.length = w.sys.log.length + 1) ∧
        RowsGrown f s.2 fun k' i => k' = k ∧ ListedNow M w f k ∧ Counts w.tree f.dir k i)
      (fun _ _ => False) (ListedNow M w f k ∧ ¬ Countable w.tree f.dir k)
      ((attempt (initFrames M.kernel k (formatName k)) >>= fun
        | .ok _ => pure ()
        | .error _ => update fun f => { f with formatsInitiated := false }) (w, f)) := by
  refine Ends.bind (R := fun r s => (ListedNow M w f k → Countable w.tree f.dir k) ∧ s.1.tree = w.tree ∧
    ((uvcFormatPath f (formatName k)).Fits → s.1.sys.log.length = w.sys.log.length + 1) ∧
    RowsGrown f s.2 fun k' i => k' = k ∧ ListedNow M w f k ∧ Counts w.tree f.dir k i)
    (Ends.attempt ((initFrames_ends hclean hk).mono_undef ?_ ?_ id)) ?_
  · rintro - s ⟨⟨hlisted, hcounted⟩, ht, hlog, hgrown⟩
    exact ⟨fun _ => hcounted, ht, fun _ => hlog, hgrown.congr fun k' i => by simp [hlisted]⟩
  · rintro e s ⟨hnot, ht, hlog, hs⟩
    refine ⟨fun hlisted => absurd hlisted hnot, ht, hlog, ?_⟩
    rw [hs]
    exact (RowsGrown.refl f).congr fun k' i => by simp [hnot]
  · rintro (e | _) s ⟨hcounted, ht, hlog, hgrown⟩
    · exact ⟨hcounted, ht, hlog, hgrown.dir, hgrown.path, hgrown.length, hgrown.mem⟩
    · exact ⟨hcounted, ht, hlog, hgrown⟩

lemma fits_formatPath (h : (uvcFormatPath f (formatName 1)).Fits) : (uvcFormatPath f (formatName 0)).Fits := by
  refine lt_of_le_of_lt ?_ h
  have hmjpeg : ((formatName 0).map List.length).sum = 6 ∧ (formatName 0).length = 2 := by decide
  have huncompressed : ((formatName 1).map List.length).sum = 13 ∧ (formatName 1).length = 2 := by decide
  simp only [Path.len, uvcFormatPath, List.map_append, List.sum_append, List.length_append, hmjpeg, huncompressed]
  omega

/-- The masks after `get_formats_mask` -/
lemma getFormatsMask_ends (hclean : f.dir.Clean) (hlen : f.frames.length = maxFormats) :
    Ends (fun _ s => RowsReadable M w f ∧ s.1.tree = w.tree ∧ RowsGrown f s.2 fun k i => k < maxFormats ∧
        f.formatsInitiated = false ∧ Listed M w f k ∧ Counts w.tree f.dir k i)
      (fun _ _ => False) (¬ RowsReadable M w f) (getFormatsMask M.kernel (w, f)) := by
  rw [getFormatsMask, self_bind_apply]
  refine Ends.when (fun hnew => ?_) fun hknown =>
    ⟨fun hnew => absurd (by simp [hnew]) hknown, rfl, (RowsGrown.refl f).congr fun k i => ?_⟩
  swap
  · simp only [false_iff]
    rintro ⟨-, hnew, -⟩
    exact hknown (by simp [hnew])
  have hinit : f.formatsInitiated = false := by simpa using hnew
  rw [update_bind_apply]
  -- the flag is set, the rows are as they were
  obtain ⟨f₀, hf₀⟩ : ∃ f₀, f₀ = { f with formatsInitiated := true } := ⟨_, rfl⟩
  have hgrown₀ : RowsGrown f f₀ fun _ _ => False := by
    rw [hf₀]
    exact ⟨rfl, fun _ => rfl, rfl, fun _ _ => by simp [Func.row]⟩
  have hlisted₀ : ListedNow M w f₀ 0 ↔ Listed M w f 0 := by
    rw [ListedNow, Listed, hgrown₀.path, hgrown₀.dir, Nat.add_zero]
  rw [← hf₀]
  refine Ends.bind ((maskRound_ends (M := M) (k := 0) (hgrown₀.dir ▸ hclean)
    (by rw [hgrown₀.length, hlen]; decide)).mono_undef (fun _ _ h => h) (fun _ _ h => h.elim) ?_) ?_
  · rintro ⟨hlisted, hnot⟩ hall
    rw [hgrown₀.dir] at hnot
    exact hnot (hall hinit 0 (by decide) (hlisted₀.mp hlisted))
  rintro - ⟨w₁, f₁⟩ ⟨hcounted₁, ht₁, hlog₁, hgrown₁⟩
  dsimp only at ht₁ hlog₁ hgrown₁
  rw [hgrown₀.path] at hlog₁
  have hgrown := hgrown₀.trans hgrown₁
  have hlisted₁ : ListedNow M w₁ f₁ 1 ↔ Listed M w f 1 := by
    rw [ListedNow, Listed, hgrown.path, hgrown.dir, ht₁]
    refine and_congr_right fun hfits => ?_
    rw [hlog₁ (fits_formatPath hfits)]
  refine Ends.bind ((maskRound_ends (M := M) (k := 1) (hgrown.dir ▸ hclean)
    (by rw [hgrown.length, hlen]; decide)).mono_undef (fun _ _ h => h) (fun _ _ h => h.elim) ?_) ?_
  · rintro ⟨hlisted, hnot⟩ hall
    rw [hgrown.dir, ht₁] at hnot
    exact hnot (hall hinit 1 (by decide) (hlisted₁.mp hlisted))
  rintro - ⟨w₂, f₂⟩ ⟨hcounted₂, ht₂, -, hgrown₂⟩
  have hcases : ∀ k < maxFormats, k = 0 ∨ k = 1 := by
    intro k hk
    rw [maxFormats] at hk
    omega
  rw [hlisted₀, hgrown₀.dir] at hcounted₁
  rw [hlisted₁, hgrown.dir, ht₁] at hcounted₂
  refine ⟨fun _ k hk => ?_, ht₂.trans ht₁, (hgrown.trans hgrown₂).congr fun k i => ?_⟩
  · rcases hcases k hk with rfl | rfl
    · exact hcounted₁
    · exact hcounted₂
  rw [hlisted₀, hlisted₁, hgrown₀.dir, hgrown.dir, ht₁]
  constructor
  · rintro ((h | ⟨rfl, hlisted, hcounts⟩) | ⟨rfl, hlisted, hcounts⟩)
    · exact h.elim
    · exact ⟨by decide, hinit, hlisted, hcounts⟩
    · exact ⟨by decide, hinit, hlisted, hcounts⟩
  · rintro ⟨hk, -, hlisted, hcounts⟩
    rcases hcases k hk with rfl | rfl
    · exact .inl (.inr ⟨rfl, hlisted, hcounts⟩)
    · exact .inr ⟨rfl, hlisted, hcounts⟩

end Masks

end Libusbgx
