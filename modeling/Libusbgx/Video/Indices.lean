import Libusbgx.Base.Watched
import Libusbgx.Video.Frames

/-!
# The indices of the frames

`init_frames` and `usbg_f_uvc_create_frame` once more, with the indices at which they access the masks.  The
first takes an index from the name of every entry that `frame_select` lets through.
-/

namespace Libusbgx

open Prog Watched

/-! ## The functions with their accesses -/

section Accesses

variable {κ : Type} (K : Kernel κ)

/-- `frame_select`: any result of `sscanf` but 0 selects the entry, also `EOF`. -/
def frameSelect (d : Dirent) : Bool := fileSelect d ∧ scanIndex "frame.".toList d.name ≠ .mismatch

/-- The variable `id` after `sscanf`, which sets it only when it has found a number. -/
def scannedId (id : Option ℤ) (name : CStr) : Option ℤ :=
  match scanIndex "frame.".toList name with
  | .index i => some i
  | _ => id

/-- Set the index of the mask of the format number `j`. -/
def markFrame (j : ℕ) (id : Option ℤ) : On κ Func Unit :=
  match id with
  | some i => if 0 ≤ i ∧ i < maxFrames then update (setFrame j i.toNat) else undef
  | none => undef

/-- The loop of `init_frames`, from a value of `id` on; `none` is a variable that has not been set.  An access is
the name of the entry and the index. -/
def initFramesLoop (j : ℕ) (id : Option ℤ) : List Dirent → Watched UsbgError (World κ × Func) (CStr × Option ℤ) Unit
  | [] => pure ()
  | d :: ds => do
    access [(d.name, scannedId id d.name)] (markFrame j (scannedId id d.name))
    initFramesLoop j (scannedId id d.name) ds

/-- `init_frames`.  `sort` is what `qsort` makes of the selected entries: with names without a number
`frame_sort` is no order, and nothing is known of the result but that it has these entries. -/
def initFramesIndexed (sort : List Dirent → List Dirent) (j : ℕ) (format : Path) :
    Watched UsbgError (World κ × Func) (CStr × Option ℤ) Unit := do
  let f ← quiet self
  quiet (require (uvcFormatPath f format).Fits .pathTooLong)
  let ds ← quiet (io (call K (.scandir (uvcFormatPath f format))))
  initFramesLoop j none (sort (ds.filter frameSelect))

/-- `usbg_f_uvc_set_frame_attrs`; the fields of the structure are given by their names. -/
def usbgFUvcSetFrameAttrs (f : Func) (format : Path) (frameId : ℤ) (fattrs : CStr → ℤ) : Io κ Unit :=
  forEach (fun a => usbgFUvcSetFrameAttrVal K f format frameId a (.int (fattrs a.name))) uvcFrameAttr

/-- `usbg_f_uvc_create_frame`, where `frames` is the mask of the format number `j` -/
def usbgFUvcCreateFrameIndexed (format : Path) (j : ℕ) (frameId : ℤ) (fattrs : Option (CStr → ℤ)) :
    Watched UsbgError (World κ × Func) ℤ Unit := do
  quiet (require (frameId < maxFrames) .invalidParam)
  let f ← quiet self
  let frames ← quiet (deref f.frames[j]?)
  if frameId < 0 then access [frameId] undef
  else
    access [frameId] (require (frameId.toNat ∉ frames) .exist)
    quiet (require (uvcFramePath f format frameId).Fits .pathTooLong)
    quiet (io (uvcCreateDir K (uvcFramePath f format frameId)))
    quiet (io (whenSome (fun fattrs =>
      Prog.onFail (usbgFUvcSetFrameAttrs K f format frameId fattrs)
        (tryCall K (.rmdir (uvcFramePath f format frameId)))) fattrs))
    access [frameId] (update (setFrame j frameId.toNat))

end Accesses

/-! ## Names -/

/-- The name is `frame.N`, and `i` is what an `int` has of the number. -/
def IsFrame (name : CStr) (i : ℤ) : Prop :=
  ∃ s v, name = "frame.".toList ++ s ∧ Spells 10 s v ∧ i = toInt (clampLong v).1

/-- An entry that the masks have a place for. -/
def HasPlace (name : CStr) : Prop := ∃ i, IsFrame name i ∧ 0 ≤ i ∧ i < maxFrames

/-- The access is made for an entry `frame.N`, and at the index `N`, which is in the range of the masks. -/
def FrameAllowed (a : CStr × Option ℤ) : Prop := ∃ i, IsFrame a.1 i ∧ a.2 = some i ∧ 0 ≤ i ∧ i < maxFrames

lemma scanIndex_of_isFrame {name : CStr} {i : ℤ} (h : IsFrame name i) : scanIndex "frame.".toList name = .index i := by
  obtain ⟨s, v, rfl, hs, rfl⟩ := h
  have hlonger : ¬ "frame.".toList ++ s <+: "frame.".toList := by
    intro hpre
    have hlength := hpre.length_le
    rw [List.length_append] at hlength
    exact hs.ne_nil (List.length_eq_zero_iff.mp (by omega))
  have hdrop : s.dropWhile isSpace = s := by
    obtain ⟨c, t, rfl⟩ := List.exists_cons_of_ne_nil hs.ne_nil
    exact List.dropWhile_cons_of_neg (by simpa using hs.no_blank)
  rw [scanIndex, if_neg hlonger, if_pos (List.prefix_append _ _), List.drop_left, hdrop]
  dsimp only
  rw [if_neg hs.ne_nil, hs.strtol_eq, if_neg hs.ne_nil.symm]

section

variable {κ : Type} {K : Kernel κ} {j : ℕ} {format : Path} {w : World κ} {f : Func} {s : World κ × Func}

/-! ## The loop -/

lemma allowed_initFramesLoop {ds : List Dirent} (h : ∀ d ∈ ds, HasPlace d.name) (id : Option ℤ) (s : World κ × Func) :
    Allowed FrameAllowed (initFramesLoop j id ds) s := by
  induction ds generalizing id s with
  | nil => exact allowed_quiet _ _
  | cons d ds ih =>
    rw [initFramesLoop, allowed_bind]
    obtain ⟨i, hframe, hrange⟩ := h d (List.mem_cons_self ..)
    have hid : scannedId id d.name = some i := by
      rw [scannedId, scanIndex_of_isFrame hframe]
    refine ⟨?_, fun _ t _ => ih (fun d' hd' => h d' (List.mem_cons_of_mem d hd')) _ t⟩
    rw [allowed_access, List.forall_mem_singleton]
    exact ⟨i, hframe, hid, hrange⟩

/-- The first entry has found its number by itself. -/
lemma hasPlace_of_allowed {d : Dirent} {ds : List Dirent} (h : Allowed FrameAllowed (initFramesLoop j none (d :: ds)) s) :
    HasPlace d.name := by
  rw [initFramesLoop, allowed_bind, allowed_access, List.forall_mem_singleton] at h
  obtain ⟨⟨i, hframe, -, hrange⟩, -⟩ := h
  exact ⟨i, hframe, hrange⟩

/-- The masks are only accessed, in whatever order the entries are, for an entry `frame.N`, and at this index. -/
def InitFramesSafe (K : Kernel κ) (j : ℕ) (format : Path) (s : World κ × Func) : Prop :=
  ∀ sort : List Dirent → List Dirent, (∀ l, (sort l).Perm l) →
    Allowed FrameAllowed (initFramesIndexed K sort j format) s

/-- All entries in the directory of the format that `frame.%d` does not rule out have a place in the masks. -/
def EntriesInRange (K : Kernel κ) (format : Path) (w : World κ) (f : Func) : Prop :=
  (uvcFormatPath f format).Fits → ∀ ds : List Dirent, (K.call (.scandir (uvcFormatPath f format)) w.sys).1 = .ok ds →
    ∀ d ∈ ds, fileSelect d = true → scanIndex "frame.".toList d.name = .mismatch ∨ HasPlace d.name

/-! ### Reading the entries -/

/-- The entries are read: the part of `init_frames` before its loop. -/
def scanFormat (K : Kernel κ) (format : Path) : On κ Func (List Dirent) := do
  let f ← self
  require (uvcFormatPath f format).Fits .pathTooLong
  io (call K (.scandir (uvcFormatPath f format)))

lemma initFramesIndexed_eq (sort : List Dirent → List Dirent) : initFramesIndexed K sort j format =
    (quiet (scanFormat K format) >>= fun ds => initFramesLoop j none (sort (ds.filter frameSelect))) := by
  rw [initFramesIndexed, scanFormat, ← quiet_bind]
  exact congrArg _ (funext fun f => quiet_bind ..)

/-- The entries are there when the system answers, and nothing has been changed by it; else the function fails. -/
lemma scanFormat_cases (K : Kernel κ) (format : Path) (w : World κ) (f : Func) :
    (∃ ds : List Dirent, ((uvcFormatPath f format).Fits ∧
        (K.call (.scandir (uvcFormatPath f format)) w.sys).1 = .ok ds) ∧
      scanFormat K format (w, f) =
        (.ok ds, ({ w with sys := (K.call (.scandir (uvcFormatPath f format)) w.sys).2 }, f))) ∨
    (¬ ∃ ds : List Dirent, (uvcFormatPath f format).Fits ∧
        (K.call (.scandir (uvcFormatPath f format)) w.sys).1 = .ok ds) ∧
      ∃ e t, scanFormat K format (w, f) = (.fail e, t) := by
  rw [scanFormat, self_bind_apply]
  by_cases hfits : (uvcFormatPath f format).Fits
  · rw [require_of hfits, pure_bind]
    cases hcall : (K.call (.scandir (uvcFormatPath f format)) w.sys).1 with
    | ok ds => exact .inl ⟨ds, ⟨hfits, rfl⟩, io_ok (call_of_ok K hcall)⟩
    | error e =>
      refine .inr ⟨?_, usbgTranslateError e, _, io_fail (call_of_error K hcall)⟩
      rintro ⟨ds, -, hds⟩
      cases hds
  · rw [require_of_not hfits]
    exact .inr ⟨fun h => h.elim fun ds hds => hfits hds.1, .pathTooLong, _, rfl⟩

/-- What is left of a run of `init_frames` when the entries have been read. -/
lemma allowed_initFrames_iff (sort : List Dirent → List Dirent) :
    Allowed FrameAllowed (initFramesIndexed K sort j format) (w, f) ↔
      ((uvcFormatPath f format).Fits → ∀ ds : List Dirent,
        (K.call (.scandir (uvcFormatPath f format)) w.sys).1 = .ok ds →
          Allowed FrameAllowed (initFramesLoop j none (sort (ds.filter frameSelect)))
            ({ w with sys := (K.call (.scandir (uvcFormatPath f format)) w.sys).2 }, f)) := by
  rw [initFramesIndexed_eq]
  obtain ⟨ds, ⟨hfits, hds⟩, hscan⟩ | ⟨hnone, e, t, hscan⟩ := scanFormat_cases K format w f
  · rw [allowed_bind_quiet hscan]
    constructor
    · intro h _ ds' hds'
      obtain rfl := Except.ok.inj (hds.symm.trans hds')
      exact h
    · exact fun h => h hfits ds hds
  · exact iff_of_true (allowed_of_fail hscan).1 fun hfits ds hds => absurd ⟨ds, hfits, hds⟩ hnone

lemma frameSelect_iff {d : Dirent} :
    frameSelect d = true ↔ fileSelect d = true ∧ scanIndex "frame.".toList d.name ≠ .mismatch := decide_eq_true_iff

/-- The order in which an entry is the first. -/
def toFront (d : Dirent) (l : List Dirent) : List Dirent := if d ∈ l then d :: l.erase d else l

lemma toFront_perm (d : Dirent) (l : List Dirent) : (toFront d l).Perm l := by
  rw [toFront]
  split
  · next hdl => exact (List.perm_cons_erase hdl).symm
  · exact List.Perm.refl l

/-- `init_frames` is safe when the names are. -/
lemma initFramesSafe_iff : InitFramesSafe K j format (w, f) ↔ EntriesInRange K format w f := by
  constructor
  · intro h hfits ds hds d hd hsel
    by_contra hbad
    obtain ⟨hmismatch, hplace⟩ := not_or.mp hbad
    have hmem : d ∈ ds.filter frameSelect := List.mem_filter.mpr ⟨hd, frameSelect_iff.mpr ⟨hsel, hmismatch⟩⟩
    have hfirst := (allowed_initFrames_iff _).mp (h _ (toFront_perm d)) hfits ds hds
    rw [toFront, if_pos hmem] at hfirst
    exact hplace (hasPlace_of_allowed hfirst)
  · intro h sort hsort
    refine (allowed_initFrames_iff sort).mpr fun hfits ds hds => allowed_initFramesLoop (fun d hd => ?_) _ _
    obtain ⟨hd, hmem⟩ := List.mem_filter.mp ((hsort _).mem_iff.mp hd)
    obtain ⟨hsel, hmismatch⟩ := frameSelect_iff.mp hmem
    exact (h hfits ds hds d hd hsel).resolve_left hmismatch

/-! ## Creation -/

/-- The function fails, has changed nothing and has not looked at the masks. -/
def Refused (m : Watched UsbgError (World κ × Func) ℤ Unit) (s : World κ × Func) : Prop :=
  (∃ e, m.run s = (.fail e, s)) ∧ m.trace s = []

lemma refused_createFrame (frameId : ℤ) (fattrs : Option (CStr → ℤ)) :
    (¬ (0 ≤ frameId ∧ frameId < maxFrames) →
      Refused (usbgFUvcCreateFrameIndexed K format j frameId fattrs) (w, f)) ↔ 0 ≤ frameId := by
  constructor
  · intro h
    by_contra hneg
    have hless : frameId < maxFrames := by omega
    obtain ⟨⟨e, hrun⟩, -⟩ := h fun hrange => hneg hrange.1
    rw [usbgFUvcCreateFrameIndexed] at hrun
    simp only [if_pos (not_le.mp hneg), run_bind, run_quiet, run_access, require_of hless, pure_bind,
      self_bind_apply] at hrun
    cases hrow : f.frames[j]? with
    | none =>
      rw [hrow] at hrun
      cases hrun
    | some frames =>
      rw [hrow] at hrun
      cases hrun
  · intro h hout
    have hfail : require (frameId < maxFrames) UsbgError.invalidParam (w, f) = (.fail .invalidParam, (w, f)) := by
      rw [require_of_not fun hless => hout ⟨h, hless⟩]
      rfl
    obtain ⟨hnone, hrun⟩ := allowed_of_fail (P := fun _ : ℤ => False) hfail
    exact ⟨⟨.invalidParam, hrun⟩, List.eq_nil_iff_forall_not_mem.mpr hnone⟩

/-- All accesses are as they should be, and no index outside of the masks gets to them, exactly when the names in
the directory are in their range and the index is not negative. -/
theorem frames_safe_iff (K : Kernel κ) (j : ℕ) (format : Path) (w : World κ) (f : Func) (frameId : ℤ)
    (fattrs : Option (CStr → ℤ)) :
    (InitFramesSafe K j format (w, f) ∧ (¬ (0 ≤ frameId ∧ frameId < maxFrames) →
      Refused (usbgFUvcCreateFrameIndexed K format j frameId fattrs) (w, f))) ↔
    EntriesInRange K format w f ∧ 0 ≤ frameId := by
  rw [initFramesSafe_iff, refused_createFrame]

/-- A system with one directory, which has entries of these names. -/
def listing (names : List CStr) : Kernel Unit where
  call c s :=
    match c with
    | .scandir _ => (.ok (names.map fun name => ⟨name, false⟩), s)
    | _ => (.error .eio, s)
  stale _ := []

/-- A function whose masks have not been read. -/
def unreadFunc : Func :=
  .allocated 0 ["/c".toList, gadgetsDir, "g".toList, functionsDir] .uvc "0".toList

/-- Names at which `sscanf` finds no number but does not fail, or one that is not in the range of the masks, or
one that does not go to the end of the name; and an index below the masks. -/
theorem frames_safe_fails :
    (∀ name ∈ ["frame.", "fra", "frame.20", "frame.-1", "frame.1x"],
      ¬ InitFramesSafe (listing [name.toList]) 0 uvcPathStreamingMjpeg (⟨(), 0⟩, unreadFunc)) ∧
    ¬ (¬ ((0 : ℤ) ≤ -1 ∧ (-1 : ℤ) < maxFrames) →
      Refused (usbgFUvcCreateFrameIndexed (listing []) uvcPathStreamingMjpeg 0 (-1) none) (⟨(), 0⟩, unreadFunc)) := by
  refine ⟨fun name hname hsafe => ?_, fun h => absurd (refused_createFrame (-1) none |>.mp h) (by decide)⟩
  have key : ∀ name ∈ ["frame.", "fra", "frame.20", "frame.-1", "frame.1x"],
      fileSelect ⟨name.toList, false⟩ = true ∧ scanIndex "frame.".toList name.toList ≠ .mismatch ∧
        ((∀ i < maxFrames, scanIndex "frame.".toList name.toList ≠ .index (i : ℕ)) ∨
          (strtol 10 (name.toList.drop "frame.".toList.length)).rest ≠ []) := by
    decide
  obtain ⟨hsel, hmismatch, hscan⟩ := key name hname
  obtain ⟨i, hframe, hrange⟩ := ((initFramesSafe_iff.mp hsafe) (by decide) _ rfl ⟨name.toList, false⟩
    (List.mem_singleton.mpr rfl) hsel).resolve_left hmismatch
  rcases hscan with hscan | hrest
  · obtain ⟨i, rfl⟩ := Int.eq_ofNat_of_zero_le hrange.1
    exact hscan i (by exact_mod_cast hrange.2) (scanIndex_of_isFrame hframe)
  · obtain ⟨s, v, hs, hspells, -⟩ := hframe
    refine hrest ?_
    rw [show name.toList = "frame.".toList ++ s from hs, List.drop_left, hspells.strtol_eq]

/-! ## The runs -/

/-- One round of the loop of `init_frames` where no variable is left over from the last one. -/
def initFramesRound (j : ℕ) (d : Dirent) : On κ Func Unit :=
  match scanIndex "frame.".toList d.name with
  | .mismatch => pure ()
  | .eof => undef
  | .index id => if 0 ≤ id ∧ id < maxFrames then update (setFrame j id.toNat) else undef

/-- No number is found in the name, which is selected all the same, or one that is not in the range of the masks. -/
def OutOfRange (d : Dirent) : Prop :=
  scanIndex "frame.".toList d.name ≠ .mismatch ∧
    ∀ i : ℤ, scanIndex "frame.".toList d.name = .index i → ¬ (0 ≤ i ∧ i < maxFrames)

lemma initFramesRound_undef {d : Dirent} (h : OutOfRange d) (s : World κ × Func) :
    ∃ t, initFramesRound j d s = (.undef, t) := by
  rw [initFramesRound]
  cases hscan : scanIndex "frame.".toList d.name with
  | mismatch => exact absurd hscan h.1
  | eof => exact ⟨s, rfl⟩
  | index i =>
    dsimp only
    rw [if_neg (h.2 i hscan)]
    exact ⟨s, rfl⟩

lemma initFramesRound_ok {d : Dirent} (h : ¬ OutOfRange d) (s : World κ × Func) :
    ∃ t, initFramesRound j d s = (.ok (), t) := by
  rw [initFramesRound]
  cases hscan : scanIndex "frame.".toList d.name with
  | mismatch => exact ⟨s, rfl⟩
  | eof =>
    refine absurd ⟨fun hmismatch => ?_, fun i hi => ?_⟩ h
    · cases hscan.symm.trans hmismatch
    · cases hscan.symm.trans hi
  | index i =>
    dsimp only
    by_cases hrange : 0 ≤ i ∧ i < maxFrames
    · rw [if_pos hrange]
      exact ⟨_, rfl⟩
    · refine absurd ⟨fun hmismatch => ?_, fun i' hi' => ?_⟩ h
      · cases hscan.symm.trans hmismatch
      · cases hscan.symm.trans hi'
        exact hrange

lemma forEach_initFramesRound_undef_iff {ds : List Dirent} :
    (forEach (initFramesRound j) ds s).1 = .undef ↔ ∃ d ∈ ds, OutOfRange d := by
  induction ds generalizing s with
  | nil => simp [pure_apply]
  | cons d ds ih =>
    rw [forEach_cons]
    by_cases hd : OutOfRange d
    · obtain ⟨t, ht⟩ := initFramesRound_undef (j := j) hd s
      rw [bind_undef ht]
      exact iff_of_true rfl ⟨d, List.mem_cons_self .., hd⟩
    · obtain ⟨t, ht⟩ := initFramesRound_ok (j := j) hd s
      rw [bind_ok ht, ih]
      simp [hd]

/-- Where every entry has a number, the variable of the round before is not used. -/
lemma run_initFramesLoop {ds : List Dirent} (h : ∀ d ∈ ds, ∃ i, scanIndex "frame.".toList d.name = .index i)
    (id : Option ℤ) : (initFramesLoop (κ := κ) j id ds).run = forEach (initFramesRound j) ds := by
  induction ds generalizing id with
  | nil => rfl
  | cons d ds ih =>
    obtain ⟨i, hi⟩ := h d (List.mem_cons_self ..)
    have hround : markFrame j (scannedId id d.name) = (initFramesRound j d : On κ Func Unit) := by
      rw [scannedId, initFramesRound, hi]
      rfl
    rw [initFramesLoop, run_bind, run_access, hround, forEach_cons]
    exact bind_congr fun _ => ih (fun d' hd' => h d' (List.mem_cons_of_mem d hd')) _

lemma initFrames_eq : initFrames K j format =
    (scanFormat K format >>= fun ds => forEach (initFramesRound j) (ds.filter fileSelect)) := by
  rw [scanFormat, Prog.bind_assoc]
  refine bind_congr fun f => ?_
  rw [Prog.bind_assoc]
  rfl

/-- A run is undefined when what comes after the reading is. -/
lemma scanFormat_undef_iff (k : List Dirent → On κ Func Unit) : ((scanFormat K format >>= k) (w, f)).1 = .undef ↔
    ∃ ds : List Dirent, ((uvcFormatPath f format).Fits ∧
        (K.call (.scandir (uvcFormatPath f format)) w.sys).1 = .ok ds) ∧
      (k ds ({ w with sys := (K.call (.scandir (uvcFormatPath f format)) w.sys).2 }, f)).1 = .undef := by
  obtain ⟨ds, ⟨hfits, hds⟩, hscan⟩ | ⟨hnone, e, t, hscan⟩ := scanFormat_cases K format w f
  · rw [bind_ok hscan]
    constructor
    · exact fun h => ⟨ds, ⟨hfits, hds⟩, h⟩
    · rintro ⟨ds', ⟨-, hds'⟩, h⟩
      obtain rfl := Except.ok.inj (hds.symm.trans hds')
      exact h
  · rw [bind_fail hscan]
    refine iff_of_false (fun h => by cases h) ?_
    rintro ⟨ds, hds, -⟩
    exact hnone ⟨ds, hds⟩

lemma markFrame_undef {d : Dirent} (h : OutOfRange d) (s : World κ × Func) :
    ∃ t, markFrame j (scannedId none d.name) s = (.undef, t) := by
  rw [scannedId]
  cases hscan : scanIndex "frame.".toList d.name with
  | mismatch => exact absurd hscan h.1
  | eof => exact ⟨s, rfl⟩
  | index i => exact ⟨s, congrFun (if_neg (h.2 i hscan)) s⟩

/-- The masks are accessed at an index that is not set or not in their range, in some order of the entries,
exactly where the other functions take `init_frames` to be undefined. -/
theorem initFrames_undef_iff (K : Kernel κ) (j : ℕ) (format : Path) (w : World κ) (f : Func) :
    (initFrames K j format (w, f)).1 = .undef ↔
      ∃ sort : List Dirent → List Dirent, (∀ l, (sort l).Perm l) ∧
        ((initFramesIndexed K sort j format).run (w, f)).1 = .undef := by
  rw [initFrames_eq, scanFormat_undef_iff]
  have hindexed : ∀ sort : List Dirent → List Dirent, ((initFramesIndexed K sort j format).run (w, f)).1 = .undef ↔
      ∃ ds : List Dirent, ((uvcFormatPath f format).Fits ∧
          (K.call (.scandir (uvcFormatPath f format)) w.sys).1 = .ok ds) ∧
        ((initFramesLoop j none (sort (ds.filter frameSelect))).run
          ({ w with sys := (K.call (.scandir (uvcFormatPath f format)) w.sys).2 }, f)).1 = .undef := by
    intro sort
    rw [initFramesIndexed_eq, run_bind, run_quiet, scanFormat_undef_iff]
  simp only [hindexed]
  constructor
  · -- an entry that goes wrong does so in the order in which it comes first
    rintro ⟨ds, hread, hundef⟩
    obtain ⟨d, hd, hout⟩ := forEach_initFramesRound_undef_iff.mp hundef
    obtain ⟨hmem, hsel⟩ := List.mem_filter.mp hd
    have hselected : d ∈ ds.filter frameSelect := List.mem_filter.mpr ⟨hmem, frameSelect_iff.mpr ⟨hsel, hout.1⟩⟩
    refine ⟨toFront d, toFront_perm d, ds, hread, ?_⟩
    rw [toFront, if_pos hselected]
    obtain ⟨t, ht⟩ := markFrame_undef (j := j) hout
      ({ w with sys := (K.call (.scandir (uvcFormatPath f format)) w.sys).2 }, f)
    exact congrArg Prod.fst (bind_undef ht)
  · rintro ⟨sort, hsort, ds, hread, hundef⟩
    refine ⟨ds, hread, ?_⟩
    by_contra hdefined
    have hin : ∀ d ∈ sort (ds.filter frameSelect), ¬ OutOfRange d := by
      intro d hd hout
      obtain ⟨hmem, hselected⟩ := List.mem_filter.mp ((hsort _).mem_iff.mp hd)
      exact hdefined (forEach_initFramesRound_undef_iff.mpr
        ⟨d, List.mem_filter.mpr ⟨hmem, (frameSelect_iff.mp hselected).1⟩, hout⟩)
    have hnumber : ∀ d ∈ sort (ds.filter frameSelect), ∃ i, scanIndex "frame.".toList d.name = .index i := by
      intro d hd
      have hmismatch := (frameSelect_iff.mp (List.mem_filter.mp ((hsort _).mem_iff.mp hd)).2).2
      cases hscan : scanIndex "frame.".toList d.name with
      | mismatch => exact absurd hscan hmismatch
      | eof =>
        refine absurd ⟨hmismatch, fun i hi => ?_⟩ (hin d hd)
        cases hscan.symm.trans hi
      | index i => exact ⟨i, rfl⟩
    rw [run_initFramesLoop hnumber] at hundef
    obtain ⟨d, hd, hout⟩ := forEach_initFramesRound_undef_iff.mp hundef
    exact hin d hd hout

/-- Without attributes, a frame that the mask does not have is made as the import does it. -/
theorem run_usbgFUvcCreateFrameIndexed {i : ℕ} {frames : List ℕ} (hi : i < maxFrames)
    (hrow : f.frames[j]? = some frames) (hnew : i ∉ frames) :
    (usbgFUvcCreateFrameIndexed K format j i none).run (w, f) = usbgFUvcCreateFrame K format j i (w, f) := by
  have hless : (i : ℤ) < maxFrames := by exact_mod_cast hi
  have hneg : ¬ (i : ℤ) < 0 := by omega
  rw [usbgFUvcCreateFrameIndexed, usbgFUvcCreateFrame]
  have hfree : (i : ℤ).toNat ∉ frames := by
    rw [Int.toNat_natCast]
    exact hnew
  simp only [if_neg hneg, run_bind, run_quiet, run_access, require_of hless, pure_bind, self_bind_apply, hrow, deref,
    require_of hfree, whenSome]
  rfl

end

end Libusbgx
