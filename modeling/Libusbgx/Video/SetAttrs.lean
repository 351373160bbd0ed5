import Libusbgx.Source.Create
import Libusbgx.Source.Function.Types
import Libusbgx.Video.Frames
import Mathlib.Data.List.Infix

/-!
# Setting the attributes of a video function

`uvc_set_streaming` and `usbg_f_uvc_set_attrs` only print the errors of the frames and of the formats.
What has really been done is seen from a kernel that keeps a list of it.
-/

namespace Libusbgx

open Prog

/-! ## A kernel that keeps a list -/

section Recording

variable {κ : Type}

/-- A call that makes a directory. -/
def Syscall.isMkdir : Syscall → Bool
  | .mkdir _ => true
  | _ => false

/-- What a call asks for is there now: it has succeeded, or the directory was there before. -/
def Syscall.Done (c : Syscall) : Except Errno c.Ret → Prop
  | .ok _ => True
  | .error e => e = .eexist ∧ c.isMkdir = true

instance (c : Syscall) : (r : Except Errno c.Ret) → Decidable (c.Done r)
  | .ok _ => isTrue trivial
  | .error _ => inferInstanceAs (Decidable (_ ∧ _))

/-- The kernel, with a list of what has been done. -/
def Kernel.recording (K : Kernel κ) : Kernel (κ × List Syscall) where
  call c s :=
    let r := K.call c s.1
    (r.1, (r.2, if c.Done r.1 then c :: s.2 else s.2))
  stale s := K.stale s.1

/-- What has been done. -/
def World.done (w : World (κ × List Syscall)) : List Syscall := w.sys.2

/-- A directory is made or a file is written. -/
def Syscall.Changes : Syscall → Prop
  | .mkdir _ | .write _ _ => True
  | _ => False

/-- The directory creations and the writes that fail. -/
def Kernel.FailsAt (K : Kernel κ) (fails : Set Syscall) : Prop :=
  ∀ c s, c.Changes → (c.Done (K.call c s).1 ↔ c ∉ fails)

end Recording

/-! ## What is asked for -/

/-- The directory of a frame. -/
def frameAt (d : Path) (a : UvcFormatAttrs) (fr : UvcFrameAttrs) : Path :=
  streamingAt d ++ splitSlash a.format ++ [frameDir fr.bFrameIndex]

/-- The files of a frame with their numbers, in the order in which they are written. -/
def UvcFrameAttrs.files (fr : UvcFrameAttrs) : List (CStr × ℤ) :=
  [("dwFrameInterval".toList, fr.dwFrameInterval),
    ("dwDefaultFrameInterval".toList, fr.dwDefaultFrameInterval),
    ("dwMaxVideoFrameBufferSize".toList, fr.dwMaxVideoFrameBufferSize),
    ("dwMinBitRate".toList, fr.dwMinBitRate), ("dwMaxBitRate".toList, fr.dwMaxBitRate),
    ("wHeight".toList, fr.wHeight), ("wWidth".toList, fr.wWidth)]

/-- Write a number to a file in the directory `p`. -/
def writeOf (p : Path) (file : CStr × ℤ) : Syscall := .write (p ++ [file.1]) (printDec file.2 ++ ['\n'])

/-- The writes of a frame. -/
def frameWrites (d : Path) (a : UvcFormatAttrs) (fr : UvcFrameAttrs) : List Syscall :=
  fr.files.map (writeOf (frameAt d a fr))

/-- The write of a format. -/
def formatWrite (d : Path) (a : UvcFormatAttrs) : Syscall :=
  writeOf (streamingAt d ++ splitSlash a.format) ("bDefaultFrameIndex".toList, a.bDefaultFrameIndex)

/-- The write is one of those that are asked for. -/
def Asked (d : Path) (formats : List UvcFormatAttrs) (c : Syscall) : Prop :=
  ∃ a ∈ formats, c = formatWrite d a ∨ ∃ fr ∈ a.frames, c ∈ frameWrites d a fr

/-! ## What is in the list -/

section Grown

variable {κ : Type} {K : Kernel κ} {fails : Set Syscall} {J : Syscall → Prop}
  {w w' w'' : World (κ × List Syscall)} {c : Syscall} {path p : Path} {name file : CStr}

/-- The list has grown, by entries that fulfil `J`. -/
structure Grown (J : Syscall → Prop) (w w' : World (κ × List Syscall)) : Prop where
  keeps : ∀ c ∈ w.done, c ∈ w'.done
  new : ∀ c ∈ w'.done, c ∈ w.done ∨ J c

lemma Grown.refl (w : World (κ × List Syscall)) : Grown J w w := ⟨fun _ h => h, fun _ h => .inl h⟩

lemma Grown.trans (h : Grown J w w') (h' : Grown J w' w'') : Grown J w w'' where
  keeps c hc := h'.keeps c (h.keeps c hc)
  new c hc := (h'.new c hc).elim (h.new c) .inr

/-- The list after a call. -/
lemma grown_call (w : World (κ × List Syscall)) (hJ : c.Done (K.call c w.sys.1).1 → J c) :
    Grown J w (call K.recording c w).2 ∧
      (c.Done (K.call c w.sys.1).1 → c ∈ (call K.recording c w).2.done) := by
  have hdone : (call K.recording c w).2.done =
      if c.Done (K.call c w.sys.1).1 then c :: w.done else w.done := rfl
  by_cases h : c.Done (K.call c w.sys.1).1
  · rw [if_pos h] at hdone
    refine ⟨⟨fun c' hc' => ?_, fun c' hc' => ?_⟩, fun _ => ?_⟩
    · rw [hdone]
      exact List.mem_cons_of_mem _ hc'
    · rw [hdone] at hc'
      rcases List.mem_cons.mp hc' with rfl | hc'
      · exact .inr (hJ h)
      · exact .inl hc'
    · rw [hdone]
      exact List.mem_cons_self ..
  · rw [if_neg h] at hdone
    refine ⟨⟨fun c' hc' => ?_, fun c' hc' => ?_⟩, fun hc => absurd hc h⟩
    · rwa [hdone]
    · rw [hdone] at hc'
      exact .inl hc'

/-- A call whose error is passed on. -/
lemma ends_recorded {Q : c.Ret → World (κ × List Syscall) → Prop}
    {E : UsbgError → World (κ × List Syscall) → Prop} {U : Prop}
    (hJ : c.Done (K.call c w.sys.1).1 → J c)
    (hok : ∀ a w', Grown J w w' → c ∈ w'.done → Q a w')
    (hfail : ∀ e w', Grown J w w' → (c.isMkdir = false → ¬ c.Done (K.call c w.sys.1).1) → E e w') :
    Ends Q E U (call K.recording c w) := by
  obtain ⟨hgrown, hdone⟩ := grown_call w hJ
  have hresult : (call K.recording c w).1 = match (K.call c w.sys.1).1 with
      | .ok a => .ok a
      | .error e => .fail (usbgTranslateError e) := rfl
  cases hr : (K.call c w.sys.1).1 with
  | ok a =>
    rw [hr] at hresult hdone
    have hrun : call K.recording c w = (.ok a, (call K.recording c w).2) := Prod.ext hresult rfl
    rw [hrun]
    exact hok a _ hgrown (hdone trivial)
  | error e =>
    rw [hr] at hresult hfail
    have hrun : call K.recording c w = (.fail (usbgTranslateError e), (call K.recording c w).2) :=
      Prod.ext hresult rfl
    rw [hrun]
    refine hfail _ _ hgrown fun hmkdir hd => ?_
    rw [hd.2] at hmkdir
    cases hmkdir

/-- A write. -/
lemma usbgWriteBuf_grown {data : CStr} (hK : K.FailsAt fails)
    (hJ : (path ++ [name, file]).Fits → .write (path ++ [name, file]) data ∉ fails →
      J (.write (path ++ [name, file]) data)) :
    Ends (fun _ w' => Grown J w w' ∧ .write (path ++ [name, file]) data ∈ w'.done)
      (fun _ w' => Grown J w w' ∧
        ¬ ((path ++ [name, file]).Fits ∧ .write (path ++ [name, file]) data ∉ fails)) False
      (usbgWriteBuf K.recording path name file data w) := by
  refine Ends.require_bind (fun hfits => ?_) fun hfits => ⟨Grown.refl w, fun h => hfits h.1⟩
  have hwrite := hK (.write (path ++ [name, file]) data) w.sys.1 trivial
  refine ends_recorded (fun hdone => hJ hfits (hwrite.mp hdone)) (fun _ w' hgrown hmem => ⟨hgrown, hmem⟩) ?_
  exact fun _ w' hgrown hnot => ⟨hgrown, fun h => hnot rfl (hwrite.mpr h.2)⟩

/-- The directories on the way to one of those on the way to `p` come before it. -/
lemma prefix_inits {l : List Path} {q r : Path} (h : l ++ [q] <+: p.inits.tail) (hr : r ∈ q.inits.tail) :
    r ∈ l ++ [q] := by
  have htake : ∀ {p : Path} {n : ℕ} (hn : n < p.inits.tail.length), p.inits.tail[n] = p.take (n + 1) := by
    intro p n hn
    rw [List.getElem_tail, List.getElem_inits]
  have hlen : l.length < p.inits.tail.length := by
    have := h.length_le
    rw [List.length_append, List.length_singleton] at this
    omega
  have hget : ∀ n (hn : n < (l ++ [q]).length), (l ++ [q])[n] = p.take (n + 1) := by
    intro n hn
    rw [h.getElem hn, htake]
  have hq : q = p.take (l.length + 1) := by
    have := hget l.length (by simp)
    simpa using this
  obtain ⟨n, hn, rfl⟩ := List.mem_iff_getElem.mp hr
  have hnq : n + 1 ≤ q.length := by
    rw [List.length_tail, List.length_inits] at hn
    omega
  have hnl : n < (l ++ [q]).length := by
    rw [hq, List.length_take] at hnq
    rw [List.length_append, List.length_singleton]
    omega
  have heq : q.inits.tail[n] = (l ++ [q])[n] := by
    rw [htake, hget n hnl, hq, List.take_take]
    congr 1
    rw [hq, List.length_take] at hnq
    omega
  rw [heq]
  exact List.getElem_mem hnl

/-- `uvc_create_dir`, for a path without a slash at the end -/
lemma uvcCreateDir_grown (hK : K.FailsAt fails) (hp : p ≠ []) (hlast : p.getLast? ≠ some [])
    (hJ : ∀ q, (∀ r ∈ q.inits.tail, .mkdir r ∉ fails) → J (.mkdir q)) :
    Ends (fun _ w' => Grown J w w' ∧ .mkdir p ∈ w'.done)
      (fun _ w' => Grown J w w' ∧ ¬ (p.Fits ∧ ∀ q ∈ p.inits.tail, .mkdir q ∉ fails)) False
      (uvcCreateDir K.recording p w) := by
  rw [uvcCreateDir, if_neg hlast]
  refine Ends.require_bind (fun _ => ?_) fun hfits => ⟨Grown.refl w, fun h => hfits h.1⟩
  -- the directories that have been passed did not fail
  refine (Ends.forEachDone (fun l w' => Grown J w w' ∧ ∀ q ∈ l, .mkdir q ∈ w'.done ∧ .mkdir q ∉ fails) ?_
    ⟨Grown.refl w, by simp⟩).mono ?_ fun _ _ h => h
  · rintro l q u hl ⟨hgrown, hall⟩
    have hmkdir := hK (.mkdir q) u.sys.1 trivial
    have hJq : (Syscall.mkdir q).Done (K.call (.mkdir q) u.sys.1).1 → J (.mkdir q) := by
      intro hdone
      refine hJ q fun r hr => ?_
      rcases List.mem_append.mp (prefix_inits hl hr) with hr | hr
      · exact (hall r hr).2
      · rw [List.mem_singleton.mp hr]
        exact hmkdir.mp hdone
    obtain ⟨hgrown', hmem⟩ := grown_call u hJq
    have hnext : (Syscall.mkdir q).Done (K.call (.mkdir q) u.sys.1).1 → ∀ r ∈ l ++ [q],
        .mkdir r ∈ (call K.recording (.mkdir q) u).2.done ∧ .mkdir r ∉ fails := by
      intro hdone r hr
      rcases List.mem_append.mp hr with hr | hr
      · exact ⟨hgrown'.keeps _ (hall r hr).1, (hall r hr).2⟩
      · rw [List.mem_singleton.mp hr]
        exact ⟨hmem hdone, hmkdir.mp hdone⟩
    refine Ends.bind (R := fun r u' => r = (K.call (.mkdir q) u.sys.1).1 ∧
      u' = (call K.recording (.mkdir q) u).2) ⟨rfl, rfl⟩ ?_
    rintro r u' ⟨hr, rfl⟩
    cases r with
    | ok _ =>
      rw [← hr] at hnext
      exact ⟨hgrown.trans hgrown', hnext trivial⟩
    | error e =>
      rw [← hr] at hnext hmkdir
      refine Ends.require (fun he => ⟨hgrown.trans hgrown', hnext ⟨he, rfl⟩⟩) fun he => ⟨hgrown.trans hgrown', ?_⟩
      rintro ⟨-, hall'⟩
      exact he (hmkdir.mpr (hall' q (hl.subset (by simp)))).1
  · rintro - w' ⟨hgrown, hall⟩
    refine ⟨hgrown, (hall p ?_).1⟩
    cases p with
    | nil => exact absurd rfl hp
    | cons a p => simp

/-- Running on after an error. -/
lemma logError_grown {m : Io (κ × List Syscall) Unit} {P P' : World (κ × List Syscall) → Prop}
    (h : Ends (fun _ => P) (fun _ => P') False (m w)) :
    Ends (fun _ w' => P w' ∨ P' w') (fun _ _ => False) False (logError m w) := by
  refine Ends.bind (R := fun _ w' => P w' ∨ P' w') (Ends.attempt (h.mono_undef ?_ ?_ id)) fun _ _ h => h
  · exact fun _ _ h => .inl h
  · exact fun _ _ h => .inr h

end Grown

/-! ## The functions -/

section Functions

variable {κ : Type} {K : Kernel κ} {fails : Set Syscall} {d : Path} {formats : List UvcFormatAttrs}
  {a : UvcFormatAttrs} {fr : UvcFrameAttrs} {w : World (κ × List Syscall)}

/-- Why something is in the list. -/
def Justified (fails : Set Syscall) (d : Path) (formats : List UvcFormatAttrs) : Syscall → Prop
  | .mkdir p => ∀ q ∈ p.inits.tail, .mkdir q ∉ fails
  | .write p data => p.Fits ∧ .write p data ∉ fails ∧ Asked d formats (.write p data)
  | _ => True

/-- The directories and the writes of a frame are done. -/
def FrameDone (d : Path) (a : UvcFormatAttrs) (fr : UvcFrameAttrs) (done : List Syscall) : Prop :=
  .mkdir (frameAt d a fr) ∈ done ∧ ∀ c ∈ frameWrites d a fr, c ∈ done

/-- They can be done. -/
def FramePossible (fails : Set Syscall) (d : Path) (a : UvcFormatAttrs) (fr : UvcFrameAttrs) : Prop :=
  (∀ q ∈ (frameAt d a fr).inits.tail, .mkdir q ∉ fails) ∧ ∀ c ∈ frameWrites d a fr, c.path.Fits ∧ c ∉ fails

lemma splitSlash_ne_nil (s : CStr) : splitSlash s ≠ [] := by
  cases s with
  | nil => simp [splitSlash]
  | cons c s =>
    rw [splitSlash]
    split
    · simp
    · split <;> simp

/-- `uvc_set_frame` as a loop -/
lemma uvcSetFrame_eq {κ : Type} (K : Kernel κ) (p : Path) (format : CStr) (fr : UvcFrameAttrs) :
    uvcSetFrame K p format fr = (do
      require (p ++ splitSlash format).Fits .pathTooLong
      require (p ++ splitSlash format ++ [frameDir fr.bFrameIndex]).Fits .pathTooLong
      uvcCreateDir K (p ++ splitSlash format ++ [frameDir fr.bFrameIndex])
      forEach (fun file => usbgWriteDec K (p ++ splitSlash format) (frameDir fr.bFrameIndex) file.1 file.2)
        fr.files) := by
  have hloop : ∀ (write : CStr × ℤ → Io κ Unit) (x₁ x₂ x₃ x₄ x₅ x₆ x₇ : CStr × ℤ),
      forEach write [x₁, x₂, x₃, x₄, x₅, x₆, x₇] =
        (do write x₁; write x₂; write x₃; write x₄; write x₅; write x₆; write x₇) := by
    intros
    simp only [forEach, Prog.bind_pure]
  rw [UvcFrameAttrs.files, hloop]
  rfl

/-- `uvc_set_frame` -/
lemma uvcSetFrame_grown (hK : K.FailsAt fails) (ha : a ∈ formats) (hfr : fr ∈ a.frames) :
    Ends (fun _ w' => Grown (Justified fails d formats) w w' ∧ FrameDone d a fr w'.done)
      (fun _ w' => Grown (Justified fails d formats) w w' ∧ ¬ FramePossible fails d a fr) False
      (uvcSetFrame K.recording (streamingAt d) a.format fr w) := by
  have hwrite : ∀ file : CStr × ℤ, writeOf (frameAt d a fr) file =
      .write (streamingAt d ++ splitSlash a.format ++ [frameDir fr.bFrameIndex, file.1])
        (printDec file.2 ++ ['\n']) := by
    intro file
    rw [writeOf, frameAt, List.append_assoc _ [_] [_]]
    rfl
  have hfile : ("dwFrameInterval".toList, fr.dwFrameInterval) ∈ fr.files := List.mem_cons_self ..
  -- where one file fits the directories do
  have hfits : FramePossible fails d a fr → ∀ p : Path, p <+: frameAt d a fr → p.Fits := by
    intro h p hp
    refine prefix_fits (hp.trans ?_) (h.2 _ (List.mem_map_of_mem hfile)).1
    exact List.prefix_append ..
  rw [uvcSetFrame_eq]
  refine Ends.require_bind (fun _ => ?_) fun hnot => ⟨Grown.refl w, fun h => hnot (hfits h _ (List.prefix_append ..))⟩
  refine Ends.require_bind (fun _ => ?_) fun hnot => ⟨Grown.refl w, fun h => hnot (hfits h _ List.prefix_rfl)⟩
  have hlast : (streamingAt d ++ splitSlash a.format ++ [frameDir fr.bFrameIndex]).getLast? ≠ some [] := by
    rw [List.getLast?_concat]
    exact fun h => frameDir_ne_nil _ (Option.some.inj h)
  refine Ends.bind ((uvcCreateDir_grown (J := Justified fails d formats) hK (List.concat_ne_nil _ _) hlast
    fun _ hq => hq).mono_undef (fun _ _ h => h) (fun _ w' h => ⟨h.1, fun hp => h.2 ⟨hfits hp _ List.prefix_rfl, hp.1⟩⟩)
    id) ?_
  rintro - w₁ ⟨hgrown₁, hmkdir⟩
  refine (Ends.forEachDone (fun done w' => Grown (Justified fails d formats) w w' ∧
    .mkdir (frameAt d a fr) ∈ w'.done ∧ ∀ file ∈ done, writeOf (frameAt d a fr) file ∈ w'.done) ?_
    ⟨hgrown₁, hmkdir, by simp⟩).mono ?_ fun _ _ h => h
  · rintro done file u hdone ⟨hgrown, hmk, hall⟩
    have hmem : writeOf (frameAt d a fr) file ∈ frameWrites d a fr :=
      List.mem_map_of_mem (hdone.subset (by simp))
    have hJ : Asked d formats (writeOf (frameAt d a fr) file) := ⟨a, ha, .inr ⟨fr, hfr, hmem⟩⟩
    rw [hwrite] at hmem hJ
    refine (usbgWriteBuf_grown (J := Justified fails d formats) hK fun hf hn => ⟨hf, hn, hJ⟩).mono ?_ ?_
    · rintro - u' ⟨hgrown', hnew⟩
      refine ⟨hgrown.trans hgrown', hgrown'.keeps _ hmk, fun file' hfile' => ?_⟩
      rcases List.mem_append.mp hfile' with hfile' | hfile'
      · exact hgrown'.keeps _ (hall file' hfile')
      · rw [List.mem_singleton.mp hfile', hwrite]
        exact hnew
    · rintro - u' ⟨hgrown', hnot⟩
      exact ⟨hgrown.trans hgrown', fun h => hnot (h.2 _ hmem)⟩
  · rintro - w' ⟨hgrown, hmk, hall⟩
    refine ⟨hgrown, hmk, fun c hc => ?_⟩
    obtain ⟨file, hfile, rfl⟩ := List.mem_map.mp hc
    exact hall file hfile

/-- The frames and the attribute of a format are done. -/
def FormatDone (d : Path) (a : UvcFormatAttrs) (done : List Syscall) : Prop :=
  (∀ fr ∈ a.frames, FrameDone d a fr done) ∧ formatWrite d a ∈ done

/-- They can be done. -/
def FormatPossible (fails : Set Syscall) (d : Path) (a : UvcFormatAttrs) : Prop :=
  (∀ fr ∈ a.frames, FramePossible fails d a fr) ∧ (formatWrite d a).path.Fits ∧ formatWrite d a ∉ fails

/-- What has been done stays in the list. -/
lemma FrameDone.mono {done done' : List Syscall} (h : FrameDone d a fr done) (hsub : ∀ c ∈ done, c ∈ done') :
    FrameDone d a fr done' :=
  ⟨hsub _ h.1, fun c hc => hsub c (h.2 c hc)⟩

@[inherit_doc FrameDone.mono]
lemma FormatDone.mono {done done' : List Syscall} (h : FormatDone d a done) (hsub : ∀ c ∈ done, c ∈ done') :
    FormatDone d a done' :=
  ⟨fun fr hfr => (h.1 fr hfr).mono hsub, hsub _ h.2⟩

/-- `uvc_set_format` -/
lemma uvcSetFormat_grown (hK : K.FailsAt fails) (ha : a ∈ formats) :
    Ends (fun _ w' => Grown (Justified fails d formats) w w' ∧ formatWrite d a ∈ w'.done)
      (fun _ w' => Grown (Justified fails d formats) w w' ∧ ¬ FormatPossible fails d a) False
      (uvcSetFormat K.recording (streamingAt d) a w) := by
  have hpath : streamingAt d ++ (splitSlash a.format).dropLast ++
      [(splitSlash a.format).getLastD [], "bDefaultFrameIndex".toList] =
      streamingAt d ++ splitSlash a.format ++ ["bDefaultFrameIndex".toList] := by
    obtain ⟨p, name, hsplit⟩ := (List.eq_nil_or_concat (splitSlash a.format)).resolve_left
      (splitSlash_ne_nil a.format)
    simp [hsplit]
  have hwrite : formatWrite d a = .write (streamingAt d ++ (splitSlash a.format).dropLast ++
      [(splitSlash a.format).getLastD [], "bDefaultFrameIndex".toList])
        (printDec a.bDefaultFrameIndex ++ ['\n']) := by
    rw [hpath]
    rfl
  have hJ : Asked d formats (formatWrite d a) := ⟨a, ha, .inl rfl⟩
  rw [hwrite] at hJ ⊢
  refine (usbgWriteBuf_grown (J := Justified fails d formats) hK fun hf hn => ⟨hf, hn, hJ⟩).mono
    (fun _ _ h => h) ?_
  rintro - w' ⟨hgrown, hnot⟩
  refine ⟨hgrown, fun h => hnot ?_⟩
  have hpossible := h.2
  rwa [hwrite] at hpossible

/-- `uvc_set_streaming` goes on after an error in a frame. -/
lemma uvcSetStreaming_grown (hK : K.FailsAt fails) (ha : a ∈ formats) :
    Ends (fun _ w' => Grown (Justified fails d formats) w w' ∧ (FormatPossible fails d a → FormatDone d a w'.done))
      (fun _ w' => Grown (Justified fails d formats) w w' ∧ ¬ FormatPossible fails d a) False
      (uvcSetStreaming K.recording d a w) := by
  refine Ends.require_bind (fun _ => ?_) fun hnot => ⟨Grown.refl w, fun h => hnot (prefix_fits ?_ h.2.1)⟩
  · refine Ends.bind (R := fun _ w' => Grown (Justified fails d formats) w w' ∧
      ∀ fr ∈ a.frames, FramePossible fails d a fr → FrameDone d a fr w'.done) ?_ ?_
    · refine (Ends.forEachDone (fun done w' => Grown (Justified fails d formats) w w' ∧
        ∀ fr ∈ done, FramePossible fails d a fr → FrameDone d a fr w'.done) ?_
        ⟨Grown.refl w, by simp⟩).mono (fun _ _ h => h) fun _ _ h => h
      rintro done fr u hdone ⟨hgrown, hall⟩
      have hfr : fr ∈ a.frames := hdone.subset (by simp)
      refine (logError_grown (uvcSetFrame_grown hK ha hfr)).mono ?_ fun _ _ h => h.elim
      rintro - u' hu'
      have hgrown' : Grown (Justified fails d formats) u u' := hu'.elim And.left And.left
      refine ⟨hgrown.trans hgrown', fun fr' hfr' hpossible => ?_⟩
      rcases List.mem_append.mp hfr' with hfr' | hfr'
      · exact (hall fr' hfr' hpossible).mono hgrown'.keeps
      · rw [List.mem_singleton.mp hfr'] at hpossible ⊢
        rcases hu' with ⟨-, hdone'⟩ | ⟨-, hnot⟩
        · exact hdone'
        · exact absurd hpossible hnot
    · rintro - w₁ ⟨hgrown₁, hframes⟩
      refine (uvcSetFormat_grown hK ha).mono ?_ ?_
      · rintro - w₂ ⟨hgrown₂, hmem⟩
        refine ⟨hgrown₁.trans hgrown₂, fun hpossible => ⟨fun fr hfr => ?_, hmem⟩⟩
        exact (hframes fr hfr (hpossible.1 fr hfr)).mono hgrown₂.keeps
      · rintro - w₂ ⟨hgrown₂, hnot⟩
        exact ⟨hgrown₁.trans hgrown₂, hnot⟩
  · rw [formatWrite, writeOf, Syscall.path, streamingAt, List.append_assoc, List.append_assoc, ← List.append_assoc d]
    exact List.prefix_append ..

/-- A call that is neither a creation of a directory nor a write -/
lemma grown_of_not_changes {c : Syscall} (hc : ¬ c.Changes) :
    Ends (fun _ => Grown (Justified fails d formats) w) (fun _ => Grown (Justified fails d formats) w) False
      (call K.recording c w) := by
  have hJ : Justified fails d formats c := by
    cases c <;> first
      | exact trivial
      | exact absurd trivial hc
  exact ends_recorded (fun _ => hJ) (fun _ _ h _ => h) fun _ _ h _ => h

lemma uvcLink_grown {path target from_ : Path} :
    Ends (fun _ => Grown (Justified fails d formats) w) (fun _ => Grown (Justified fails d formats) w) False
      (uvcLink K.recording path target from_ w) := by
  refine Ends.require_bind (fun _ => ?_) fun _ => Grown.refl w
  refine Ends.require_bind (fun _ => ?_) fun _ => Grown.refl w
  exact grown_of_not_changes (c := .symlink (path ++ target) (path ++ from_)) id

lemma uvcLinkFormat_grown {path format from_ : Path} :
    Ends (fun _ => Grown (Justified fails d formats) w) (fun _ => Grown (Justified fails d formats) w) False
      (uvcLinkFormat K.recording path format from_ w) := by
  refine Ends.require_bind (fun _ => ?_) fun _ => Grown.refl w
  have hgrown := (grown_call (K := K) (J := Justified fails d formats) (c := .stat (path ++ format)) w
    fun _ => trivial).1
  refine Ends.bind (R := fun _ => Grown (Justified fails d formats) w) hgrown ?_
  rintro (e | _) w' hw'
  · exact hw'
  · exact uvcLink_grown.mono (fun _ _ h => hw'.trans h) fun _ _ h => hw'.trans h

/-- `uvc_set_class` -/
lemma uvcSetClass_grown (hK : K.FailsAt fails) {f : Func} {cs : CStr} :
    Ends (fun _ s => s.2 = f ∧ Grown (Justified fails d formats) w s.1)
      (fun _ s => s.2 = f ∧ Grown (Justified fails d formats) w s.1) False
      (uvcSetClass K.recording cs (w, f)) := by
  have hbind : ∀ {m m' : Io (κ × List Syscall) Unit} {w}, Ends (fun _ => Grown (Justified fails d formats) w)
      (fun _ => Grown (Justified fails d formats) w) False (m w) →
      (∀ w, Ends (fun _ => Grown (Justified fails d formats) w) (fun _ => Grown (Justified fails d formats) w)
        False (m' w)) →
      Ends (fun _ => Grown (Justified fails d formats) w) (fun _ => Grown (Justified fails d formats) w) False
        ((m >>= fun _ => m') w) := fun hm hm' =>
    Ends.bind hm fun _ w' hw' => (hm' w').mono (fun _ _ h => hw'.trans h) fun _ _ h => hw'.trans h
  rw [uvcSetClass, self_bind_apply]
  refine ends_io (Ends.mono (Q := fun _ => Grown (Justified fails d formats) w)
    (E := fun _ => Grown (Justified fails d formats) w) ?_ (fun _ _ h => ⟨rfl, h⟩) fun _ _ h => ⟨rfl, h⟩)
  refine Ends.require_bind (fun _ => ?_) fun _ => Grown.refl w
  refine Ends.require_bind (fun _ => ?_) fun _ => Grown.refl w
  refine hbind ((uvcCreateDir_grown hK (by simp [uvcPathHeader]) (by simp [uvcPathHeader]) fun _ hq => hq).mono
    (fun _ _ h => h.1) fun _ _ h => h.1) fun w => ?_
  refine hbind (Ends.when (fun _ => ?_) fun _ => Grown.refl w) fun w => ?_
  · exact hbind uvcLinkFormat_grown fun w => hbind uvcLinkFormat_grown fun w => uvcLink_grown
  · exact hbind uvcLink_grown fun w => uvcLink_grown

/-- `usbg_f_uvc_set_attrs` goes on after an error in a format. -/
lemma usbgFUvcSetAttrs_grown (hK : K.FailsAt fails) {f : Func} :
    Ends (fun _ s => s.2 = f ∧ Grown (Justified fails f.dir formats) w s.1 ∧
        ∀ a ∈ formats, FormatPossible fails f.dir a → FormatDone f.dir a s.1.done)
      (fun _ _ => True) False (usbgFUvcSetAttrs K.recording formats (w, f)) := by
  rw [usbgFUvcSetAttrs, self_bind_apply]
  refine Ends.require_bind (fun _ => ?_) fun _ => trivial
  refine Ends.bind (R := fun _ s => s.2 = f ∧ Grown (Justified fails f.dir formats) w s.1 ∧
    ∀ a ∈ formats, FormatPossible fails f.dir a → FormatDone f.dir a s.1.done) (ends_io ?_) ?_
  · refine (Ends.forEachDone (fun done w' => Grown (Justified fails f.dir formats) w w' ∧
      ∀ a ∈ done, FormatPossible fails f.dir a → FormatDone f.dir a w'.done) ?_
      ⟨Grown.refl w, by simp⟩).mono (fun _ _ h => ⟨rfl, h⟩) fun _ _ h => h
    rintro done a u hdone ⟨hgrown, hall⟩
    have ha : a ∈ formats := hdone.subset (by simp)
    refine (logError_grown (uvcSetStreaming_grown hK ha)).mono ?_ fun _ _ h => h.elim
    rintro - u' hu'
    have hgrown' : Grown (Justified fails f.dir formats) u u' := hu'.elim And.left And.left
    refine ⟨hgrown.trans hgrown', fun a' ha' hpossible => ?_⟩
    rcases List.mem_append.mp ha' with ha' | ha'
    · exact (hall a' ha' hpossible).mono hgrown'.keeps
    · rw [List.mem_singleton.mp ha'] at hpossible ⊢
      rcases hu' with ⟨-, hdone'⟩ | ⟨-, hnot⟩
      · exact hdone' hpossible
      · exact absurd hpossible hnot
  · rintro - ⟨w₁, f₁⟩ ⟨rfl, hgrown₁, hall₁⟩
    have hclass : ∀ cs u, Ends (fun _ s => s.2 = f₁ ∧ Grown (Justified fails f₁.dir formats) u s.1)
        (fun _ _ => True) False (uvcSetClass K.recording cs (u, f₁)) := fun cs u =>
      (uvcSetClass_grown hK).mono (fun _ _ h => h) fun _ _ _ => trivial
    refine Ends.bind (hclass uvcPathControl w₁) ?_
    rintro - ⟨w₂, f₂⟩ ⟨rfl, hgrown₂⟩
    refine (hclass uvcPathStreaming w₂).mono ?_ fun _ _ _ => trivial
    rintro - ⟨w₃, f₃⟩ ⟨hf₃, hgrown₃⟩
    have hgrown := hgrown₂.trans hgrown₃
    exact ⟨hf₃, hgrown₁.trans hgrown, fun a ha hpossible => (hall₁ a ha hpossible).mono hgrown.keeps⟩

/-- Every entry of the list but the creation of `p` is justified, and what is possible is done. -/
structure Accounted (fails : Set Syscall) (d : Path) (formats : List UvcFormatAttrs) (p : Path)
    (done : List Syscall) : Prop where
  new : ∀ c ∈ done, c = .mkdir p ∨ Justified fails d formats c
  all : ∀ a ∈ formats, FormatPossible fails d a → FormatDone d a done

/-- The new function of `usbg_create_function`. -/
def newFunctionAt (g : Gadget) (inst : CStr) : Path :=
  g.path ++ [g.name, functionsDir] ++ [functionName .uvc inst]

/-- `usbg_create_function` with the attributes of a video function -/
lemma usbgCreateFunction_grown (hK : K.FailsAt fails) {g : Gadget} {inst : CStr} (hw : w.done = []) :
    Ends (fun _ s => Accounted fails (newFunctionAt g inst) formats (newFunctionAt g inst) s.1.done)
      (fun _ _ => True) True
      (usbgCreateFunction K.recording (functionOps K.recording) .uvc inst (some (.uvc formats)) (w, g)) := by
  rw [usbgCreateFunction]
  refine Ends.require_bind (fun _ => ?_) fun _ => trivial
  rw [self_bind_apply]
  refine Ends.require_bind (fun _ => ?_) fun _ => trivial
  refine Ends.require_bind (fun _ => ?_) fun _ => trivial
  refine Ends.bind (R := fun (func : Func) s => func.dir = newFunctionAt g inst ∧ func.type = .uvc ∧ s.1.done = [])
    ⟨rfl, rfl, hw⟩ ?_
  rintro func ⟨w₁, g₁⟩ ⟨hdir, htype, hw₁⟩
  refine Ends.require_bind (fun _ => ?_) fun _ => trivial
  have hmkdir : g.path ++ [g.name, functionsDir] ++ [func.name] = newFunctionAt g inst := by
    obtain ⟨-, hname⟩ := List.append_inj' hdir rfl
    rw [(List.cons.inj hname).1]
    rfl
  rw [hmkdir]
  refine Ends.bind (R := fun _ s => ∀ c ∈ s.1.done, c = .mkdir (newFunctionAt g inst)) (ends_io ?_) ?_
  · refine ends_recorded (J := fun c => c = .mkdir (newFunctionAt g inst)) (fun _ => rfl) ?_ fun _ _ _ _ => trivial
    intro _ w₂ hgrown _ c hc
    rcases hgrown.new c hc with hc | hc
    · rw [hw₁] at hc
      cases hc
    · exact hc
  rintro - ⟨w₂, g₂⟩ hw₂
  refine Ends.bind (R := fun _ s => Accounted fails (newFunctionAt g inst) formats (newFunctionAt g inst) s.1.done)
    (Ends.bind (R := fun _ s => Accounted fails (newFunctionAt g inst) formats (newFunctionAt g inst) s.1.done)
      (ends_io (Ends.onFail (F := fun _ _ => True) (ends_withNew ?_) fun _ _ _ =>
        Ends.intro (fun _ _ _ => trivial) (fun _ _ _ => trivial) fun _ _ => trivial)) ?_) ?_
  rotate_left
  · exact fun _ _ h => h
  · exact fun _ _ h => h
  -- the calls of the constructor itself are done, what follows are those of the formats
  have hset : usbgSetFunctionAttrs (functionOps K.recording) (.uvc formats) (w₂, func) =
      usbgFUvcSetAttrs K.recording formats (w₂, func) := by
    rw [usbgSetFunctionAttrs, self_bind_apply, htype]
    rfl
  rw [hset, ← hdir]
  refine (usbgFUvcSetAttrs_grown hK).mono_undef ?_ (fun _ _ _ => trivial) False.elim
  rintro - s ⟨-, hgrown, hall⟩
  refine ⟨fun c hc => ?_, hall⟩
  rcases hgrown.new c hc with hc | hc
  · rw [hdir]
    exact .inl (hw₂ c hc)
  · exact .inr hc

/-- What is in the list could be done. -/
lemma FormatDone.possible {done : List Syscall}
    (hnew : ∀ c ∈ done, (∀ p, c = .mkdir p → streamingAt d <+: p → ∀ q ∈ p.inits.tail, .mkdir q ∉ fails) ∧
      ∀ p data, c = .write p data → p.Fits ∧ c ∉ fails) (h : FormatDone d a done) : FormatPossible fails d a := by
  have hwrite : ∀ p file, writeOf p file ∈ done → (writeOf p file).path.Fits ∧ writeOf p file ∉ fails :=
    fun p file hc => (hnew _ hc).2 _ _ rfl
  refine ⟨fun fr hfr => ⟨(hnew _ (h.1 fr hfr).1).1 _ rfl ?_, fun c hc => ?_⟩, hwrite _ _ h.2⟩
  · rw [frameAt, List.append_assoc]
    exact List.prefix_append ..
  · have hmem := (h.1 fr hfr).2 c hc
    obtain ⟨file, -, rfl⟩ := List.mem_map.mp hc
    exact hwrite _ _ hmem

lemma Accounted.reported {done : List Syscall} {p : Path} (h : Accounted fails d formats p done)
    (hp : ¬ streamingAt d <+: p) : ((∀ a ∈ formats, FormatDone d a done) ↔ ∀ a ∈ formats, FormatPossible fails d a) ∧
      ∀ q data, .write q data ∈ done → Asked d formats (.write q data) := by
  refine ⟨⟨fun hdone a ha => (hdone a ha).possible fun c hc => ⟨?_, ?_⟩,
    fun hpossible a ha => h.all a ha (hpossible a ha)⟩, ?_⟩
  · rintro q rfl hq
    rcases h.new _ hc with heq | hj
    · cases heq
      exact absurd hq hp
    · exact hj
  · rintro q data rfl
    rcases h.new _ hc with heq | hj
    · cases heq
    · exact ⟨hj.1, hj.2.1⟩
  · intro q data hc
    rcases h.new _ hc with heq | hj
    · cases heq
    · exact hj.2.2

end Functions

/-- A successful run has done everything it was asked for exactly when nothing of it fails, and it has
written nothing else. -/
theorem formatsReported_iff {κ : Type} (K : Kernel κ) (fails : Set Syscall) (hK : K.FailsAt fails)
    (formats : List UvcFormatAttrs) (s : κ) (next : Addr) :
    (∀ f w' f', usbgFUvcSetAttrs K.recording formats ({ sys := (s, []), next }, f) = (.ok (), (w', f')) →
      ((∀ a ∈ formats, FormatDone f.dir a w'.done) ↔ ∀ a ∈ formats, FormatPossible fails f.dir a) ∧
        ∀ q data, .write q data ∈ w'.done → Asked f.dir formats (.write q data)) ∧
    ∀ g inst addr w' g', usbgCreateFunction K.recording (functionOps K.recording) .uvc inst (some (.uvc formats))
        ({ sys := (s, []), next }, g) = (.ok addr, (w', g')) →
      ((∀ a ∈ formats, FormatDone (newFunctionAt g inst) a w'.done) ↔
          ∀ a ∈ formats, FormatPossible fails (newFunctionAt g inst) a) ∧
        ∀ q data, .write q data ∈ w'.done → Asked (newFunctionAt g inst) formats (.write q data) := by
  refine ⟨fun f w' f' hrun => ?_, fun g inst addr w' g' hrun => ?_⟩
  · have hends : Ends _ _ _ (usbgFUvcSetAttrs K.recording formats ({ sys := (s, []), next }, f)) :=
      usbgFUvcSetAttrs_grown hK
    rw [hrun] at hends
    obtain ⟨-, hgrown, hall⟩ := hends
    refine Accounted.reported (p := []) ⟨fun c hc => .inr ?_, hall⟩ (by simp [streamingAt])
    exact (hgrown.new c hc).resolve_left (by simp [World.done])
  · have hends : Ends _ _ _ (usbgCreateFunction K.recording (functionOps K.recording) .uvc inst (some (.uvc formats))
        ({ sys := (s, []), next }, g)) := usbgCreateFunction_grown hK rfl
    rw [hrun] at hends
    refine Accounted.reported hends fun hpre => ?_
    have := hpre.length_le
    simp [streamingAt] at this

/-! ## An example -/

/-- A kernel that answers every call, but fails at the calls in the list. -/
def answering (fails : List Syscall) : Kernel Unit where
  call c s :=
    (if c ∈ fails then .error .eio
      else
        match c with
        | .scandir _ | .nftw _ => .ok []
        | .readlink _ | .read _ => .ok []
        | .opendir _ | .write _ _ | .mkdir _ | .rmdir _ | .unlink _ | .symlink _ _ | .stat _ | .remove _ => .ok (), s)
  stale _ := []

lemma answering_failsAt (fails : List Syscall) : (answering fails).FailsAt {c | c ∈ fails} := by
  intro c s hc
  by_cases h : c ∈ fails
  · have hcall : ((answering fails).call c s).1 = .error .eio := if_pos h
    rw [hcall]
    exact iff_of_false (fun hdone => by cases hdone.1) fun hnot => hnot h
  · refine iff_of_true ?_ h
    have hcall : ∀ r : Except Errno c.Ret, ((answering fails).call c s).1 = (if c ∈ fails then .error .eio else r) →
        c.Done r → c.Done ((answering fails).call c s).1 := by
      intro r hr hdone
      rwa [hr, if_neg h]
    cases c <;> first
      | exact hc.elim
      | exact hcall (.ok ()) rfl trivial

/-- A video function. -/
def videoFunc : Func := plainFunc .uvc

/-- A frame of the given height. -/
def videoFrame (id height : ℤ) : UvcFrameAttrs where
  bFrameIndex := id
  dwMinBitRate := 29491200
  dwMaxBitRate := 29491200
  dwMaxVideoFrameBufferSize := 614400
  dwDefaultFrameInterval := 333333
  dwFrameInterval := 333333
  wWidth := 640
  wHeight := height

/-- One format with two frames. -/
def videoFormats : List UvcFormatAttrs :=
  [{ format := "mjpeg/m".toList, bDefaultFrameIndex := 1, frames := [videoFrame 1 480, videoFrame 2 720] }]

/-- What is done when some calls fail. -/
def videoRun (fails : List Syscall) : Outcome UsbgError Unit × World (Unit × List Syscall) × Func :=
  usbgFUvcSetAttrs (answering fails).recording videoFormats ({ sys := ((), []), next := 0 }, videoFunc)

/-- The write of the height of the second frame. -/
def heightWrite : Syscall :=
  .write (videoFunc.dir ++ ["streaming".toList, "mjpeg".toList, "m".toList, "frame.2".toList, "wHeight".toList])
    "720\n".toList

lemma videoRun_ok : (videoRun []).1 = .ok () := by decide +kernel

lemma videoRun_heightWrite :
    (videoRun [heightWrite]).1 = .ok () ∧ heightWrite ∉ (videoRun [heightWrite]).2.1.done := by
  decide +kernel

lemma videoFormats_fit : ∀ a ∈ videoFormats,
    (∀ fr ∈ a.frames, ∀ c ∈ frameWrites videoFunc.dir a fr, c.path.Fits) ∧
      (formatWrite videoFunc.dir a).path.Fits := by
  decide +kernel

lemma heightWrite_mem : heightWrite ∈ frameWrites videoFunc.dir videoFormats[0] (videoFrame 2 720) := by
  decide +kernel

lemma eq_of_fst {α β γ : Type} {r : α × β × γ} {a : α} (h : r.1 = a) : ∃ b c, r = (a, (b, c)) :=
  ⟨r.2.1, r.2.2, Prod.ext h rfl⟩

/-- Where nothing fails everything is done. -/
theorem formatsReported_willing :
    ∃ w f, videoRun [] = (.ok (), (w, f)) ∧ ∀ a ∈ videoFormats, FormatDone videoFunc.dir a w.done := by
  obtain ⟨w, f, hrun⟩ := eq_of_fst videoRun_ok
  refine ⟨w, f, hrun, (((formatsReported_iff (answering []) {c | c ∈ []} (answering_failsAt []) videoFormats () 0).1
    videoFunc w f hrun).1).mpr fun a ha => ?_⟩
  obtain ⟨hframes, hformat⟩ := videoFormats_fit a ha
  exact ⟨fun fr hfr => ⟨fun _ _ => by simp, fun c hc => ⟨hframes fr hfr c hc, by simp⟩⟩, hformat, by simp⟩

lemma not_formatsDone {done : List Syscall} (h : heightWrite ∉ done) :
    ¬ ∀ a ∈ videoFormats, FormatDone videoFunc.dir a done := by
  intro hall
  have hformat := hall _ (List.getElem_mem (l := videoFormats) (n := 0) (by decide))
  exact h ((hformat.1 (videoFrame 2 720) (by decide)).2 _ heightWrite_mem)

/-- Success is returned although the height of a frame could not be written. -/
theorem formatsReported_fails : (videoRun [heightWrite]).1 = .ok () ∧
    ¬ ∀ a ∈ videoFormats, FormatDone videoFunc.dir a (videoRun [heightWrite]).2.1.done := by
  exact ⟨videoRun_heightWrite.1, not_formatsDone videoRun_heightWrite.2⟩

end Libusbgx
