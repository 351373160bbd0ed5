import Libusbgx.Attributes.Files
import Libusbgx.Video.SetAttrs
import Mathlib.Data.List.Infix

/-!
# Importing a video function

`uvc_libconfig_import` takes the row of the masks from the position of a format and its directory from
the name of the format.
-/

namespace Libusbgx

open Prog Machine

variable {M : Machine} {w : World Fs} {f : Func} {d p q : Path} {T T' : Tree} {i j k : ℕ} {name : CStr}
  {node : Setting}

/-! ## The places of frames in the tree -/

/-- At the places of frames are the directories of those in `P`, and nothing else. -/
def PlacesAre (d : Path) (T : Tree) (P : ℕ → ℕ → Prop) : Prop :=
  ∀ k < maxFormats, ∀ i < maxFrames,
    (P k i → T.IsDir (frameIn d k i)) ∧ (¬ P k i → T.get (frameIn d k i) = none)

/-- What the kernel does with frames: it puts none into a new directory by itself, and does not say of a
directory that it exists unless it does. -/
structure FramesByHand (M : Machine) (d : Path) : Prop where
  groups : ∀ p, ∀ e ∈ M.groups p, e.1 ≠ [] → ∀ k < maxFormats, ∀ i < maxFrames, p ++ e.1 ≠ frameIn d k i
  exist : ∀ n p, M.fault n (.mkdir p) ≠ some .eexist

namespace PlacesAre

variable {P P' : ℕ → ℕ → Prop}

lemma isDir_iff (h : PlacesAre d T P) (hk : k < maxFormats) (hi : i < maxFrames) :
    T.IsDir (frameIn d k i) ↔ P k i := by
  refine ⟨fun hdir => ?_, (h k hk i hi).1⟩
  by_contra hP
  rw [FileTree.IsDir, (h k hk i hi).2 hP] at hdir
  simp at hdir

lemma congr (h : PlacesAre d T P) (hP : ∀ k < maxFormats, ∀ i < maxFrames, P k i ↔ P' k i) : PlacesAre d T P' :=
  fun k hk i hi => ⟨fun hP' => (h k hk i hi).1 ((hP k hk i hi).mpr hP'),
    fun hP' => (h k hk i hi).2 fun hPk => hP' ((hP k hk i hi).mp hPk)⟩

/-- Making a directory makes the frame at its place and no other. -/
lemma mkdir (h : PlacesAre d T P) (hM : FramesByHand M d) (hmkdir : M.mkdir T p = .ok T') :
    PlacesAre d T' fun k i => P k i ∨ frameIn d k i = p := by
  obtain ⟨hnone, -, -, rfl⟩ := mkdir_eq_ok.mp hmkdir
  intro k hk i hi
  by_cases hp : frameIn d k i = p
  · refine ⟨fun _ => FileTree.isDir_iff.mpr ⟨true, ?_⟩, fun hnot => absurd (.inr hp) hnot⟩
    rw [hp, get_newDir_self hnone]
  · have hfind : (M.newDir p).find? (·.1 = frameIn d k i) = none := by
      rw [List.find?_eq_none]
      intro e he
      rw [newDir, List.mem_cons, List.mem_map] at he
      rw [decide_eq_true_eq]
      rcases he with rfl | ⟨e, he, rfl⟩
      · exact fun heq => hp heq.symm
      · intro heq
        refine hM.groups p e he ?_ k hk i hi heq
        rintro hnil
        rw [hnil, List.append_nil] at heq
        exact hp heq.symm
    have hget : (T.addAll (M.newDir p)).get (frameIn d k i) = T.get (frameIn d k i) := by
      rw [get_newDir, hfind, Option.map_none, Option.or_none]
    rw [FileTree.IsDir, hget]
    dsimp only
    rw [or_iff_left hp]
    exact h k hk i hi

/-- Writing a file changes no place. -/
lemma replace (h : PlacesAre d T P) {content data : CStr} (hfile : T.get p = some (.file content)) :
    PlacesAre d (T.replace p (.file data)) P := by
  intro k hk i hi
  rw [FileTree.IsDir, FileTree.get_replace]
  by_cases hq : frameIn d k i = p
  · have hplace := h k hk i hi
    rw [FileTree.IsDir, hq, hfile] at hplace
    rw [if_pos hq, hq, hfile]
    exact ⟨fun hP => Bool.noConfusion (hplace.1 hP), fun hP => Option.noConfusion rfl (heq_of_eq (hplace.2 hP))⟩
  · rw [if_neg hq]
    exact h k hk i hi

/-- A file that `set` writes is at no place. -/
lemma set (h : PlacesAre d w.tree P) {kind : AttrKind} {val : AttrVal} {path : Path} {file : CStr}
    (hval : kind.Fed val) :
    Ends (fun _ w' => PlacesAre d w'.tree P) (fun _ _ => True) False
      (kind.set M.kernel path name file val w) := by
  refine ends_set (fun data w' hfile ht => ?_) (fun _ _ _ => trivial) fun hnot => hnot hval
  obtain ⟨content, hcontent⟩ := hfile
  rw [ht]
  exact h.replace hcontent

end PlacesAre

lemma length_frameIn (hk : k < maxFormats) : (frameIn d k i).length = d.length + 4 := by
  have key : ∀ k < maxFormats, (formatName k).length = 2 := by decide
  simp [frameIn, formatAt, streamingAt, key k hk]

lemma length_resolve_le (p : Path) : p.resolve.length ≤ p.length := by
  cases p with
  | nil => exact le_rfl
  | cons a p =>
    rw [Path.resolve, List.length_cons, List.length_cons]
    exact Nat.succ_le_succ (List.length_filter_le ..)

lemma mkdir_eexist (h : M.exec (.mkdir p) T = .error .eexist) : (T.get p.resolve).isSome := by
  by_contra hnone
  rw [exec, Machine.mkdir, if_neg hnone] at h
  have hnot : ∀ n, notDir n ≠ .eexist := by
    intro n
    cases n <;> simp [notDir]
  split at h
  · exact hnot _ (Except.error.inj h)
  · split at h
    · cases h
    · cases h

/-- `uvc_create_dir` makes at most the frame at the end of the path. -/
lemma uvcCreateDir_places {path : Path} {P : ℕ → ℕ → Prop} (hM : FramesByHand M d)
    (hp : (if path.getLast? = some [] then path.dropLast else path) = p) (hne : p ≠ [])
    (hlen : p.length ≤ d.length + 4) (hplaces : PlacesAre d w.tree P) :
    Ends (fun _ w' => PlacesAre d w'.tree fun k i => P k i ∨ frameIn d k i = p.resolve)
      (fun _ _ => True) False (uvcCreateDir M.kernel path w) := by
  rw [uvcCreateDir]
  refine Ends.require_bind (fun _ => ?_) fun _ => trivial
  rw [hp]
  refine (Ends.forEachDone (fun l w' => PlacesAre d w'.tree fun k i => P k i ∨ frameIn d k i = p.resolve ∧ p ∈ l)
    ?_ (hplaces.congr (by simp))).mono ?_ fun _ _ h => h
  · intro l q u hl hu
    have hq : q <+: p := (List.mem_inits _ _).mp (List.mem_of_mem_tail (hl.subset (by simp)))
    -- the place of `q` is one of a frame only at the end
    have hnext : ∀ k < maxFormats, ∀ i < maxFrames,
        ((P k i ∨ frameIn d k i = p.resolve ∧ p ∈ l) ∨ frameIn d k i = q.resolve ↔
          P k i ∨ frameIn d k i = p.resolve ∧ p ∈ l ++ [q]) := by
      intro k hk i hi
      have hshort : frameIn d k i = q.resolve → p = q := by
        intro heq
        refine (hq.eq_of_length (le_antisymm hq.length_le ?_)).symm
        have := length_resolve_le q
        rw [← heq, length_frameIn hk] at this
        omega
      rw [or_assoc]
      refine or_congr_right ⟨?_, ?_⟩
      · rintro (⟨heq, hmem⟩ | heq)
        · exact ⟨heq, List.mem_append_left _ hmem⟩
        · exact ⟨hshort heq ▸ heq, by simp [hshort heq]⟩
      · rintro ⟨heq, hmem⟩
        rcases List.mem_append.mp hmem with hmem | hmem
        · exact .inl ⟨heq, hmem⟩
        · exact .inr (List.mem_singleton.mp hmem ▸ heq)
    refine Ends.bind (ends_rawCall (c := .mkdir q) (Q := fun r w' => (∃ e, r = .error e ∧ e ≠ .eexist) ∨
      PlacesAre d w'.tree fun k i => (P k i ∨ frameIn d k i = p.resolve ∧ p ∈ l) ∨ frameIn d k i = q.resolve)
      ?_ ?_) ?_
    · exact fun _ w' _ hexec _ => .inr (hu.mkdir hM (exec_mkdir.mp hexec))
    · intro e w' hwhy ht _
      by_cases he : e = .eexist
      · have hsome : (u.tree.get q.resolve).isSome := by
          rcases hwhy with hf | ⟨-, hexec⟩
          · rw [he] at hf
            exact absurd hf (hM.exist _ _)
          · rw [he] at hexec
            exact mkdir_eexist hexec
        rw [ht]
        refine .inr (hu.congr fun k hk i hi => (or_iff_left_of_imp fun heq => ?_).symm)
        -- what is there already is a directory
        by_contra hP
        rw [← heq, (hu k hk i hi).2 hP] at hsome
        cases hsome
      · exact .inl ⟨e, rfl, he⟩
    · rintro r w' (⟨e, rfl, he⟩ | hr)
      · exact Ends.require (fun heq => absurd heq he) fun _ => trivial
      · have hdone := hr.congr hnext
        cases r with
        | ok _ => exact hdone
        | error e => exact Ends.require (fun _ => hdone) fun _ => trivial
  · rintro - w' hw'
    have hmem : p ∈ p.inits.tail := by
      cases p with
      | nil => exact absurd rfl hne
      | cons a p => simp
    exact hw'.congr fun k _ i _ => by simp [hmem]

/-! ## One frame -/

/-- The directory that an entry of the scheme with the name is for. -/
def entryFormat (name : CStr) : Path := [name, name.take 1].filter (· ≠ [])

lemma filter_append_ne_nil {l : Path} {name : CStr} (h : name ≠ []) :
    (l ++ [name]).filter (· ≠ []) = l.filter (· ≠ []) ++ [name] := by
  rw [List.filter_append, List.filter_cons_of_pos (by simpa using h), List.filter_nil]

/-- `usbg_f_uvc_create_frame` -/
lemma usbgFUvcCreateFrame_ends {P : ℕ → ℕ → Prop} (hM : FramesByHand M f.dir) (hclean : f.dir.Clean)
    (hj : j < f.frames.length) (hi : i < maxFrames) (hplaces : PlacesAre f.dir w.tree P) :
    Ends (fun _ s => RowsGrown f s.2 (fun k i' => k = j ∧ i' = i) ∧
        PlacesAre f.dir s.1.tree fun k i' => P k i' ∨ formatName k = entryFormat name ∧ i' = i)
      (fun _ _ => True) False (usbgFUvcCreateFrame M.kernel [name, name.take 1] j i (w, f)) := by
  obtain ⟨p, hp⟩ : ∃ p : Path, p = f.dir ++ (uvcPathStreaming :: [name, name.take 1] ++ [frameDir i]) := ⟨_, rfl⟩
  have hpath : uvcFramePath f [name, name.take 1] i = p ++ [[]] := by
    rw [hp]
    simp [uvcFramePath, Func.dir]
  have hresolve : p.resolve = streamingAt f.dir ++ entryFormat name ++ [frameDir i] := by
    rw [hp, hclean.resolve_append, filter_append_ne_nil (frameDir_ne_nil _), List.filter_cons_of_pos (by decide)]
    simp only [streamingAt, entryFormat, List.append_assoc, List.cons_append, List.nil_append]
  have hplace : ∀ k, ∀ i' < maxFrames, frameIn f.dir k i' = p.resolve ↔ formatName k = entryFormat name ∧ i' = i := by
    intro k i' hi'
    rw [hresolve, frameIn, formatAt]
    constructor
    · intro heq
      obtain ⟨hformat, hframe⟩ := List.append_inj' heq rfl
      exact ⟨List.append_cancel_left hformat, frameDir_injective hi' hi (List.cons.inj hframe).1⟩
    · rintro ⟨hformat, rfl⟩
      rw [hformat]
  rw [usbgFUvcCreateFrame, self_bind_apply]
  refine Ends.require_bind (fun _ => ?_) fun _ => trivial
  refine Ends.bind (R := fun _ s => s.2 = f ∧
    PlacesAre f.dir s.1.tree fun k i' => P k i' ∨ formatName k = entryFormat name ∧ i' = i) (ends_io ?_) ?_
  · rw [hpath]
    refine (uvcCreateDir_places (p := p) hM (by simp) (by simp [hp]) (by simp [hp]) hplaces).mono
      (fun _ w' hw' => ⟨rfl, hw'.congr fun k _ i' hi' => or_congr_right (hplace k i' hi')⟩) fun _ _ h => h
  · rintro - ⟨w', f'⟩ ⟨rfl, hw'⟩
    exact ⟨rowsGrown_setFrame hj, hw'⟩

/-! ## The loops -/

/-- The number of frames of an entry of the scheme. -/
def framesCount (node : Setting) : ℕ :=
  match node.getMember "frames".toList with
  | some frames => frames.elems.length
  | none => 0

lemma usbgFUvcSetFrameAttrVal_places {P : ℕ → ℕ → Prop} {format : Path} {id : ℤ} {a : Attr} {val : AttrVal}
    (hplaces : PlacesAre d w.tree P) (hval : a.kind.Fed val) :
    Ends (fun _ w' => PlacesAre d w'.tree P) (fun _ _ => True) False
      (usbgFUvcSetFrameAttrVal M.kernel f format id a val w) :=
  Ends.require_bind (fun _ => hplaces.set hval) fun _ => trivial

/-- One round of the loop of `uvc_import_format` -/
lemma uvcImportFrame_ends {P : ℕ → ℕ → Prop} (hM : FramesByHand M f.dir) (hclean : f.dir.Clean)
    (hplaces : PlacesAre f.dir w.tree P) :
    Ends (fun _ s => (j < f.frames.length ∧ i < maxFrames) ∧ RowsGrown f s.2 (fun k i' => k = j ∧ i' = i) ∧
        PlacesAre f.dir s.1.tree fun k i' => P k i' ∨ formatName k = entryFormat name ∧ i' = i ∧ i ∉ f.row j)
      (fun _ _ => True) (¬ (j < f.frames.length ∧ i < maxFrames))
      (uvcImportFrame M.kernel [name, name.take 1] j i node (w, f)) := by
  refine Ends.require_bind (fun _ => ?_) fun _ => trivial
  rw [self_bind_apply]
  refine Ends.deref_bind (fun row hrow => ?_) fun hnone => fun h => ?_
  swap
  · exact absurd h.1 (by simpa using hnone)
  have hj : j < f.frames.length := (List.getElem?_eq_some_iff.mp hrow).1
  have hrow' : f.row j = row := by
    rw [Func.row, List.getD_eq_getElem?_getD, hrow]
    rfl
  refine Ends.bind (R := fun _ s => (j < f.frames.length ∧ i < maxFrames) ∧
    RowsGrown f s.2 (fun k i' => k = j ∧ i' = i) ∧
    PlacesAre f.dir s.1.tree fun k i' => P k i' ∨ formatName k = entryFormat name ∧ i' = i ∧ i ∉ f.row j) ?_ ?_
  · refine Ends.ite (fun hi h => absurd h.2 (by omega)) fun hi => ?_
    have hi' : i < maxFrames := by omega
    rw [hrow']
    refine Ends.when (fun hnew => ?_) fun hold =>
      ⟨⟨hj, hi'⟩, ⟨rfl, fun _ => rfl, rfl, fun k i' => (or_iff_left_of_imp ?_).symm⟩, ?_⟩
    · refine (usbgFUvcCreateFrame_ends hM hclean hj hi' hplaces).mono_undef ?_ (fun _ _ h => h) False.elim
      rintro - s ⟨hgrown, hs⟩
      exact ⟨⟨hj, hi'⟩, hgrown, hs.congr fun k _ i' _ => by simp [hnew]⟩
    · rintro ⟨rfl, rfl⟩
      rw [hrow']
      exact not_not.mp hold
    · exact hplaces.congr fun k _ i' _ => by simp [hold]
  · rintro - ⟨w₁, f₁⟩ ⟨hrange, hgrown, hs⟩
    refine ends_io ((importTable_ends (fun _ _ _ => trivial) (fun a val w hval hw =>
      usbgFUvcSetFrameAttrVal_places hw hval) hs).mono_undef (fun _ w' hw' => ⟨hrange, hgrown, hw'⟩)
      (fun _ _ _ => trivial) False.elim)

/-- The frames of an entry are in the range of the masks. -/
def EntryInRange (f : Func) (j : ℕ) (node : Setting) : Prop :=
  (framesCount node ≠ 0 → j < f.frames.length) ∧ framesCount node ≤ maxFrames

/-- `uvc_import_format` -/
lemma uvcImportFormat_ends {P : ℕ → ℕ → Prop} (hM : FramesByHand M f.dir) (hclean : f.dir.Clean)
    (hplaces : PlacesAre f.dir w.tree P) :
    Ends (fun _ s => EntryInRange f j node ∧ RowsGrown f s.2 (fun k i => k = j ∧ i < framesCount node) ∧
        PlacesAre f.dir s.1.tree fun k i =>
          P k i ∨ formatName k = entryFormat name ∧ i < framesCount node ∧ i ∉ f.row j)
      (fun _ _ => True) (¬ EntryInRange f j node)
      (uvcImportFormat M.kernel [name, name.take 1] j node (w, f)) := by
  rw [uvcImportFormat]
  cases hframes : node.getMember "frames".toList with
  | none => exact trivial
  | some frames =>
    have hcount : framesCount node = frames.elems.length := by rw [framesCount, hframes]
    refine Ends.require_bind (fun _ => ?_) fun _ => trivial
    rw [EntryInRange, hcount]
    -- after n rounds the first n indices of the row are marked, and their directories are there
    refine (Ends.forEachIdx (fun n s => ((n ≠ 0 → j < f.frames.length) ∧ n ≤ maxFrames) ∧
      RowsGrown f s.2 (fun k i => k = j ∧ i < n) ∧
      PlacesAre f.dir s.1.tree fun k i => P k i ∨ formatName k = entryFormat name ∧ i < n ∧ i ∉ f.row j) ?_
      ⟨⟨by simp, by simp⟩, (RowsGrown.refl f).congr (by simp), hplaces.congr (by simp)⟩).mono (fun _ _ h => h)
      fun _ _ h => h
    rintro n hn ⟨w₁, f₁⟩ ⟨⟨-, -⟩, hgrown, hs⟩
    have hdir := hgrown.dir
    have hfresh : ∀ i, i = n → (i ∉ f₁.row j ↔ i ∉ f.row j) := by
      rintro i rfl
      rw [hgrown.mem]
      simp
    refine (uvcImportFrame_ends (i := n) (hdir ▸ hM) (hdir ▸ hclean) (hdir ▸ hs)).mono_undef ?_
      (fun _ _ h => h) ?_
    · rintro - s ⟨⟨hj, hn'⟩, hgrown', hs'⟩
      rw [hgrown.length] at hj
      refine ⟨⟨fun _ => hj, hn'⟩, (hgrown.trans hgrown').congr fun k i => ?_, hdir ▸ hs'.congr fun k _ i _ => ?_⟩
      · rw [← and_or_left]
        exact and_congr_right fun _ => by omega
      · rw [or_assoc, ← and_or_left]
        refine or_congr_right (and_congr_right fun _ => ?_)
        rw [Nat.lt_succ_iff_lt_or_eq, or_and_right]
        refine or_congr_right (and_congr_right fun hin => ?_)
        rw [← hin]
        exact hfresh i hin
    · rintro hout ⟨hj, hlen⟩
      rw [hgrown.length] at hout
      exact hout ⟨hj (by omega), by omega⟩

/-- One round of the loop of `uvc_libconfig_import` -/
lemma uvcImportFormatNode_ends {P : ℕ → ℕ → Prop} (hM : FramesByHand M f.dir) (hclean : f.dir.Clean)
    (hplaces : PlacesAre f.dir w.tree P) :
    Ends (fun _ s => EntryInRange f j node ∧ RowsGrown f s.2 (fun k i => k = j ∧ i < framesCount node) ∧
        PlacesAre f.dir s.1.tree fun k i =>
          P k i ∨ formatName k = entryFormat name ∧ i < framesCount node ∧ i ∉ f.row j)
      (fun _ _ => True) (¬ EntryInRange f j node) (uvcImportFormatNode M.kernel j name node (w, f)) := by
  refine Ends.require_bind (fun _ => ?_) fun _ => trivial
  refine Ends.require_bind (fun _ => ?_) fun _ => trivial
  refine Ends.bind (uvcImportFormat_ends hM hclean hplaces) ?_
  rintro - ⟨w₁, f₁⟩ ⟨hrange, hgrown, hs⟩
  rw [self_bind_apply]
  refine ends_io ((importTable_ends (fun _ _ _ => trivial) (fun a val w hval hw => ?_) hs).mono_undef
    (fun _ w' hw' => ⟨hrange, hgrown, hw'⟩) (fun _ _ _ => trivial) False.elim)
  exact Ends.require_bind (fun _ => hw.set hval) fun _ => trivial

/-- The number of frames of the entry at a position. -/
def countAt (entries : Members) (k : ℕ) : ℕ := (entries[k]?.map fun e => framesCount e.2).getD 0

/-- A frame that an entry asks for and that is not in the row of its position. -/
def AskedBy (entries : Members) (inRow : ℕ → ℕ → Prop) (k i : ℕ) : Prop :=
  ∃ j e, entries[j]? = some e ∧ entryFormat e.1 = formatName k ∧ i < framesCount e.2 ∧ ¬ inRow j i

/-- The loop of `uvc_libconfig_import` -/
lemma uvcImportFormats_ends {P : ℕ → ℕ → Prop} {entries : Members} (hM : FramesByHand M f.dir)
    (hclean : f.dir.Clean) (hplaces : PlacesAre f.dir w.tree P) :
    Ends (fun _ s => (∀ j e, entries[j]? = some e → EntryInRange f j e.2) ∧
        RowsGrown f s.2 (fun k i => i < countAt entries k) ∧
        PlacesAre f.dir s.1.tree fun k i => P k i ∨ AskedBy entries (fun j i => i ∈ f.row j) k i)
      (fun _ _ => True) (¬ ∀ j e, entries[j]? = some e → EntryInRange f j e.2)
      (forEach (fun mi : (CStr × Setting) × ℕ => uvcImportFormatNode M.kernel mi.2 mi.1.1 mi.1.2)
        entries.zipIdx (w, f)) := by
  -- after `n` rounds the entries before `n` have been seen, and only their rows have changed
  refine (Ends.forEachIdx (fun n s => (∀ j < n, ∀ e, entries[j]? = some e → EntryInRange f j e.2) ∧
    RowsGrown f s.2 (fun k i => k < n ∧ i < countAt entries k) ∧
    PlacesAre f.dir s.1.tree fun k i => P k i ∨ ∃ j e, j < n ∧ entries[j]? = some e ∧
      entryFormat e.1 = formatName k ∧ i < framesCount e.2 ∧ i ∉ f.row j) ?_
    ⟨by simp, (RowsGrown.refl f).congr (by simp), hplaces.congr (by simp)⟩).mono ?_ fun _ _ h => h
  · rintro n hn ⟨w₁, f₁⟩ ⟨hrange, hgrown, hs⟩
    have hentry : entries[n]? = some entries[n] := List.getElem?_eq_getElem hn
    have hdir := hgrown.dir
    have hrow : ∀ i, i ∈ f₁.row n ↔ i ∈ f.row n := fun i => by simp [hgrown.mem]
    have hsame : EntryInRange f₁ n entries[n].2 ↔ EntryInRange f n entries[n].2 := by
      rw [EntryInRange, EntryInRange, hgrown.length]
    refine (uvcImportFormatNode_ends (hdir ▸ hM) (hdir ▸ hclean) (hdir ▸ hs)).mono_undef ?_ (fun _ _ h => h) ?_
    · rintro - s ⟨hin, hgrown', hs'⟩
      refine ⟨fun j hj e he => ?_, (hgrown.trans hgrown').congr fun k i => ?_, hdir ▸ hs'.congr fun k _ i _ => ?_⟩
      · rcases Nat.lt_succ_iff_lt_or_eq.mp hj with hj | rfl
        · exact hrange j hj e he
        · rw [hentry] at he
          exact Option.some.inj he ▸ hsame.mp hin
      · have hcount : k = n → countAt entries k = framesCount entries[n].2 := by
          rintro rfl
          rw [countAt, hentry]
          rfl
        rw [Nat.lt_succ_iff_lt_or_eq, or_and_right]
        exact or_congr_right (and_congr_right fun hk => by rw [hcount hk])
      · rw [or_assoc]
        refine or_congr_right ⟨?_, ?_⟩
        · rintro (⟨j, e, hj, he⟩ | ⟨hformat, hi, hnot⟩)
          · exact ⟨j, e, by omega, he⟩
          · exact ⟨n, entries[n], by omega, hentry, hformat.symm, hi, fun h => hnot ((hrow i).mpr h)⟩
        · rintro ⟨j, e, hj, he, hformat, hi, hnot⟩
          rcases Nat.lt_succ_iff_lt_or_eq.mp hj with hj | rfl
          · exact .inl ⟨j, e, hj, he, hformat, hi, hnot⟩
          · rw [hentry] at he
            obtain rfl := Option.some.inj he
            exact .inr ⟨hformat.symm, hi, fun h => hnot ((hrow i).mp h)⟩
    · exact fun hout hall => hout (hsame.mpr (hall n _ hentry))
  · rintro - s ⟨hrange, hgrown, hs⟩
    have hlt : ∀ {j e}, entries[j]? = some e → j < entries.length := fun he =>
      (List.getElem?_eq_some_iff.mp he).1
    refine ⟨fun j e he => hrange j (hlt he) e he, hgrown.congr fun k i => ?_, hs.congr fun k _ i _ => ?_⟩
    · refine and_iff_right_of_imp fun hi => ?_
      by_contra hk
      rw [countAt, List.getElem?_eq_none (by omega)] at hi
      simp at hi
    · refine or_congr_right ⟨?_, ?_⟩
      · rintro ⟨j, e, -, he⟩
        exact ⟨j, e, he⟩
      · rintro ⟨j, e, he, h⟩
        exact ⟨j, e, hlt he, he, h⟩

/-! ## The class headers -/

lemma uvcLink_places {P : ℕ → ℕ → Prop} {cs head : CStr} {target rest : Path} (hclean : d.Clean) (hcs : cs ≠ [])
    (hhead : head ≠ [] ∧ ∀ k < maxFormats, (formatName k).head? ≠ some head) (hplaces : PlacesAre d w.tree P) :
    Ends (fun _ w' => PlacesAre d w'.tree P) (fun _ _ => True) False
      (uvcLink M.kernel (d ++ [cs]) target (head :: rest) w) := by
  refine Ends.require_bind (fun _ => ?_) fun _ => trivial
  refine Ends.require_bind (fun _ => ?_) fun _ => trivial
  refine ends_call (c := .symlink (d ++ [cs] ++ target) (d ++ [cs] ++ head :: rest)) (fun _ w' hexec _ => ?_)
    fun _ _ _ _ _ => trivial
  obtain ⟨hnone, -, -, -, ht⟩ := symlink_eq_ok.mp (exec_symlink.mp hexec)
  have hne : ∀ k < maxFormats, ∀ i, (d ++ [cs] ++ head :: rest).resolve ≠ frameIn d k i := by
    intro k hk i heq
    have hformat : formatName k ≠ [] := by
      have key : ∀ k < maxFormats, formatName k ≠ [] := by decide
      exact key k hk
    rw [List.append_assoc, hclean.resolve_append, frameIn, formatAt, streamingAt] at heq
    simp only [List.append_assoc, List.cons_append, List.nil_append, List.append_cancel_left_eq] at heq
    rw [List.filter_cons_of_pos (by simpa using hcs), List.filter_cons_of_pos (by simpa using hhead.1)] at heq
    refine hhead.2 k hk ?_
    rw [← List.head?_append_of_ne_nil _ hformat, ← (List.cons.inj heq).2]
    rfl
  intro k hk i hi
  rw [ht, FileTree.IsDir, FileTree.get_add, if_neg (hne k hk i), Option.or_none]
  exact hplaces k hk i hi

lemma uvcLinkFormat_places {P : ℕ → ℕ → Prop} {cs head : CStr} {format rest : Path} (hclean : d.Clean)
    (hcs : cs ≠ []) (hhead : head ≠ [] ∧ ∀ k < maxFormats, (formatName k).head? ≠ some head)
    (hplaces : PlacesAre d w.tree P) :
    Ends (fun _ w' => PlacesAre d w'.tree P) (fun _ _ => True) False
      (uvcLinkFormat M.kernel (d ++ [cs]) format (head :: rest) w) := by
  refine Ends.require_bind (fun _ => ?_) fun _ => trivial
  refine Ends.bind (R := fun _ w' => PlacesAre d w'.tree P) (ends_rawCall (c := .stat (d ++ [cs] ++ format))
    (fun _ w' _ hexec _ => ?_) fun _ w' _ ht _ => ht ▸ hplaces) ?_
  · have ht : w'.tree = w.tree := by
      rw [exec] at hexec
      split at hexec
      · exact (Prod.mk.inj (Except.ok.inj hexec)).2.symm
      · cases hexec
    exact ht ▸ hplaces
  · rintro (_ | _) w' hw'
    · exact hw'
    · exact uvcLink_places hclean hcs hhead hw'

/-- `uvc_set_class` -/
lemma uvcSetClass_places {P : ℕ → ℕ → Prop} {cs : CStr} (hM : FramesByHand M f.dir) (hclean : f.dir.Clean)
    (hcs : cs ≠ []) (hplaces : PlacesAre f.dir w.tree P) :
    Ends (fun _ s => s.2 = f ∧ PlacesAre f.dir s.1.tree P) (fun _ _ => True) False
      (uvcSetClass M.kernel cs (w, f)) := by
  have hheader : "header".toList ≠ [] ∧ ∀ k < maxFormats, (formatName k).head? ≠ some "header".toList := by decide
  have hclass : "class".toList ≠ [] ∧ ∀ k < maxFormats, (formatName k).head? ≠ some "class".toList := by decide
  have hpath : f.path ++ [f.name, cs] = f.dir ++ [cs] := by simp [Func.dir]
  rw [uvcSetClass, self_bind_apply]
  dsimp only
  rw [hpath]
  refine ends_io ?_
  refine Ends.require_bind (fun _ => ?_) fun _ => trivial
  refine Ends.require_bind (fun _ => ?_) fun _ => trivial
  refine Ends.bind (R := fun _ w' => PlacesAre f.dir w'.tree P) ?_ fun _ w' hw' => ?_
  · refine (uvcCreateDir_places (p := f.dir ++ [cs] ++ uvcPathHeader) hM ?_ ?_ ?_ hplaces).mono ?_ fun _ _ h => h
    · rw [if_neg]
      simp [uvcPathHeader]
    · simp
    · simp [uvcPathHeader]
    · rintro - w' hw'
      refine hw'.congr fun k hk i _ => or_iff_left fun heq => ?_
      have hlen := length_resolve_le (f.dir ++ [cs] ++ uvcPathHeader)
      rw [← heq, length_frameIn hk] at hlen
      simp [uvcPathHeader] at hlen
  refine Ends.bind (R := fun _ w' => PlacesAre f.dir w'.tree P) (Ends.when (fun _ => ?_) fun _ => hw') ?_
  · refine Ends.bind (uvcLinkFormat_places hclean hcs hheader hw') fun _ w₁ hw₁ => ?_
    refine Ends.bind (uvcLinkFormat_places hclean hcs hheader hw₁) fun _ w₂ hw₂ => ?_
    exact uvcLink_places hclean hcs hclass hw₂
  · intro _ w₁ hw₁
    refine Ends.bind (uvcLink_places hclean hcs hclass hw₁) fun _ w₂ hw₂ => ?_
    exact (uvcLink_places hclean hcs hclass hw₂).mono (fun _ _ h => ⟨rfl, h⟩) fun _ _ h => h

/-- `uvc_import_config` -/
lemma uvcImportConfig_places {P : ℕ → ℕ → Prop} {root : Setting} (hplaces : PlacesAre d w.tree P) :
    Ends (fun _ s => s.2 = f ∧ PlacesAre d s.1.tree P) (fun _ _ => True) False
      (uvcImportConfig M.kernel root (w, f)) := by
  rw [uvcImportConfig]
  cases root.getMember "config".toList with
  | none => exact trivial
  | some config =>
    refine Ends.require_bind (fun _ => ?_) fun _ => trivial
    rw [self_bind_apply]
    refine ends_io ((importTable_ends (fun _ _ _ => trivial) (fun a val w hval hw => ?_) hplaces).mono
      (fun _ w' hw' => ⟨rfl, hw'⟩) fun _ _ h => h)
    exact Ends.require_bind (fun _ => hw.set hval) fun _ => trivial

/-! ## The whole import -/

section Whole

variable {root : Setting}

/-- The entries of the group of formats. -/
def formatEntries (root : Setting) : Members := ((root.getMember "formats".toList).map Setting.members).getD []

/-- A frame is in the masks if and only if it is there. -/
def MasksTruthful (s : World Fs × Func) : Prop :=
  ∀ k < maxFormats, ∀ i < maxFrames, i ∈ s.2.row k ↔ s.1.tree.IsDir (frameIn s.2.dir k i)

/-- The masks are only accessed in their range, and when the import succeeds they tell the truth. -/
structure ImportSafe (r : Outcome UsbgError Unit × World Fs × Func) : Prop where
  bounds : r.1 ≠ .undef
  truthful : r.1 = .ok () → MasksTruthful r.2

/-- The numbers in the names of the entries on disk are in the range of the masks, only the first two
entries of the group have frames, and none has too many. -/
structure ImportInRange (M : Machine) (w : World Fs) (f : Func) (root : Setting) : Prop where
  readable : RowsReadable M w f
  entries : ∀ j e, (formatEntries root)[j]? = some e → EntryInRange f j e.2

/-- What is in the row of a format, or is put there for the entry at its position, is there, or is made
for an entry with its name. -/
def ImportInOrder (M : Machine) (w : World Fs) (f : Func) (root : Setting) : Prop :=
  ∀ k < maxFormats, ∀ i < maxFrames, RowRead M w f k i ∨ i < countAt (formatEntries root) k ↔
    w.tree.IsDir (frameIn f.dir k i) ∨ AskedBy (formatEntries root) (RowRead M w f) k i

/-- `uvc_libconfig_import` -/
lemma uvcLibconfigImport_ends (hclean : f.dir.Clean) (hlen : f.frames.length = maxFormats)
    (hM : FramesByHand M f.dir)
    (hdirs : ∀ k < maxFormats, ∀ i < maxFrames, ∀ n, w.tree.get (frameIn f.dir k i) = some n →
      w.tree.IsDir (frameIn f.dir k i)) :
    Ends (fun _ s => ImportInRange M w f root ∧ (MasksTruthful s ↔ ImportInOrder M w f root))
      (fun _ _ => True) (¬ ImportInRange M w f root) (uvcLibconfigImport M.kernel root (w, f)) := by
  rw [uvcLibconfigImport]
  cases hformats : root.getMember "formats".toList with
  | none => exact trivial
  | some formats =>
    have hentries : formats.members = formatEntries root := by rw [formatEntries, hformats]; rfl
    refine Ends.require_bind (fun _ => ?_) fun _ => trivial
    refine Ends.bind ((getFormatsMask_ends hclean hlen).mono_undef (fun _ _ h => h) (fun _ _ h => h.elim)
      fun hnot h => hnot h.readable) ?_
    rintro - ⟨w₁, f₁⟩ ⟨hreadable, ht₁, hgrown₁⟩
    dsimp only at ht₁
    have hrow : ∀ k < maxFormats, ∀ i, i ∈ f₁.row k ↔ RowRead M w f k i := by
      intro k hk i
      rw [hgrown₁.mem, RowRead]
      exact or_congr_right (and_iff_right hk)
    have hrange : ∀ j (node : Setting), EntryInRange f₁ j node ↔ EntryInRange f j node := by
      intro j node
      rw [EntryInRange, EntryInRange, hgrown₁.length]
    have hplaces : PlacesAre f₁.dir w₁.tree fun k i => w.tree.IsDir (frameIn f.dir k i) := by
      rw [hgrown₁.dir, ht₁]
      refine fun k hk i hi => ⟨id, fun hnot => ?_⟩
      by_contra hsome
      obtain ⟨n, hn⟩ := Option.ne_none_iff_exists'.mp hsome
      exact hnot (hdirs k hk i hi n hn)
    rw [hentries]
    refine Ends.bind ((uvcImportFormats_ends (hgrown₁.dir ▸ hM) (hgrown₁.dir ▸ hclean) hplaces).mono_undef
      (fun _ _ h => h) (fun _ _ h => h) fun hnot h => hnot fun j e he => (hrange j e.2).mpr (h.entries j e he)) ?_
    rintro - ⟨w₂, f₂⟩ ⟨hin, hgrown₂, hplaces₂⟩
    have hgrown := hgrown₁.trans hgrown₂
    rw [hgrown₁.dir] at hplaces₂
    refine Ends.bind ((uvcImportConfig_places hplaces₂).mono_undef (fun _ _ h => h) (fun _ _ h => h) False.elim) ?_
    rintro - ⟨w₃, f₃⟩ ⟨hsame, hplaces₃⟩
    obtain rfl : f₃ = f₂ := hsame
    rw [← hgrown.dir] at hM hclean hplaces₃
    refine Ends.bind ((uvcSetClass_places hM hclean (by decide) hplaces₃).mono_undef (fun _ _ h => h)
      (fun _ _ h => h) False.elim) ?_
    rintro - ⟨w₄, f₄⟩ ⟨hsame, hplaces₄⟩
    obtain rfl : f₄ = f₃ := hsame
    refine (uvcSetClass_places hM hclean (by decide) hplaces₄).mono_undef ?_ (fun _ _ h => h) False.elim
    rintro - ⟨w₅, f₅⟩ ⟨hsame, hplaces₅⟩
    obtain rfl : f₅ = f₄ := hsame
    refine ⟨⟨hreadable, fun j e he => (hrange j e.2).mp (hin j e he)⟩, ?_⟩
    -- both sides say the same of every place
    rw [MasksTruthful, ImportInOrder]
    refine forall₂_congr fun k hk => forall₂_congr fun i hi => ?_
    have hasked : AskedBy (formatEntries root) (fun j i => i ∈ f₁.row j) k i ↔
        AskedBy (formatEntries root) (RowRead M w f) k i := by
      refine exists₂_congr fun j e => and_congr_right fun he => and_congr_right fun _ => and_congr_right fun hi => ?_
      have hj := (hin j e he).1 (by omega)
      rw [hgrown₁.length, hlen] at hj
      exact not_congr (hrow j hj i)
    have hmem : i ∈ f₅.row k ↔ RowRead M w f k i ∨ i < countAt (formatEntries root) k := by
      rw [hgrown₂.mem, hrow k hk]
    rw [hplaces₅.isDir_iff hk hi, hmem, hasked, hgrown.dir]

/-- The masks are kept in bounds and tell the truth where the entries of the group are at the positions
of their formats. -/
theorem uvcImportSafe_iff (M : Machine) (w : World Fs) (f : Func) (root : Setting) (hclean : f.dir.Clean)
    (hlen : f.frames.length = maxFormats) (hM : FramesByHand M f.dir)
    (hdirs : ∀ k < maxFormats, ∀ i < maxFrames, ∀ n, w.tree.get (frameIn f.dir k i) = some n →
      w.tree.IsDir (frameIn f.dir k i)) :
    (ImportInRange M w f root ∧ ImportInOrder M w f root → ImportSafe (uvcLibconfigImport M.kernel root (w, f))) ∧
      ((∀ e, (uvcLibconfigImport M.kernel root (w, f)).1 ≠ .fail e) →
        ImportSafe (uvcLibconfigImport M.kernel root (w, f)) →
          ImportInRange M w f root ∧ ImportInOrder M w f root) := by
  have hends : Ends _ _ _ (uvcLibconfigImport M.kernel root (w, f)) := uvcLibconfigImport_ends hclean hlen hM hdirs
  rcases hrun : uvcLibconfigImport M.kernel root (w, f) with ⟨_ | e | _, s⟩
  · rw [hrun] at hends
    exact ⟨fun h => ⟨by simp, fun _ => hends.2.mpr h.2⟩, fun _ h => ⟨hends.1, hends.2.mp (h.truthful rfl)⟩⟩
  · exact ⟨fun _ => ⟨by simp, by simp⟩, fun h => absurd rfl (h e)⟩
  · rw [hrun] at hends
    exact ⟨fun h => absurd h.1 hends, fun _ h => absurd rfl h.bounds⟩

/-- In a new function the entries are in order where each has the name of the format at its position. -/
lemma importInOrder_of_new (hread : ∀ k < maxFormats, ∀ i, ¬ RowRead M w f k i)
    (hdir : ∀ k < maxFormats, ∀ i < maxFrames, ¬ w.tree.IsDir (frameIn f.dir k i))
    (hnames : ∀ j e, (formatEntries root)[j]? = some e → j < maxFormats ∧ entryFormat e.1 = formatName j) :
    ImportInOrder M w f root := by
  have hinj : ∀ j < maxFormats, ∀ k < maxFormats, formatName j = formatName k → j = k := by decide
  intro k hk i hi
  rw [or_iff_right (hread k hk i), or_iff_right (hdir k hk i hi)]
  constructor
  · intro hcount
    cases he : (formatEntries root)[k]? with
    | none =>
      rw [countAt, he] at hcount
      simp at hcount
    | some e =>
      rw [countAt, he] at hcount
      exact ⟨k, e, he, (hnames k e he).2, hcount, hread k hk i⟩
  · rintro ⟨j, e, he, hformat, hcount, -⟩
    obtain ⟨hj, hname⟩ := hnames j e he
    obtain rfl := hinj j hj k hk (hname.symm.trans hformat)
    rw [countAt, he]
    exact hcount

end Whole

/-! ## An example -/

section Example

/-- The directories of a new video function. -/
def videoDirs : List Path :=
  videoFunc.dir.inits.tail ++
    ([["control"], ["control", "header"], ["control", "class"], ["control", "class", "fs"],
      ["control", "class", "ss"], ["streaming"], ["streaming", "mjpeg"], ["streaming", "uncompressed"],
      ["streaming", "header"], ["streaming", "class"], ["streaming", "class", "fs"], ["streaming", "class", "hs"],
      ["streaming", "class", "ss"]].map fun names => videoFunc.dir ++ names.map String.toList)

/-- The tree with a new video function. -/
def videoTree : Tree := FileTree.addAll .empty (videoDirs.map fun p => (p, .dir false))

/-- A scheme with formats that have so many frames. -/
def formatsScheme (formats : List (String × ℕ)) : Setting :=
  .group [("formats".toList, .group (formats.map fun e =>
    (e.1.toList, .group [("frames".toList, .list (List.replicate e.2 (.group [])))]))),
    ("config".toList, .group [])]

/-- An import into the new function. -/
def importRun (formats : List (String × ℕ)) : Outcome UsbgError Unit × World Fs × Func :=
  uvcLibconfigImport willing.kernel (formatsScheme formats) (worldOf videoTree, videoFunc)

lemma videoTree_new : ∀ k < maxFormats, ¬ videoTree.IsDir (formatAt videoFunc.dir k) ∧
    ∀ i < maxFrames, videoTree.get (frameIn videoFunc.dir k i) = none := by
  decide +kernel

lemma framesByHand_willing (d : Path) : FramesByHand willing d := ⟨by simp [willing], by simp [willing]⟩

lemma rowRead_videoTree (hk : k < maxFormats) (i : ℕ) : ¬ RowRead willing (worldOf videoTree) videoFunc k i := by
  have hrow : ∀ k < maxFormats, videoFunc.row k = [] := by decide
  rintro (hmem | ⟨-, hlisted, -⟩)
  · rw [hrow k hk] at hmem
    cases hmem
  · exact (videoTree_new k hk).1 hlisted.2.2

/-- Formats at the positions of their rows. -/
theorem uvcImportSafe_mjpegFirst : ImportSafe (importRun [("mjpeg", 2), ("uncompressed", 1)]) := by
  have hentries : ∀ j e, (formatEntries (formatsScheme [("mjpeg", 2), ("uncompressed", 1)]))[j]? = some e →
      j < maxFormats ∧ entryFormat e.1 = formatName j ∧ framesCount e.2 ≤ maxFrames := by
    have key : ∀ je ∈ (formatEntries (formatsScheme [("mjpeg", 2), ("uncompressed", 1)])).zipIdx,
        je.2 < maxFormats ∧ entryFormat je.1.1 = formatName je.2 ∧ framesCount je.1.2 ≤ maxFrames := by decide
    exact fun j e he => key (e, j) (List.mem_zipIdx_iff_getElem?.mpr he)
  refine (uvcImportSafe_iff willing (worldOf videoTree) videoFunc _ (by decide) rfl (framesByHand_willing _)
    fun k hk i hi n hn => ?_).1 ⟨⟨fun _ k hk hlisted => ?_, fun j e he => ?_⟩, ?_⟩
  · cases ((videoTree_new k hk).2 i hi).symm.trans hn
  · exact absurd hlisted.2.2 (videoTree_new k hk).1
  · exact ⟨fun _ => (hentries j e he).1, (hentries j e he).2.2⟩
  · refine importInOrder_of_new (fun k hk i => rowRead_videoTree hk i) (fun k hk i hi => ?_) fun j e he =>
      ⟨(hentries j e he).1, (hentries j e he).2.1⟩
    rw [tree_worldOf, FileTree.IsDir, (videoTree_new k hk).2 i hi]
    exact Bool.false_ne_true

lemma importRun_uncompressed : (importRun [("uncompressed", 1)]).1 = .ok () ∧
    0 ∈ (importRun [("uncompressed", 1)]).2.2.row 0 ∧
    ¬ (importRun [("uncompressed", 1)]).2.1.tree.IsDir (frameIn (importRun [("uncompressed", 1)]).2.2.dir 0 0) := by
  decide +kernel

/-- A scheme that has the second format only: its frame is in the row of the first. -/
theorem uvcImportSafe_fails : ¬ ImportSafe (importRun [("uncompressed", 1)]) := by
  obtain ⟨hok, hmem, hdir⟩ := importRun_uncompressed
  exact fun h => hdir ((h.truthful hok 0 (by decide) 0 (by decide)).mp hmem)

end Example

end Libusbgx
