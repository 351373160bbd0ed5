import Libusbgx.Attributes.Files
import Libusbgx.Source.Function.Scheme
import Libusbgx.Video.Import

/-!
# Exporting a video function

`uvc_libconfig_export` counts the frames in the mask of a format and exports as many numbers from 0 on.
A number without a frame has no files; that ends its group but not the export.
-/

namespace Libusbgx

open Prog Machine

variable {M : Machine} {w : World Fs} {f : Func} {d : Path} {T : Tree} {i k : ℕ} {a : Attr}

/-! ## Frames -/

/-- A number that is read from a file with this content; what stands behind the content in the buffer
belongs to it if there is no other end. -/
def DecFrom (content : CStr) (v : ℤ) : Prop :=
  ∃ stale, v = toInt (strtol 10 (ofBuffer (content.take usbgMaxStrLength ++ stale))).value

/-- The node is that of the attribute of the frame. -/
def AttrNode (d : Path) (T : Tree) (k i : ℕ) (a : Attr) (m : CStr × Setting) : Prop :=
  ∃ content v, T.get (frameIn d k i ++ [a.name]) = some (.file content) ∧ DecFrom content v ∧ m = (a.name, .int v)

/-- The node is a group with the attributes of the frame. -/
def FrameGroup (d : Path) (T : Tree) (k i : ℕ) (node : Setting) : Prop :=
  ∃ members, List.Forall₂ (AttrNode d T k i) uvcFrameAttr members ∧ node = .group members

/-- The numbers of the frames of a format. -/
def framesOf (d : Path) (T : Tree) (k : ℕ) : List ℕ := (List.range maxFrames).filter fun i => T.IsDir (frameIn d k i)

lemma mem_framesOf : i ∈ framesOf d T k ↔ i < maxFrames ∧ T.IsDir (frameIn d k i) := by
  rw [framesOf, List.mem_filter, List.mem_range, decide_eq_true_eq]

/-- Nothing but the frames looks like a frame, each frame has its files, and the frames in the masks are
there. -/
structure FramesOk (T : Tree) (f : Func) : Prop where
  clean : f.dir.Clean
  rows : f.frames.length = maxFormats
  names : ∀ k < maxFormats, ∀ name n, T.get (formatAt f.dir k ++ [name]) = some n →
    scanIndex "frame.".toList name = .mismatch ∨ ∃ i < maxFrames, name = frameDir i ∧ n.isDir = true
  files : ∀ k < maxFormats, ∀ i < maxFrames, T.IsDir (frameIn f.dir k i) →
    ∀ a ∈ uvcFrameAttr, ∃ content, T.get (frameIn f.dir k i ++ [a.name]) = some (.file content)
  parents : ∀ k < maxFormats, ∀ i < maxFrames, ∀ name n,
    T.get (frameIn f.dir k i ++ [name]) = some n → T.IsDir (frameIn f.dir k i)
  sound : ∀ k < maxFormats, ∀ i ∈ f.row k, i < maxFrames ∧ T.IsDir (frameIn f.dir k i)

/-- A read that is refused is not refused as if the file were not there. -/
def NoneHidden (M : Machine) : Prop :=
  ∀ n p e, M.fault n (.read p) = some e → usbgTranslateError e ≠ .notFound

/-- The list of frames in the group of a format. -/
def framesNode (root : Setting) (k : ℕ) : Option Setting := do
  let formats ← root.getMember "formats".toList
  let format ← formats.getMember (formatNodeName (formatName k))
  format.getMember "frames".toList

/-- Every format has a list with one group for each of its frames, in the order of their numbers. -/
def FramesExported (d : Path) (T : Tree) (members : Members) : Prop :=
  ∀ k < maxFormats, ∃ nodes, framesNode (.group members) k = some (.list nodes) ∧
    List.Forall₂ (FrameGroup d T k) (framesOf d T k) nodes

/-! ## One frame -/

lemma resolve_frameFile (hclean : f.dir.Clean) (hname : a.name ≠ []) :
    (uvcFramePath f (formatName k) i ++ [[], a.name]).resolve = frameIn f.dir k i ++ [a.name] := by
  have hpath : uvcFramePath f (formatName k) i ++ [[], a.name] =
      f.dir ++ (uvcPathStreaming :: (formatName k ++ [frameDir i, [], [], a.name])) := by
    simp [uvcFramePath, Func.dir]
  rw [hpath, hclean.resolve_append, List.filter_cons_of_pos (by decide), List.filter_append, filter_formatName]
  simp [frameIn, formatAt, streamingAt, frameDir_ne_nil, hname]

lemma uvcFrameAttr_facts : ∀ a ∈ uvcFrameAttr, a.kind = .dec ∧ a.name ≠ [] := by decide

/-- `usbg_f_uvc_get_frame_attr_val` -/
lemma usbgFUvcGetFrameAttrVal_ends (hclean : f.dir.Clean) (hhidden : NoneHidden M) (ha : a ∈ uvcFrameAttr) :
    Ends (fun val w' => w'.tree = w.tree ∧ ∃ content v,
        w.tree.get (frameIn f.dir k i ++ [a.name]) = some (.file content) ∧ DecFrom content v ∧ val = .int v)
      (fun e w' => w'.tree = w.tree ∧ (e = .notFound → w.tree.get (frameIn f.dir k i ++ [a.name]) = none)) False
      (usbgFUvcGetFrameAttrVal M.kernel f (formatName k) i a w) := by
  obtain ⟨hkind, hname⟩ := uvcFrameAttr_facts a ha
  have hresolve := resolve_frameFile (k := k) (i := i) hclean hname
  rw [usbgFUvcGetFrameAttrVal, hkind, AttrKind.get, usbgReadDec, usbgReadInt, usbgReadBuf, usbgReadBufLimited]
  simp only [Prog.bind_assoc]
  refine Ends.require_bind (fun _ => ?_) fun _ => ⟨rfl, by simp⟩
  refine Ends.require_bind (fun _ => ?_) fun _ => ⟨rfl, by simp⟩
  refine Ends.bind (R := fun content w' => w'.tree = w.tree ∧
    w.tree.get (frameIn f.dir k i ++ [a.name]) = some (.file content)) ?_ ?_
  · refine ends_call_errno (c := .read _) (fun content w' h => ?_) fun errno w' hwhy ht => ⟨ht, fun he => ?_⟩
    · obtain ⟨hfile, ht⟩ := exec_read.mp h
      rw [hresolve] at hfile
      exact ⟨ht, readFile_eq_ok.mp hfile⟩
    · rcases hwhy with ⟨n, hf⟩ | hexec
      · exact absurd he (hhidden n _ errno hf)
      · rw [exec, hresolve, readFile] at hexec
        cases hget : w.tree.get (frameIn f.dir k i ++ [a.name]) with
        | none => rfl
        | some n =>
          -- a node that is not a file is read with another error
          rw [hget] at hexec
          cases n <;> cases hexec
          all_goals cases he
  · rintro content w' ⟨ht, hfile⟩
    exact ⟨ht, content, _, hfile, ⟨_, rfl⟩, rfl⟩

/-- The loop of `uvc_export_frame_attrs`: a frame has all its attributes, and what is not a frame has
none. -/
lemma exportFound_frame (h : FramesOk w.tree f) (hhidden : NoneHidden M) (hk : k < maxFormats) (hi : i < maxFrames)
    {table : List Attr} (htable : ∀ a ∈ table, a ∈ uvcFrameAttr) (root : Members) :
    Ends (fun root' w' => w'.tree = w.tree ∧
        (w.tree.IsDir (frameIn f.dir k i) → ∃ members, List.Forall₂ (AttrNode f.dir w.tree k i) table members ∧
          root' = root ++ members) ∧
        (¬ w.tree.IsDir (frameIn f.dir k i) → root' = root))
      (fun _ _ => True) False
      (exportFound (usbgFUvcGetFrameAttrVal M.kernel f (formatName k) i) table root w) := by
  -- over the attributes: the first that is not found ends the loop, without an error
  induction table generalizing root w with
  | nil => exact ⟨rfl, fun _ => ⟨[], .nil, by simp⟩, fun _ => rfl⟩
  | cons a table ih =>
    have ha := htable a (by simp)
    have htail : ∀ a ∈ table, a ∈ uvcFrameAttr := fun a ha => htable a (by simp [ha])
    refine Ends.attempt_bind
      (R := fun root' w' => w'.tree = w.tree ∧ w.tree.IsDir (frameIn f.dir k i) ∧
        ∃ m, AttrNode f.dir w.tree k i a m ∧ root' = root ++ [m])
      (F := fun e w' => w'.tree = w.tree ∧ (e = .notFound → ¬ w.tree.IsDir (frameIn f.dir k i))) ?_ ?_ ?_
    · refine Ends.bind ((usbgFUvcGetFrameAttrVal_ends (k := k) (i := i) h.clean hhidden ha).mono (fun _ _ h => h) ?_) ?_
      · rintro e w' ⟨ht, hmissing⟩
        refine ⟨ht, fun he hdir => ?_⟩
        obtain ⟨content, hfile⟩ := h.files k hk i hi hdir a ha
        rw [hmissing he] at hfile
        cases hfile
      · rintro val w' ⟨ht, content, v, hfile, hdec, rfl⟩
        have hdir := h.parents k hk i hi _ _ hfile
        rw [(uvcFrameAttr_facts a ha).1, AttrKind.exprt, usbgSetConfigNodeInt, configSettingAdd, Setting.addMember]
        by_cases hname : a.name ∈ root.map Prod.fst
        · rw [if_pos hname]
          exact ⟨ht, fun he => by cases he⟩
        · rw [if_neg hname]
          exact ⟨ht, hdir, _, ⟨content, v, hfile, hdec, rfl⟩, rfl⟩
    · rintro _ w' ⟨ht, hdir, m, hm, rfl⟩
      refine (ih (ht ▸ h) htail _).mono ?_ fun _ _ h => h
      rintro root'' w'' ⟨ht', hall, -⟩
      rw [ht] at ht' hall
      refine ⟨ht', fun _ => ?_, fun hnot => absurd hdir hnot⟩
      obtain ⟨members, hmembers, rfl⟩ := hall hdir
      exact ⟨m :: members, .cons hm hmembers, by simp⟩
    · rintro e w' ⟨ht, hround⟩
      cases e <;> first
        | exact trivial
        | exact ⟨ht, fun hdir => absurd hdir (hround rfl), fun _ => rfl⟩

/-- What is exported for a number. -/
structure NumberExported (d : Path) (T : Tree) (k i : ℕ) (node : Setting) : Prop where
  frame : T.IsDir (frameIn d k i) → FrameGroup d T k i node
  missing : ¬ T.IsDir (frameIn d k i) → node = .group []

/-- `uvc_export_frame_attrs` -/
lemma uvcExportFrameAttrs_ends (h : FramesOk w.tree f) (hhidden : NoneHidden M) (hk : k < maxFormats)
    (hi : i < maxFrames) :
    Ends (fun members w' => w'.tree = w.tree ∧ NumberExported f.dir w.tree k i (.group members)) (fun _ _ => True)
      False (uvcExportFrameAttrs M.kernel f (formatName k) i [] w) := by
  refine (exportFound_frame h hhidden hk hi (fun _ ha => ha) []).mono ?_ fun _ _ h => h
  rintro root' w' ⟨ht, hframe, hmissing⟩
  refine ⟨ht, fun hdir => ?_, fun hnot => congrArg Setting.group (hmissing hnot)⟩
  obtain ⟨members, hmembers, hroot⟩ := hframe hdir
  exact ⟨members, hmembers, congrArg Setting.group hroot⟩

/-! ## The lists -/

lemma usbgFUvcGetNframes_le (frames : List ℕ) : usbgFUvcGetNframes frames ≤ maxFrames := by
  refine (List.length_filter_le _ _).trans ?_
  rw [List.length_range]

/-- `uvc_export_frames` -/
lemma uvcExportFrames_ends (h : FramesOk w.tree f) (hhidden : NoneHidden M) (hk : k < maxFormats) (frames : List ℕ) :
    Ends (fun members w' => w'.tree = w.tree ∧ ∃ nodes, members = [("frames".toList, .list nodes)] ∧
        List.Forall₂ (NumberExported f.dir w.tree k) (List.range (usbgFUvcGetNframes frames)) nodes)
      (fun _ _ => True) False (uvcExportFrames M.kernel f (formatName k) frames [] w) := by
  refine addNode_ends (fun hname => by simp at hname) fun _ => ?_
  refine Ends.bind (R := fun nodes w' => w'.tree = w.tree ∧
    List.Forall₂ (NumberExported f.dir w.tree k) (List.range (usbgFUvcGetNframes frames)) nodes) ?_ ?_
  · refine Ends.foldlM (fun done nodes (w' : World Fs) => w'.tree = w.tree ∧
      List.Forall₂ (NumberExported f.dir w.tree k) done nodes) ?_ ⟨rfl, .nil⟩
    rintro done i nodes w' hpre ⟨ht, hdone⟩
    have hi : i < usbgFUvcGetNframes frames := List.mem_range.mp (hpre.subset (by simp))
    refine Ends.bind (uvcExportFrameAttrs_ends (ht ▸ h) hhidden hk (hi.trans_le (usbgFUvcGetNframes_le frames))) ?_
    rintro members w'' ⟨ht', hnode⟩
    rw [ht] at ht' hnode
    exact ⟨ht', List.rel_append hdone (.cons hnode .nil)⟩
  · rintro nodes w' ⟨ht, hall⟩
    exact ⟨ht, nodes, rfl, hall⟩

/-- An export over a table only adds to the group. -/
lemma prefix_exportFound {get : Attr → Io Fs AttrVal}
    (hget : ∀ a w, Ends (fun _ w' => w'.tree = w.tree) (fun _ w' => w'.tree = w.tree) True (get a w))
    (table : List Attr) (root : Members) :
    Ends (fun root' w' => w'.tree = w.tree ∧ root <+: root') (fun _ _ => True) True
      (exportFound get table root w) := by
  induction table generalizing root w with
  | nil => exact ⟨rfl, List.prefix_rfl⟩
  | cons a table ih =>
    refine Ends.attempt_bind (R := fun root' w' => w'.tree = w.tree ∧ root <+: root')
      (F := fun _ w' => w'.tree = w.tree) ?_ ?_ ?_
    · refine Ends.bind (hget a w) fun val w' ht => ?_
      refine (prefix_exprt a.kind root a.name val).mono (fun _ _ h => ⟨?_, h.2⟩) fun _ _ h => ?_
      · rw [h.1, ht]
      · rw [h, ht]
    · rintro root' w' ⟨ht, hround⟩
      refine (ih root').mono (fun _ _ h => ?_) fun _ _ h => h
      exact ⟨h.1.trans ht, hround.trans h.2⟩
    · intro e w' ht
      cases e <;> first
        | exact trivial
        | exact ⟨ht, List.prefix_rfl⟩

/-! ## The formats -/

/-- What is exported for a format whose row of the masks is known. -/
def FormatExported (d : Path) (T : Tree) (row : ℕ → List ℕ) (fj : Path × ℕ) (m : CStr × Setting) : Prop :=
  m.1 = formatNodeName fj.1 ∧ ∃ nodes, m.2.getMember "frames".toList = some (.list nodes) ∧
    List.Forall₂ (NumberExported d T fj.2) (List.range (usbgFUvcGetNframes (row fj.2))) nodes

lemma formatNames_zipIdx : ∀ fj ∈ formatNames.zipIdx, fj.2 < maxFormats ∧ fj.1 = formatName fj.2 := by decide

/-- One round of the loop of `uvc_libconfig_export` -/
lemma uvcExportFormat_ends (h : FramesOk w.tree f) (hhidden : NoneHidden M) {fj : Path × ℕ}
    (hfj : fj ∈ formatNames.zipIdx) (nodes : Members) :
    Ends (fun nodes' s => (s.1.tree = w.tree ∧ s.2 = f) ∧ ∃ m, FormatExported f.dir w.tree f.row fj m ∧
        nodes' = nodes ++ [m])
      (fun _ _ => True) True (uvcExportFormat M.kernel nodes fj (w, f)) := by
  obtain ⟨format, k⟩ := fj
  obtain ⟨hk, hformat⟩ := formatNames_zipIdx _ hfj
  dsimp only at hk hformat
  subst hformat
  have hget : ∀ a (w : World Fs), Ends (fun _ w' => w'.tree = w.tree) (fun _ w' => w'.tree = w.tree) True
      (usbgFUvcGetFormatAttrVal M.kernel f (formatName k) a w) := fun a w =>
    Ends.require_bind (fun _ => get_ends.mono (fun _ _ h => h.1) fun _ _ h => h) fun _ => rfl
  rw [uvcExportFormat, self_bind_apply]
  refine Ends.deref_bind (fun frames hframes => ?_) fun _ => trivial
  have hrow : frames = f.row k := by rw [Func.row, List.getD_eq_getElem?_getD, hframes, Option.getD_some]
  refine Ends.bind (R := fun members s => (s.1.tree = w.tree ∧ s.2 = f) ∧ ∃ nodes,
    members = [("frames".toList, .list nodes)] ∧
      List.Forall₂ (NumberExported f.dir w.tree k) (List.range (usbgFUvcGetNframes frames)) nodes)
    (ends_io ((uvcExportFrames_ends h hhidden hk frames).mono_undef (fun _ _ h => ⟨⟨h.1, rfl⟩, h.2⟩)
      (fun _ _ h => h) False.elim)) ?_
  rintro _ ⟨w₁, f₁⟩ ⟨⟨ht, rfl⟩, list, rfl, hlist⟩
  refine Ends.bind (R := fun members s => (s.1.tree = w.tree ∧ s.2 = f₁) ∧
    [("frames".toList, Setting.list list)] <+: members)
    (ends_io ((prefix_exportFound hget _ _).mono (fun _ _ h => ⟨⟨h.1.trans ht, rfl⟩, h.2⟩) fun _ _ h => h)) ?_
  rintro members s ⟨hs, hpre⟩
  refine ⟨hs, _, ⟨rfl, list, ?_, hrow ▸ hlist⟩, rfl⟩
  exact prefix_getMember [] (by simp) hpre

/-- The loop of `uvc_libconfig_export` -/
lemma uvcExportFormats_ends (h : FramesOk w.tree f) (hhidden : NoneHidden M) :
    Ends (fun nodes s => (s.1.tree = w.tree ∧ s.2 = f) ∧
        List.Forall₂ (FormatExported f.dir w.tree f.row) formatNames.zipIdx nodes)
      (fun _ _ => True) True (formatNames.zipIdx.foldlM (uvcExportFormat M.kernel) [] (w, f)) := by
  refine Ends.foldlM (fun done nodes (s : World Fs × Func) => (s.1.tree = w.tree ∧ s.2 = f) ∧
    List.Forall₂ (FormatExported f.dir w.tree f.row) done nodes) ?_ ⟨⟨rfl, rfl⟩, .nil⟩
  rintro done fj nodes ⟨w', f'⟩ hpre ⟨⟨ht, rfl⟩, hdone⟩
  dsimp only at ht
  refine (uvcExportFormat_ends (ht ▸ h) hhidden (hpre.subset (by simp)) nodes).mono ?_ fun _ _ h => h
  rintro _ s ⟨⟨ht', hs⟩, m, hm, rfl⟩
  rw [ht] at ht' hm
  exact ⟨⟨ht', hs⟩, List.rel_append hdone (.cons hm .nil)⟩

/-- The group of a format is found by its name. -/
lemma FormatExported.find {row : ℕ → List ℕ} {nodes : Members}
    (h : List.Forall₂ (FormatExported d T row) formatNames.zipIdx nodes) (hk : k < maxFormats) :
    ∃ m, (Setting.group nodes).getMember (formatNodeName (formatName k)) = some m.2 ∧
      FormatExported d T row (formatName k, k) m := by
  have hzip : formatNames.zipIdx = [(formatName 0, 0), (formatName 1, 1)] := rfl
  have hne : formatNodeName (formatName 0) ≠ formatNodeName (formatName 1) := by decide
  rw [hzip] at h
  rcases h with _ | @⟨_, m₀, _, _, h₀, _ | @⟨_, m₁, _, _, h₁, _ | _⟩⟩
  have hcases : k = 0 ∨ k = 1 := by
    rw [maxFormats] at hk
    omega
  rcases hcases with rfl | rfl
  · refine ⟨m₀, ?_, h₀⟩
    simp [Setting.getMember, Setting.members, h₀.1]
  · refine ⟨m₁, ?_, h₁⟩
    simp [Setting.getMember, Setting.members, h₀.1, h₁.1, hne]

/-! ## The export -/

namespace FramesOk

/-- What counts as a frame is one. -/
lemma of_counts (h : FramesOk T f) (hk : k < maxFormats) (hi : Counts T f.dir k i) :
    i < maxFrames ∧ T.IsDir (frameIn f.dir k i) := by
  obtain ⟨name, n, hn, -, hscan⟩ := hi
  rcases h.names k hk name n hn with hmismatch | ⟨j, hj, rfl, hdir⟩
  · rw [hscan] at hmismatch
    cases hmismatch
  · rw [scanIndex_frameDir hj] at hscan
    obtain rfl : j = i := Int.ofNat.inj (IndexScan.index.inj hscan)
    exact ⟨hj, by rw [FileTree.IsDir, frameIn, hn]; exact hdir⟩

lemma rowRead (h : FramesOk w.tree f) (hk : k < maxFormats) (hi : RowRead M w f k i) :
    i < maxFrames ∧ w.tree.IsDir (frameIn f.dir k i) := by
  rcases hi with hi | ⟨-, -, hi⟩
  · exact h.sound k hk i hi
  · exact h.of_counts hk hi

lemma grown {f' : Func} {new : ℕ → ℕ → Prop} (h : FramesOk T f) (hgrown : RowsGrown f f' new)
    (hnew : ∀ k < maxFormats, ∀ i, new k i → Counts T f.dir k i) : FramesOk T f' := by
  refine ⟨hgrown.dir ▸ h.clean, hgrown.length ▸ h.rows, ?_, ?_, ?_, fun k hk i hi => ?_⟩ <;> rw [hgrown.dir]
  · exact h.names
  · exact h.files
  · exact h.parents
  · rcases (hgrown.mem k i).mp hi with hi | hi
    · exact h.sound k hk i hi
    · exact h.of_counts hk (hnew k hk i hi)

end FramesOk

/-- `uvc_libconfig_export` -/
lemma uvcLibconfigExport_ends (h : FramesOk w.tree f) (hhidden : NoneHidden M) (root : Members) :
    Ends (fun members _ => ∀ k < maxFormats, ∃ row nodes, (∀ i, i ∈ row ↔ RowRead M w f k i) ∧
        framesNode (.group members) k = some (.list nodes) ∧
          List.Forall₂ (NumberExported f.dir w.tree k) (List.range (usbgFUvcGetNframes row)) nodes)
      (fun _ _ => True) True (uvcLibconfigExport M.kernel root (w, f)) := by
  refine Ends.bind (R := fun root' s => ∃ (nodes : Members) (f' : Func), root' = root ++ [("formats".toList, .group nodes)] ∧
    "formats".toList ∉ root.map Prod.fst ∧ (∀ k < maxFormats, ∀ i, i ∈ f'.row k ↔ RowRead M w f k i) ∧
      List.Forall₂ (FormatExported f.dir w.tree f'.row) formatNames.zipIdx nodes)
    (addNode_ends (fun _ => trivial) fun hname => ?_) ?_
  · refine Ends.bind ((getFormatsMask_ends h.clean h.rows).mono_undef (fun _ _ h => h) (fun _ _ h => h.elim)
      fun _ => trivial) ?_
    rintro - ⟨w', f'⟩ ⟨-, ht, hgrown⟩
    dsimp only at ht hgrown
    have hok : FramesOk w'.tree f' := ht ▸ h.grown hgrown fun k _ i hi => hi.2.2.2
    refine Ends.bind (uvcExportFormats_ends hok hhidden) ?_
    rintro nodes s ⟨-, hall⟩
    rw [ht, hgrown.dir] at hall
    refine ⟨nodes, f', rfl, hname, fun k hk i => ?_, hall⟩
    rw [hgrown.mem, RowRead]
    simp [hk]
  · rintro _ ⟨w', f'⟩ ⟨nodes, f₁, rfl, hname, hrows, hall⟩
    rw [self_bind_apply]
    have hpre : Ends (fun members _ => root ++ [("formats".toList, .group nodes)] <+: members)
        (fun _ _ => True) True
        (uvcExportConfig M.kernel f' (root ++ [("formats".toList, .group nodes)]) w') :=
      addNode_ends (fun _ => List.prefix_rfl) fun _ =>
        Ends.intro (fun _ _ _ => List.prefix_append ..) (fun _ _ _ => trivial) fun _ _ => trivial
    refine ends_io (hpre.mono (fun members _ hmembers k hk => ?_) fun _ _ h => h)
    obtain ⟨m, hfind, -, list, hframes, hlist⟩ := FormatExported.find hall hk
    refine ⟨f₁.row k, list, hrows k hk, ?_, hlist⟩
    rw [framesNode, prefix_getMember _ hname hmembers]
    exact (congrArg (Option.bind · _) hfind).trans hframes

/-- The frames are numbered from 0 on without a gap. -/
def FramesContiguous (d : Path) (T : Tree) (k : ℕ) : Prop :=
  framesOf d T k = List.range (framesOf d T k).length

instance (d : Path) (T : Tree) (k : ℕ) : Decidable (FramesContiguous d T k) := inferInstanceAs (Decidable (_ = _))

lemma not_frameGroup_nil : ¬ FrameGroup d T k i (.group []) := by
  rintro ⟨members, hmembers, hgroup⟩
  obtain rfl := (Setting.group.inj hgroup).symm
  cases hmembers

/-- The numbers from 0 on, as many as there are frames in a row of the masks, are those of the frames. -/
lemma frames_of_exported {row : List ℕ} {nodes : List Setting} (hsound : ∀ i ∈ row, T.IsDir (frameIn d k i))
    (hnumbers : List.Forall₂ (NumberExported d T k) (List.range (usbgFUvcGetNframes row)) nodes)
    (hgroups : List.Forall₂ (FrameGroup d T k) (framesOf d T k) nodes) :
    FramesContiguous d T k ∧ ∀ i ∈ framesOf d T k, i ∈ row := by
  have hcount : (framesOf d T k).length = usbgFUvcGetNframes row := by
    rw [hgroups.length_eq, ← hnumbers.length_eq, List.length_range]
  constructor
  · -- a number without a frame has an empty group
    have hdir : ∀ i ∈ List.range (usbgFUvcGetNframes row), T.IsDir (frameIn d k i) := by
      intro i hi
      by_contra hmissing
      have hlt := List.mem_range.mp hi
      have hlen : i < nodes.length := by rwa [← hgroups.length_eq, hcount]
      have hnode := (List.forall₂_iff_get.mp hnumbers).2 i (by rwa [List.length_range]) hlen
      have hgroup := (List.forall₂_iff_get.mp hgroups).2 i (by rwa [hcount]) hlen
      rw [List.get_eq_getElem, List.getElem_range] at hnode
      rw [hnode.missing hmissing] at hgroup
      exact not_frameGroup_nil hgroup
    have hsub : (List.range (usbgFUvcGetNframes row)).Sublist (framesOf d T k) := by
      have hfilter := (List.range_sublist.mpr (usbgFUvcGetNframes_le row)).filter
        fun i => decide (T.IsDir (frameIn d k i))
      rwa [List.filter_eq_self.mpr (by simpa using hdir)] at hfilter
    rw [FramesContiguous, hcount]
    exact (hsub.eq_of_length (by rw [List.length_range, hcount])).symm
  · -- the row has as many numbers as there are frames
    have hsub : ((List.range maxFrames).filter (· ∈ row)).Sublist (framesOf d T k) :=
      List.monotone_filter_right _ fun i hi => decide_eq_true (hsound i (by simpa using hi))
    intro i hi
    rw [← hsub.eq_of_length hcount.symm] at hi
    simpa using (List.mem_filter.mp hi).2

/-- An export of a video function lists its frames if and only if the frames of each format are numbered
from 0 on without a gap, and are all in the masks. -/
theorem framesExported_iff (M : Machine) (w : World Fs) (f : Func) (root members : Members) (s : World Fs × Func)
    (h : FramesOk w.tree f) (hhidden : NoneHidden M)
    (hrun : uvcLibconfigExport M.kernel root (w, f) = (.ok members, s)) :
    FramesExported f.dir w.tree members ↔
      ∀ k < maxFormats, FramesContiguous f.dir w.tree k ∧ ∀ i ∈ framesOf f.dir w.tree k, RowRead M w f k i := by
  have hends := uvcLibconfigExport_ends (M := M) h hhidden root
  rw [hrun] at hends
  refine forall₂_congr fun k hk => ?_
  obtain ⟨row, nodes, hrow, hnodes, hnumbers⟩ := hends k hk
  have hsound : ∀ i ∈ row, i ∈ framesOf f.dir w.tree k := fun i hi =>
    mem_framesOf.mpr (h.rowRead hk ((hrow i).mp hi))
  constructor
  · rintro ⟨nodes', hnodes', hgroups⟩
    obtain rfl : nodes = nodes' := Setting.list.inj (Option.some.inj (hnodes.symm.trans hnodes'))
    obtain ⟨hcontiguous, hcomplete⟩ :=
      frames_of_exported (fun i hi => (mem_framesOf.mp (hsound i hi)).2) hnumbers hgroups
    exact ⟨hcontiguous, fun i hi => (hrow i).mp (hcomplete i hi)⟩
  · rintro ⟨hcontiguous, hcomplete⟩
    have hcount : usbgFUvcGetNframes row = (framesOf f.dir w.tree k).length := by
      rw [usbgFUvcGetNframes, framesOf]
      refine congrArg List.length (List.filter_congr fun i hi => decide_eq_decide.mpr ⟨fun hin => ?_, fun hdir => ?_⟩)
      · exact (mem_framesOf.mp (hsound i hin)).2
      · exact (hrow i).mpr (hcomplete i (mem_framesOf.mpr ⟨List.mem_range.mp hi, hdir⟩))
    rw [hcount, ← hcontiguous] at hnumbers
    obtain ⟨hlen, hall⟩ := List.forall₂_iff_zip.mp hnumbers
    refine ⟨nodes, hnodes, List.forall₂_iff_zip.mpr ⟨hlen, fun {i node} hmem => ?_⟩⟩
    exact (hall hmem).frame (mem_framesOf.mp (List.of_mem_zip hmem).1).2

/-! ## An example -/

section Example

/-- A tree that is made of entries. -/
lemma FramesOk.of_entries {es : List (Path × Node CStr CStr)} (hclean : f.dir.Clean) (hrows : f.frames = [[], []])
    (hget : ∀ p, T.get p = (es.find? (·.1 = p)).map Prod.snd)
    (hnames : ∀ k < maxFormats, ∀ e ∈ es, e.1.dropLast = formatAt f.dir k →
      scanIndex "frame.".toList (e.1.getLastD []) = .mismatch ∨
        ∃ i < maxFrames, e.1.getLastD [] = frameDir i ∧ e.2.isDir = true)
    (hfiles : ∀ e ∈ es, ∀ i < maxFrames, e.1.getLastD [] = frameDir i →
      ∀ a ∈ uvcFrameAttr, (es.find? (·.1 = e.1 ++ [a.name])).any (·.2.isFile) = true)
    (hparents : ∀ e ∈ es, ∀ i < maxFrames, e.1.dropLast.getLastD [] = frameDir i →
      (es.find? (·.1 = e.1.dropLast)).any (·.2.isDir) = true) :
    FramesOk T f := by
  have hmem : ∀ {p n}, T.get p = some n → (p, n) ∈ es := by
    intro p n hn
    rw [hget] at hn
    obtain ⟨e, he, rfl⟩ := Option.map_eq_some_iff.mp hn
    have hp : e.1 = p := by simpa using List.find?_some he
    exact hp ▸ List.mem_of_find?_eq_some he
  constructor
  case clean => exact hclean
  case rows => rw [hrows]; rfl
  case names =>
    intro k hk name n hn
    simpa using hnames k hk _ (hmem hn) (by simp)
  case files =>
    intro k hk i hi hdir a ha
    obtain ⟨made, hn⟩ := FileTree.isDir_iff.mp hdir
    refine exists_file_of_any ?_
    rw [hget, Option.any_map]
    exact hfiles _ (hmem hn) i hi (by simp [frameIn]) a ha
  case parents =>
    intro k hk i hi name n hn
    rw [FileTree.IsDir, hget, Option.any_map]
    simpa using hparents _ (hmem hn) i hi (by simp [frameIn])
  case sound =>
    intro k hk i hi
    have hempty : ∀ k < maxFormats, ([[], []] : List (List ℕ)).getD k [] = [] := by decide
    rw [Func.row, hrows, hempty k hk] at hi
    cases hi

/-- A frame of the first format with its files. -/
def frameEntries (i : ℕ) : List (Path × Node CStr CStr) :=
  (frameIn videoFunc.dir 0 i, .dir true) :: uvcFrameAttr.map fun a =>
    (frameIn videoFunc.dir 0 i ++ [a.name], .file "640\n".toList)

/-- A video function with the first format only, and the frames of these numbers. -/
def framesEntries (ids : List ℕ) : List (Path × Node CStr CStr) :=
  (formatAt videoFunc.dir 0).inits.tail.map (fun p => (p, .dir true)) ++ ids.flatMap frameEntries ++
    uvcConfigAttr.map fun a => (videoFunc.dir ++ [a.name], .file "1\n".toList)

@[inherit_doc framesEntries]
def framesTree (ids : List ℕ) : Tree := FileTree.addAll .empty (framesEntries ids)

lemma get_framesTree (ids : List ℕ) (p : Path) :
    (framesTree ids).get p = ((framesEntries ids).find? (·.1 = p)).map Prod.snd := by
  rw [framesTree, FileTree.get_addAll]
  rfl

/-- The export of this function. -/
def framesRun (ids : List ℕ) : Outcome UsbgError Members × World Fs × Func :=
  uvcLibconfigExport willing.kernel [] (worldOf (framesTree ids), videoFunc)

lemma framesOk_contiguous : FramesOk (framesTree [0, 1]) videoFunc :=
  FramesOk.of_entries (by decide) rfl (get_framesTree _) (by decide +kernel) (by decide +kernel) (by decide +kernel)

lemma framesOk_gap : FramesOk (framesTree [1]) videoFunc :=
  FramesOk.of_entries (by decide) rfl (get_framesTree _) (by decide +kernel) (by decide +kernel) (by decide +kernel)

lemma noneHidden_willing : NoneHidden willing := by simp [NoneHidden, willing]

/-- How many attributes the groups in the list of a format have. -/
def frameSizes (members : Members) (k : ℕ) : Option (List ℕ) :=
  (framesNode (.group members) k).map fun list => list.elems.map fun node => node.members.length

lemma FramesExported.frameSizes {members : Members} (h : FramesExported d T members) (hk : k < maxFormats) :
    frameSizes members k = some ((framesOf d T k).map fun _ => uvcFrameAttr.length) := by
  obtain ⟨nodes, hnodes, hgroups⟩ := h k hk
  rw [Libusbgx.frameSizes, hnodes]
  clear hnodes
  refine congrArg some ?_
  change nodes.map _ = _
  generalize framesOf d T k = ids at hgroups
  induction hgroups with
  | nil => rfl
  | cons hgroup _ ih =>
    obtain ⟨members, hmembers, rfl⟩ := hgroup
    rw [List.map_cons, List.map_cons, ih]
    exact congrArg (· :: _) hmembers.length_eq.symm

/-- What a run says about the groups of the first format. -/
def exportedSizes : Outcome UsbgError Members × World Fs × Func → Option (List ℕ)
  | (.ok members, _) => frameSizes members 0
  | _ => none

lemma exportedSizes_eq {r : Outcome UsbgError Members × World Fs × Func} {sizes : List ℕ}
    (h : exportedSizes r = some sizes) : ∃ members s, r = (.ok members, s) ∧ frameSizes members 0 = some sizes := by
  rcases r with ⟨members | e | _, s⟩
  · exact ⟨members, s, rfl, h⟩
  · cases h
  · cases h

lemma exportedSizes_contiguous : exportedSizes (framesRun [0, 1]) = some [9, 9] := by decide +kernel

lemma exportedSizes_gap : exportedSizes (framesRun [1]) = some [0] := by decide +kernel

lemma counts_of_isDir (hi : i < maxFrames) (hdir : T.IsDir (frameIn d k i)) : Counts T d k i := by
  obtain ⟨made, hn⟩ := FileTree.isDir_iff.mp hdir
  have hselect : ∀ s : CStr, fileSelect ⟨'f' :: s, false⟩ = true := by simp [fileSelect]
  exact ⟨frameDir i, _, hn, hselect _, scanIndex_frameDir hi⟩

lemma isDir_framesTree (ids : List ℕ) (p : Path) :
    (framesTree ids).IsDir p ↔ ((framesEntries ids).find? (·.1 = p)).any (·.2.isDir) = true := by
  rw [FileTree.IsDir, get_framesTree, Option.any_map]

lemma framesOf_framesTree : framesOf videoFunc.dir (framesTree [0, 1]) 0 = [0, 1] ∧
    framesOf videoFunc.dir (framesTree [0, 1]) 1 = [] := by
  simp only [framesOf, isDir_framesTree]
  decide +kernel

lemma listed_framesTree : Listed willing (worldOf (framesTree [0, 1])) videoFunc 0 := by
  refine ⟨by decide, rfl, ?_⟩
  rw [tree_worldOf, isDir_framesTree]
  decide +kernel

/-- Two frames that are numbered from 0 on. -/
theorem framesExported_contiguous : ∃ members s, framesRun [0, 1] = (.ok members, s) ∧
    FramesExported videoFunc.dir (framesTree [0, 1]) members := by
  obtain ⟨members, s, hrun, -⟩ := exportedSizes_eq exportedSizes_contiguous
  obtain ⟨hfirst, hsecond⟩ := framesOf_framesTree
  refine ⟨members, s, hrun, (framesExported_iff willing (worldOf (framesTree [0, 1])) videoFunc [] members s
    framesOk_contiguous noneHidden_willing hrun).mpr fun k hk => ?_⟩
  have hcases : k = 0 ∨ k = 1 := by
    rw [maxFormats] at hk
    omega
  rw [tree_worldOf]
  rcases hcases with rfl | rfl
  · refine ⟨by rw [FramesContiguous, hfirst]; rfl, fun i hi => ?_⟩
    obtain ⟨hi, hdir⟩ := mem_framesOf.mp hi
    exact .inr ⟨rfl, listed_framesTree, counts_of_isDir hi hdir⟩
  · refine ⟨by rw [FramesContiguous, hsecond]; rfl, fun i hi => ?_⟩
    rw [hsecond] at hi
    cases hi

/-- A frame with the number 1 is counted, and the number 0 is exported. -/
theorem framesExported_fails : FramesOk (framesTree [1]) videoFunc ∧
    ∃ members s, framesRun [1] = (.ok members, s) ∧
      ¬ FramesExported videoFunc.dir (framesTree [1]) members := by
  obtain ⟨members, s, hrun, hsizes⟩ := exportedSizes_eq exportedSizes_gap
  refine ⟨framesOk_gap, members, s, hrun, fun h => ?_⟩
  have hall := h.frameSizes (k := 0) (by decide)
  rw [hsizes] at hall
  have hmem : 0 ∈ (framesOf videoFunc.dir (framesTree [1]) 0).map fun _ => uvcFrameAttr.length := by
    rw [← Option.some.inj hall]
    exact List.mem_singleton_self _
  obtain ⟨i, -, hlen⟩ := List.mem_map.mp hmem
  cases hlen

end Example

end Libusbgx
