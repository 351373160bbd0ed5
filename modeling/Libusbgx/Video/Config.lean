import Libusbgx.Attributes.RoundTrip
import Libusbgx.Source.Function.Scheme

/-!
# The attributes of a video function

The setter of the four attributes takes the bound of its loop from the attributes of frames, of which
there are more.
-/

namespace Libusbgx

open Prog Machine

section

variable {κ : Type} (K : Kernel κ)

/-- `USBG_F_UVC_CONFIG_ATTR_MAX` -/
def uvcConfigAttrMax : ℕ := 4

/-- `USBG_F_UVC_FRAME_ATTR_MAX` -/
def uvcFrameAttrMax : ℕ := 9

/-- One round of `usbg_f_uvc_set_config_attrs`; the values are in the order of the table. -/
def uvcSetConfigRound (f : Func) (vals : List AttrVal) (i : ℕ) : Io κ Unit := do
  let a ← deref uvcConfigAttr[i]?
  let val ← deref vals[i]?
  usbgFUvcSetConfigAttrVal K f a val

/-- `usbg_f_uvc_set_config_attrs` -/
def usbgFUvcSetConfigAttrs (f : Func) (vals : List AttrVal) : Io κ Unit :=
  forEach (uvcSetConfigRound K f vals) (List.range uvcFrameAttrMax)

/-- `usbg_f_uvc_get_config_attrs`, whose loop ends at `USBG_F_UVC_CONFIG_ATTR_MAX` -/
def usbgFUvcGetConfigAttrs (f : Func) : Io κ (List AttrVal) := getTable (usbgFUvcGetConfigAttrVal K f) uvcConfigAttr

end

/-- The values of a `struct usbg_f_uvc_config_attrs`. -/
def configVals (maxburst maxpacket interval : ℤ) (functionName : CStr) : List AttrVal :=
  [.int maxburst, .int maxpacket, .int interval, .string (some functionName)]

/-- The path of an attribute as the code prints it. -/
def configFile (f : Func) (a : Attr) : Path := f.path ++ [f.name, []] ++ [[], a.name]

/-- The call that writes an attribute. -/
def configWrite (f : Func) (av : Attr × AttrVal) : Syscall := .write (configFile f av.1) av.2.rendered

/-- The files of the attributes are there and can be read and written. -/
structure ConfigFilesUsable (M : Machine) (f : Func) (T : Tree) : Prop where
  clean : f.dir.Clean
  fits : ∀ a ∈ uvcConfigAttr, (configFile f a).Fits
  reads : ∀ a ∈ uvcConfigAttr, M.Grants (.read (configFile f a))
  writes : ∀ a ∈ uvcConfigAttr, ∀ data, M.Grants (.write (configFile f a) data)
  file : ∀ a ∈ uvcConfigAttr, ∃ c, T.get (f.dir ++ [a.name]) = some (.file c)

/-- The setter writes every attribute once and does nothing else, and the getter returns the values. -/
def ConfigAttrsKept (M : Machine) (w : World Fs) (f : Func) (vals : List AttrVal) : Prop :=
  ∃ w₁ w₂, usbgFUvcSetConfigAttrs M.kernel f vals w = (.ok (), w₁) ∧
    w₁.sys.log = ((uvcConfigAttr.zip vals).map (configWrite f)).reverse ++ w.sys.log ∧
    usbgFUvcGetConfigAttrs M.kernel f w₁ = (.ok vals, w₂)

section

variable {M : Machine} {w : World Fs} {f : Func} {a : Attr} {v : AttrVal} {vals : List AttrVal}

lemma uvcConfigAttr_facts : ∀ a ∈ uvcConfigAttr, a.name ≠ [] ∧ (a.kind = .dec ∨ a.kind = .string) := by decide

lemma resolve_configFile (hclean : f.dir.Clean) (ha : a ∈ uvcConfigAttr) :
    (configFile f a).resolve = f.dir ++ [a.name] := by
  have hpath : configFile f a = f.dir ++ [[], [], a.name] := by simp [configFile, Func.dir]
  rw [hpath, hclean.resolve_append]
  simp [(uvcConfigAttr_facts a ha).1]

/-- Writing an attribute is one call. -/
lemma ConfigFilesUsable.set_eq {T : Tree} (h : ConfigFilesUsable M f T) (ha : a ∈ uvcConfigAttr)
    (htakes : a.kind.Takes v) : usbgFUvcSetConfigAttrVal M.kernel f a v = call M.kernel (configWrite f (a, v)) := by
  have hfits := h.fits a ha
  rw [usbgFUvcSetConfigAttrVal, require_of (prefix_fits (List.prefix_append ..) hfits), pure_bind, htakes.set_eq]
  show (require (configFile f a).Fits .pathTooLong >>= fun _ => call M.kernel (configWrite f (a, v))) = _
  rw [require_of hfits, pure_bind]

lemma ConfigFilesUsable.set_ok {T : Tree} (h : ConfigFilesUsable M f T) (ha : a ∈ uvcConfigAttr)
    (htakes : a.kind.Takes v) (hfile : ∃ c, w.tree.get (f.dir ++ [a.name]) = some (.file c)) :
    ∃ w', usbgFUvcSetConfigAttrVal M.kernel f a v w = (.ok (), w') ∧
      w'.tree = w.tree.replace (f.dir ++ [a.name]) (.file v.rendered) := by
  obtain ⟨c, hfile⟩ := hfile
  have hresolve := resolve_configFile h.clean ha
  have hexec : M.exec (configWrite f (a, v)) w.tree =
      .ok ((), w.tree.replace (configFile f a).resolve (.file v.rendered)) :=
    exec_write.mpr (writeFile_eq_ok.mpr ⟨⟨c, by rw [hresolve, hfile]⟩, rfl⟩)
  obtain ⟨w', hcall, ht, -⟩ := call_ok (h.writes a ha _) hexec
  refine ⟨w', ?_, by rw [ht, hresolve]⟩
  rw [h.set_eq ha htakes]
  exact hcall

/-- Reading an attribute. -/
lemma ConfigFilesUsable.get_ok {T : Tree} (h : ConfigFilesUsable M f T) (ha : a ∈ uvcConfigAttr)
    (htakes : a.kind.Takes v) (hheld : AttrHeld f.dir w.tree a v) :
    ∃ w', usbgFUvcGetConfigAttrVal M.kernel f a w = (.ok v, w') ∧ w'.tree = w.tree := by
  obtain ⟨c, hfile, hheld⟩ := hheld
  have hfits := h.fits a ha
  rw [← resolve_configFile h.clean ha] at hfile
  obtain ⟨w', hget, ht⟩ : ∃ w', a.kind.get M.kernel (f.path ++ [f.name, []]) [] a.name w = (.ok v, w') ∧
      w'.tree = w.tree := htakes.get_ok hfits (h.reads a ha) hfile hheld
  refine ⟨w', ?_, ht⟩
  rw [usbgFUvcGetConfigAttrVal, require_of (prefix_fits (List.prefix_append ..) hfits), pure_bind]
  exact hget

/-- The loop of the getter stays in the table. -/
lemma getConfigAttrs_ok {T : Tree} (h : ConfigFilesUsable M f T) {table : List Attr} (htable : table <:+ uvcConfigAttr)
    (hheld : AttrsHeld f.dir w.tree table vals) :
    ∃ w', getTable (usbgFUvcGetConfigAttrVal M.kernel f) table w = (.ok vals, w') := by
  induction table generalizing vals w with
  | nil =>
    cases hheld
    exact ⟨w, rfl⟩
  | cons a table ih =>
    cases hheld with
    | cons ha hrest =>
      obtain ⟨w₁, hget, ht⟩ := h.get_ok (htable.subset (by simp)) ha.1 ha.2
      rw [← ht] at hrest
      obtain ⟨w₂, hrun⟩ := ih ((List.suffix_cons ..).trans htable) hrest
      exact ⟨w₂, by rw [getTable, bind_ok hget, bind_ok hrun]; rfl⟩

/-- A loop in which every round makes one call. -/
lemma forEach_logged {β : Type} {round : β → Io Fs Unit} {c : β → Syscall} {l : List β} {w' : World Fs}
    (hround : ∀ b ∈ l, ∀ s s', round b s = (.ok (), s') → s'.sys.log = c b :: s.sys.log)
    (hrun : forEach round l w = (.ok (), w')) : w'.sys.log = (l.map c).reverse ++ w.sys.log := by
  induction l generalizing w with
  | nil =>
    cases hrun
    rfl
  | cons b l ih =>
    obtain ⟨_, w₁, hb, hrest⟩ := bind_eq_ok.mp hrun
    rw [ih (fun b' hb' => hround b' (List.mem_cons_of_mem _ hb')) hrest, hround b (List.mem_cons_self ..) _ _ hb]
    simp

/-- The first four rounds of the setter write the values. -/
lemma setConfigAttrs_written (h : ConfigFilesUsable M f w.tree) (htakes : List.Forall₂ (fun a v => a.kind.Takes v)
    uvcConfigAttr vals) :
    ∃ w', forEach (fun av => usbgFUvcSetConfigAttrVal M.kernel f av.1 av.2) (uvcConfigAttr.zip vals) w = (.ok (), w') ∧
      w'.sys.log = ((uvcConfigAttr.zip vals).map (configWrite f)).reverse ++ w.sys.log ∧
      ∀ av ∈ uvcConfigAttr.zip vals, w'.tree.get (f.dir ++ [av.1.name]) = some (.file av.2.rendered) := by
  have hmem : ∀ av ∈ uvcConfigAttr.zip vals, av.1 ∈ uvcConfigAttr := fun av hav => (List.of_mem_zip hav).1
  have htype : ∀ av ∈ uvcConfigAttr.zip vals, av.1.kind.Takes av.2 := fun av hav =>
    (List.forall₂_iff_zip.mp htakes).2 hav
  have hnodup : ((uvcConfigAttr.zip vals).map fun av => f.dir ++ [av.1.name]).Nodup := by
    have hnames : (uvcConfigAttr.map fun a => f.dir ++ [a.name]).Nodup := by
      refine List.Nodup.map_on ?_ (by decide)
      intro a ha b hb heq
      have hname := List.append_cancel_left heq
      have key : ∀ a ∈ uvcConfigAttr, ∀ b ∈ uvcConfigAttr, [a.name] = [b.name] → a = b := by decide
      exact key a ha b hb hname
    have hsplit : (uvcConfigAttr.zip vals).map (fun av => f.dir ++ [av.1.name]) =
        ((uvcConfigAttr.zip vals).map Prod.fst).map fun a => f.dir ++ [a.name] := by rw [List.map_map]; rfl
    rw [hsplit, List.map_fst_zip htakes.length_eq.le]
    exact hnames
  obtain ⟨w', hrun, -, hwritten⟩ : ∃ w', forEach (fun av => usbgFUvcSetConfigAttrVal M.kernel f av.1 av.2)
        (uvcConfigAttr.zip vals) w = (.ok (), w') ∧ True ∧
      Written (fun av => f.dir ++ [av.1.name]) (fun av => some av.2.rendered) (uvcConfigAttr.zip vals) w.tree w'.tree := by
    refine forEach_written World.tree hnodup (fun av hav u _ hfile => ?_) trivial fun av hav => h.file av.1 (hmem av hav)
    obtain ⟨u', hset, ht⟩ := h.set_ok (hmem av hav) (htype av hav) hfile
    exact ⟨u', hset, trivial, ht⟩
  refine ⟨w', hrun, ?_, fun av hav => by rw [hwritten.get av hav]; rfl⟩
  refine forEach_logged (fun av hav u u' hset => ?_) hrun
  rw [h.set_eq (hmem av hav) (htype av hav)] at hset
  exact log_call hset

end

/-- The setter writes the four attributes as they are read back, and looks up an entry behind the end of the
table then. -/
theorem configAttrsKept_never (M : Machine) (w : World Fs) (f : Func) (h : ConfigFilesUsable M f w.tree)
    (maxburst maxpacket interval : ℤ) (functionName : CStr)
    (hints : ∀ v ∈ [maxburst, maxpacket, interval], -2 ^ 31 ≤ v ∧ v < 2 ^ 31)
    (hname : functionName.length < usbgMaxFileSize ∧ ∀ c ∈ functionName, c ≠ '\x00' ∧ c ≠ '\n') :
    (∃ w₁ w₂, usbgFUvcSetConfigAttrs M.kernel f (configVals maxburst maxpacket interval functionName) w = (.undef, w₁) ∧
      w₁.sys.log = ((uvcConfigAttr.zip (configVals maxburst maxpacket interval functionName)).map
        (configWrite f)).reverse ++ w.sys.log ∧
      usbgFUvcGetConfigAttrs M.kernel f w₁ = (.ok (configVals maxburst maxpacket interval functionName), w₂)) ∧
    ¬ ConfigAttrsKept M w f (configVals maxburst maxpacket interval functionName) := by
  obtain ⟨vals, hvals⟩ : ∃ vals, vals = configVals maxburst maxpacket interval functionName := ⟨_, rfl⟩
  have htakes : List.Forall₂ (fun a v => a.kind.Takes v) uvcConfigAttr vals := by
    rw [hvals]
    exact .cons rfl (.cons rfl (.cons rfl (.cons rfl .nil)))
  obtain ⟨w₁, hrun, hlog, hfiles⟩ := setConfigAttrs_written h htakes
  have hset : usbgFUvcSetConfigAttrs M.kernel f vals w = (.undef, w₁) := by
    -- the rounds up to the bound of the table, and the next one
    have hrange : List.range uvcFrameAttrMax = List.range uvcConfigAttrMax ++ uvcConfigAttrMax :: [5, 6, 7, 8] := rfl
    have hfirst : forEach (uvcSetConfigRound M.kernel f vals) (List.range uvcConfigAttrMax) =
        forEach (fun av => usbgFUvcSetConfigAttrVal M.kernel f av.1 av.2) (uvcConfigAttr.zip vals) := by
      rw [hvals]
      rfl
    have hnext : forEach (uvcSetConfigRound M.kernel f vals) (uvcConfigAttrMax :: [5, 6, 7, 8]) = undef := rfl
    rw [usbgFUvcSetConfigAttrs, hrange, forEach_append, hfirst, hnext, bind_ok hrun, undef_apply]
  have hplain : ∀ v ∈ vals, v.Plain := by
    have hint : ∀ v ∈ [maxburst, maxpacket, interval], (AttrVal.int v).Plain := hints
    have hstring : (AttrVal.string (some functionName)).Plain := by
      have hnul : ∀ c ∈ functionName, decide (c ≠ '\x00') = true := fun c hc => by simpa using (hname.2 c hc).1
      have hnl : ∀ c ∈ functionName, decide (c ≠ '\n') = true := fun c hc => by simpa using (hname.2 c hc).2
      rw [AttrVal.Plain, Option.getD_some, List.take_of_length_le (by omega), ofBuffer,
        List.takeWhile_eq_self_iff.mpr hnul, untilNewline, List.takeWhile_eq_self_iff.mpr hnl]
    rw [hvals]
    simp only [configVals, List.mem_cons, List.not_mem_nil, or_false]
    rintro v (rfl | rfl | rfl | rfl)
    · exact hint _ (by simp)
    · exact hint _ (by simp)
    · exact hint _ (by simp)
    · exact hstring
  have hheld : AttrsHeld f.dir w₁.tree uvcConfigAttr vals := by
    refine List.forall₂_iff_zip.mpr ⟨htakes.length_eq, fun {a v} hav => ?_⟩
    exact ⟨(List.forall₂_iff_zip.mp htakes).2 hav, v.rendered, hfiles (a, v) hav,
      (hplain v (List.of_mem_zip hav).2).heldBy⟩
  obtain ⟨w₂, hget⟩ := getConfigAttrs_ok h List.suffix_rfl hheld
  rw [← hvals]
  refine ⟨⟨w₁, w₂, hset, hlog, hget⟩, ?_⟩
  rintro ⟨w₁', w₂', hok, -, -⟩
  rw [hset] at hok
  cases hok
/-- A video function, and the files of its attributes. -/
def configFunc : Func := plainFunc .uvc

@[inherit_doc configFunc]
def configTree : Tree :=
  ⟨uvcConfigAttr.map fun a => (configFunc.dir ++ [a.name], .file []), by decide⟩

lemma configFilesUsable : ConfigFilesUsable willing configFunc configTree where
  clean := by decide
  fits := by decide
  reads := fun _ _ _ => rfl
  writes := fun _ _ _ _ => rfl
  file := fun a ha => by
    have key : ∀ a ∈ uvcConfigAttr, configTree.get (configFunc.dir ++ [a.name]) = some (.file []) := by decide +kernel
    exact ⟨[], key a ha⟩

/-- The values that the kernel starts with. -/
theorem configAttrsKept_usual :
    (∃ w₁ w₂, usbgFUvcSetConfigAttrs willing.kernel configFunc (configVals 0 1024 1 "UVC Camera".toList)
        (worldOf configTree) = (.undef, w₁) ∧
      w₁.sys.log = ((uvcConfigAttr.zip (configVals 0 1024 1 "UVC Camera".toList)).map
        (configWrite configFunc)).reverse ++ (worldOf configTree).sys.log ∧
      usbgFUvcGetConfigAttrs willing.kernel configFunc w₁ = (.ok (configVals 0 1024 1 "UVC Camera".toList), w₂)) ∧
    ¬ ConfigAttrsKept willing (worldOf configTree) configFunc (configVals 0 1024 1 "UVC Camera".toList) :=
  configAttrsKept_never willing (worldOf configTree) configFunc configFilesUsable 0 1024 1 "UVC Camera".toList
    (by simp) ⟨by decide, by simp⟩

/-- The fifth entry of the table is looked up. -/
theorem configAttrsKept_fails :
    ¬ ConfigAttrsKept willing (worldOf configTree) configFunc (configVals 0 1024 1 "UVC Camera".toList) := by
  rintro ⟨w₁, w₂, hset, -, -⟩
  have hundef : (usbgFUvcSetConfigAttrs willing.kernel configFunc (configVals 0 1024 1 "UVC Camera".toList)
      (worldOf configTree)).1 = .undef := by
    decide +kernel
  rw [hset] at hundef
  cases hundef


end Libusbgx
