import Libusbgx.Base.Keyed
import Libusbgx.Configfs.Parsed
import Libusbgx.Source.Create
import Libusbgx.Source.Strings
import Mathlib.Data.List.TakeWhile

/-!
# The strings of a gadget

The strings of a gadget in one language are files in one directory, which is made when the first of
them is set.  They can be set together or one by one, and the one that reads them finds what has been
set last, wherever a newline is put behind it.
-/

namespace Libusbgx

open Prog

/-! ## Reading -/

/-- What is read from a file as a string. -/
def stringIn (content : CStr) : CStr := untilNewline (ofBuffer (content.take (usbgMaxFileSize - 1)))

/-- A string that a file can hold as one: no NUL, no newline, and no more than fits into a page. -/
structure PlainString (s : CStr) : Prop where
  nul : ∀ c ∈ s, c ≠ '\x00'
  newline : ∀ c ∈ s, c ≠ '\n'
  length : s.length ≤ usbgMaxFileSize - 1

lemma PlainString.stringIn {s : CStr} (h : PlainString s) : stringIn s = s := by
  rw [Libusbgx.stringIn, List.take_of_length_le h.length, ofBuffer,
    List.takeWhile_eq_self_iff.mpr (by simpa using h.nul), untilNewline,
    List.takeWhile_eq_self_iff.mpr (by simpa using h.newline)]

lemma untilNewline_append_newline (s : CStr) : untilNewline (ofBuffer (s ++ ['\n'])) = untilNewline (ofBuffer s) := by
  induction s with
  | nil => rfl
  | cons c s ih =>
    rw [untilNewline, untilNewline, ofBuffer, ofBuffer] at ih ⊢
    rw [List.cons_append, List.takeWhile_cons, List.takeWhile_cons]
    split
    · rw [List.takeWhile_cons, List.takeWhile_cons, ih]
    · rfl

/-- A newline at the end of a file makes no difference. -/
lemma stringIn_newline (content : CStr) : stringIn (content ++ ['\n']) = stringIn content := by
  rw [stringIn, stringIn]
  by_cases h : usbgMaxFileSize - 1 ≤ content.length
  · rw [List.take_append_of_le_length h]
  · have hlen : content.length + 1 ≤ usbgMaxFileSize - 1 := by omega
    rw [List.take_of_length_le (by rw [List.length_append]; exact hlen), List.take_of_length_le (by omega)]
    exact untilNewline_append_newline content

/-- The kernel, where reading a file may also give a newline that stands behind its content. -/
def Machine.endingLines (M : Machine) (ended : ℕ → Path → Bool) : Kernel Fs where
  call
    | .read p, fs =>
      ((M.kernel.call (.read p) fs).1.map fun content : CStr =>
        if ended fs.log.length p then content ++ ['\n'] else content, (M.kernel.call (.read p) fs).2)
    | c, fs => M.kernel.call c fs
  stale := M.kernel.stale

variable {M : Machine} {ended : ℕ → Path → Bool} {w : World Fs} {g : Gadget} {lang : ℤ} {T T' : Tree} {path : Path}

lemma ends_read {p : Path} {Q : CStr → World Fs → Prop} {E : UsbgError → World Fs → Prop} {U : Prop}
    (hok : ∀ content w', w.tree.get p.resolve = some (.file content) → w'.tree = w.tree →
      ∀ read, stringIn read = stringIn content → Q read w')
    (hfail : ∀ e w', (M.Reads → ∀ content, w.tree.get p.resolve ≠ some (.file content)) → E e w') :
    Ends Q E U (call (M.endingLines ended) (.read p) w) := by
  have hplain : Ends (fun content w' => Q (if ended w.sys.log.length p then content ++ ['\n'] else content) w') E U
      (call M.kernel (.read p) w) := by
    refine Machine.ends_call (c := .read p) (fun content w' h _ => ?_) fun e w' hwhy ht _ => ?_
    · obtain ⟨hfile, ht⟩ := Machine.exec_read.mp h
      refine hok content w' (Machine.readFile_eq_ok.mp hfile) ht _ ?_
      cases ended w.sys.log.length p
      · rfl
      · exact stringIn_newline content
    · refine hfail e w' fun hreads content hfile => ?_
      obtain ⟨errno, herr, -⟩ := hwhy (hreads _ trivial)
      rw [Machine.exec, Machine.readFile, hfile] at herr
      cases herr
  rw [call] at hplain ⊢
  simp only [Machine.endingLines]
  cases hr : (M.kernel.call (.read p) w.sys).1 with
  | ok content =>
    rw [hr] at hplain
    exact hplain
  | error e =>
    rw [hr] at hplain
    exact hplain

/-- The directory of a language. -/
def langPath (g : Gadget) (lang : ℤ) : Path := g.path ++ [g.name, stringsDir, langDir lang]

/-- The file of a string in the directory of a language, as the setters spell it. -/
def strPath (dir : Path) (str : GadgetStr) : Path := dir ++ [[], str.name]

/-- The string of a gadget with its code. -/
def GadgetStrs.get (strs : GadgetStrs) : GadgetStr → Option CStr
  | .manufacturer => strs.manufacturer
  | .product => strs.product
  | .serialNumber => strs.serial

/-- The strings of a language are there to be read. -/
structure StrsReadable (T : Tree) (dir : Path) : Prop where
  dirFits : dir.Fits
  isDir : T.IsDir dir.resolve
  fits : ∀ str, (strPath dir str).Fits
  file : ∀ str, ∃ content, T.get (strPath dir str).resolve = some (.file content)

/-- The strings that are read are those in the files. -/
def StrsRead (T : Tree) (dir : Path) (got : GadgetStrs) : Prop :=
  ∀ str, ∃ content, T.get (strPath dir str).resolve = some (.file content) ∧ got.get str = some (stringIn content)

/-- Reading one string. -/
lemma usbgReadStringAlloc_read (dir : Path) (str : GadgetStr) :
    Ends (fun s w' => w'.tree = w.tree ∧ ∃ content,
        w.tree.get (strPath dir str).resolve = some (.file content) ∧ s = stringIn content)
      (fun _ _ => M.Reads → ¬ StrsReadable w.tree dir) False
      (usbgReadStringAlloc (M.endingLines ended) dir [] str.name w) := by
  refine Ends.bind (R := fun buf w' => w'.tree = w.tree ∧ ∃ content,
    w.tree.get (strPath dir str).resolve = some (.file content) ∧
      untilNewline (ofBuffer (buf.take (usbgMaxFileSize - 1))) = stringIn content) ?_ ?_
  · refine Ends.require_bind (fun hfits => ?_) fun hfits _ hread => hfits (hread.fits str)
    refine Ends.bind (R := fun read w' => w'.tree = w.tree ∧ ∃ content,
      w.tree.get (strPath dir str).resolve = some (.file content) ∧ stringIn read = stringIn content) ?_ ?_
    · refine ends_read (fun content w' hfile ht read hread => ⟨ht, content, hfile, hread⟩) fun e w' hwhy hreads hread => ?_
      obtain ⟨content, hfile⟩ := hread.file str
      exact hwhy hreads content hfile
    · rintro read w' ⟨ht, content, hfile, hread⟩
      refine ⟨ht, content, hfile, ?_⟩
      rw [List.take_take, ← hread]
      rfl
  · rintro buf w' ⟨ht, content, hfile, hbuf⟩
    exact ⟨ht, content, hfile, hbuf⟩

/-- `usbg_get_gadget_strs` reads the three files. -/
lemma usbgGetGadgetStrs_ends :
    Ends (fun got w' => w'.tree = w.tree ∧ StrsRead w.tree (langPath g lang) got)
      (fun _ _ => M.Reads → ¬ StrsReadable w.tree (langPath g lang)) False
      (usbgGetGadgetStrs (M.endingLines ended) g lang w) := by
  refine Ends.bind (R := fun spath w' => w'.tree = w.tree ∧ spath = langPath g lang) ?_ ?_
  · refine Ends.require_bind (fun hfits => ?_) fun hfits _ hread => hfits hread.dirFits
    refine Ends.bind (R := fun _ w' => w'.tree = w.tree) ?_ fun _ _ ht => ⟨ht, rfl⟩
    show Ends _ _ _ (call M.kernel (.opendir (langPath g lang)) w)
    refine Machine.ends_call (fun _ w' h _ => (Machine.exec_opendir.mp h).2) fun e w' hwhy _ _ hreads hread => ?_
    obtain ⟨errno, herr, -⟩ := hwhy (hreads _ trivial)
    rw [Machine.exec, Machine.opendir, if_pos hread.isDir] at herr
    cases herr
  · rintro _ w₁ ⟨ht₁, rfl⟩
    rw [← ht₁]
    refine Ends.bind (usbgReadStringAlloc_read _ .manufacturer) ?_
    rintro _ w₂ ⟨ht₂, m, hm, rfl⟩
    rw [← ht₂] at hm ⊢
    refine Ends.bind (usbgReadStringAlloc_read _ .product) ?_
    rintro _ w₃ ⟨ht₃, p, hp, rfl⟩
    rw [← ht₃] at hm hp ⊢
    refine Ends.bind (usbgReadStringAlloc_read _ .serialNumber) ?_
    rintro _ w₄ ⟨ht₄, s, hs, rfl⟩
    refine ⟨ht₄, fun str => ?_⟩
    cases str with
    | manufacturer => exact ⟨m, hm, rfl⟩
    | product => exact ⟨p, hp, rfl⟩
    | serialNumber => exact ⟨s, hs, rfl⟩

/-! ## Writing -/

namespace Machine

/-- The kernel refuses no call. -/
def Willing (M : Machine) : Prop := ∀ c, M.Grants c

/-- The directory is there, or it can be made. -/
def Makeable (T : Tree) (p : Path) : Prop :=
  T.IsDir p ∨ T.get p = none ∧ T.IsDir p.dropLast ∧ ProperName (p.getLastD [])

/-- The tree with the directory. -/
def withDir (M : Machine) (T : Tree) (p : Path) : Tree := if T.IsDir p then T else T.addAll (M.newDir p)

lemma withDir_of_isDir (M : Machine) {p : Path} (h : T.IsDir p) : M.withDir T p = T := if_pos h

lemma isDir_withDir (M : Machine) {p : Path} (h : Makeable T p) : (M.withDir T p).IsDir p := by
  by_cases hdir : T.IsDir p
  · rwa [withDir_of_isDir M hdir]
  · obtain ⟨hfree, -, -⟩ := h.resolve_left hdir
    rw [withDir, if_neg hdir]
    exact FileTree.isDir_iff.mpr ⟨true, get_newDir_self hfree⟩

/-- Nothing that is there changes. -/
lemma get_withDir (M : Machine) {p q : Path} {n : Node CStr CStr} (h : T.get q = some n) : (M.withDir T p).get q = some n := by
  rw [withDir]
  split
  · exact h
  · rw [get_newDir, h, Option.some_or]

lemma get_withDir_outside (M : Machine) {p q : Path} (h : ¬ p <+: q) : (M.withDir T p).get q = T.get q := by
  rw [withDir]
  split
  · rfl
  · exact get_newDir_outside h

end Machine

open Machine

/-- `usbg_check_dir` provides the directory. -/
lemma usbgCheckDir_ends :
    Ends (fun _ w' => Makeable w.tree path.resolve ∧ w'.tree = M.withDir w.tree path.resolve)
      (fun _ _ => M.Willing → ¬ Makeable w.tree path.resolve) False (usbgCheckDir M.kernel path w) := by
  rw [usbgCheckDir]
  refine Ends.bind_then (ends_rawCall (fun _ w₁ _ h _ => ?_) fun e w₁ hwhy ht₁ _ => ?_)
  · obtain ⟨hdir, ht₁⟩ := exec_opendir.mp h
    exact ⟨.inl hdir, by rw [ht₁, withDir_of_isDir M hdir]⟩
  · have hopen : M.Willing → ¬ w.tree.IsDir path.resolve ∧ (e ≠ .enoent → w.tree.get path.resolve ≠ none) := by
      intro hwilling
      obtain ⟨-, herr⟩ := hwhy.resolve_left fun hf => by simp [hwilling _ _] at hf
      by_cases hdir : w.tree.IsDir path.resolve
      · rw [exec, opendir, if_pos hdir] at herr
        cases herr
      · rw [exec, opendir, if_neg hdir] at herr
        obtain rfl : notDir (w.tree.get path.resolve) = e := Except.error.inj herr
        exact ⟨hdir, fun hne hnone => hne (by rw [hnone]; rfl)⟩
    refine Ends.ite (fun _ => ?_) fun hne hwilling => ?_
    · refine ends_call (c := .mkdir path) (fun _ w' h _ => ?_) fun e w' hwhy _ _ => ?_
      · obtain ⟨hfree, hparent, hname, ht⟩ := mkdir_eq_ok.mp (exec_mkdir.mp h)
        rw [ht₁] at hfree hparent ht
        refine ⟨.inr ⟨hfree, hparent, hname⟩, ?_⟩
        rw [ht, withDir, if_neg]
        rw [FileTree.IsDir, hfree]
        exact Bool.false_ne_true
      · intro hwilling hmakeable
        obtain ⟨errno, herr, -⟩ := hwhy (hwilling _)
        obtain ⟨hfree, hparent, hname⟩ := hmakeable.resolve_left (hopen hwilling).1
        have hmkdir : M.mkdir w.tree path.resolve = .ok (w.tree.addAll (M.newDir path.resolve)) :=
          mkdir_eq_ok.mpr ⟨hfree, hparent, hname, rfl⟩
        rw [ht₁, exec, hmkdir] at herr
        cases herr
    · have hnot := hopen hwilling
      exact fun hmakeable => hmakeable.elim hnot.1 fun hfree => hnot.2 hne hfree.1

/-- Writing one string. -/
lemma usbgWriteString_ends {str : GadgetStr} {val : CStr} :
    Ends (fun _ w' => (strPath path str).Fits ∧ (∃ content, w.tree.get (strPath path str).resolve = some (.file content)) ∧
        w'.tree = w.tree.replace (strPath path str).resolve (.file val))
      (fun _ _ => M.Willing → ¬ ((strPath path str).Fits ∧
        ∃ content, w.tree.get (strPath path str).resolve = some (.file content))) False
      (usbgWriteString M.kernel path [] str.name (some val) w) := by
  refine Ends.require_bind (fun hfits => ?_) fun hfits _ h => hfits h.1
  refine ends_call (c := .write (path ++ [[], str.name]) val) (fun _ w' h _ => ?_) fun e w' hwhy _ _ => ?_
  · obtain ⟨hfile, ht⟩ := writeFile_eq_ok.mp (exec_write.mp h)
    exact ⟨hfits, hfile, ht⟩
  · intro hwilling hfile
    obtain ⟨errno, herr, -⟩ := hwhy (hwilling _)
    have hwrite : writeFile w.tree (path ++ [[], str.name]).resolve val =
        .ok (w.tree.replace (strPath path str).resolve (.file val)) := writeFile_eq_ok.mpr ⟨hfile.2, rfl⟩
    rw [exec, hwrite] at herr
    cases herr

/-! ## Several strings -/

lemma strPath_resolve (hne : path ≠ []) (str : GadgetStr) : (strPath path str).resolve = path.resolve ++ [str.name] := by
  rw [strPath, Path.resolve_append hne]
  cases str <;> rfl

lemma strPath_injective (hne : path ≠ []) {str str' : GadgetStr}
    (h : (strPath path str).resolve = (strPath path str').resolve) : str = str' := by
  rw [strPath_resolve hne, strPath_resolve hne] at h
  have hname := List.append_cancel_left h
  revert hname
  cases str <;> cases str' <;> decide

/-- From the tree `T₀` the strings `done` have been written in the directory. -/
structure StrsWritten (dir : Path) (T₀ : Tree) (done : List (GadgetStr × CStr)) (T : Tree) : Prop where
  set : ∀ e ∈ done, T.get (strPath dir e.1).resolve = some (.file e.2)
  other : ∀ q, (∀ e ∈ done, q ≠ (strPath dir e.1).resolve) → T.get q = T₀.get q
  files : ∀ e ∈ done, (strPath dir e.1).Fits ∧ ∃ content, T₀.get (strPath dir e.1).resolve = some (.file content)

namespace StrsWritten

variable {dir : Path} {T₀ : Tree} {done : List (GadgetStr × CStr)} {e : GadgetStr × CStr}

lemma nil (dir : Path) (T : Tree) : StrsWritten dir T [] T where
  set _ he := absurd he List.not_mem_nil
  other _ _ := rfl
  files _ he := absurd he List.not_mem_nil

/-- A string that has not been written yet has the file it had. -/
lemma get_new (h : StrsWritten dir T₀ done T) (hne : dir ≠ []) (he : ∀ e' ∈ done, e'.1 ≠ e.1) :
    T.get (strPath dir e.1).resolve = T₀.get (strPath dir e.1).resolve :=
  h.other _ fun e' he' heq => he e' he' (strPath_injective hne heq).symm

/-- One more string is written. -/
lemma snoc (h : StrsWritten dir T₀ done T) (hne : dir ≠ []) (he : ∀ e' ∈ done, e'.1 ≠ e.1)
    (hfits : (strPath dir e.1).Fits) (hfile : ∃ content, T.get (strPath dir e.1).resolve = some (.file content)) :
    StrsWritten dir T₀ (done ++ [e]) (T.replace (strPath dir e.1).resolve (.file e.2)) where
  set e' he' := by
    rw [FileTree.get_replace]
    rcases List.mem_append.mp he' with he' | he'
    · rw [if_neg fun heq => he e' he' (strPath_injective hne heq)]
      exact h.set e' he'
    · obtain ⟨content, hfile⟩ := hfile
      rw [List.mem_singleton.mp he', if_pos rfl, hfile]
      rfl
  other q hq := by
    rw [FileTree.get_replace, if_neg (hq e (by simp))]
    exact h.other q fun e' he' => hq e' (by simp [he'])
  files e' he' := by
    rcases List.mem_append.mp he' with he' | he'
    · exact h.files e' he'
    · rw [List.mem_singleton.mp he', ← h.get_new hne he]
      exact ⟨hfits, hfile⟩

/-- Directories stay directories. -/
lemma isDir (h : StrsWritten dir T₀ done T) {p : Path} (hp : T₀.IsDir p) : T.IsDir p := by
  obtain ⟨b, hb⟩ := FileTree.isDir_iff.mp hp
  rw [FileTree.isDir_iff]
  refine ⟨b, (h.other p ?_).trans hb⟩
  rintro e he rfl
  obtain ⟨-, content, hfile⟩ := h.files e he
  rw [hb] at hfile
  cases hfile

/-- The order does not matter. -/
lemma same {done' : List (GadgetStr × CStr)} {T' : Tree} (h : StrsWritten dir T₀ done T)
    (h' : StrsWritten dir T₀ done' T') (hperm : done'.Perm done) : T'.Same T := by
  intro q
  by_cases hq : ∃ e ∈ done, q = (strPath dir e.1).resolve
  · obtain ⟨e, he, rfl⟩ := hq
    rw [h.set e he, h'.set e (hperm.mem_iff.mpr he)]
  · rw [h.other q fun e he heq => hq ⟨e, he, heq⟩, h'.other q fun e he heq => hq ⟨e, hperm.mem_iff.mp he, heq⟩]

end StrsWritten

/-- The strings that are present. -/
def GadgetStrs.present (strs : GadgetStrs) : List (GadgetStr × CStr) :=
  [GadgetStr.manufacturer, .product, .serialNumber].filterMap fun str => (strs.get str).map (str, ·)

lemma GadgetStrs.mem_present {strs : GadgetStrs} {e : GadgetStr × CStr} :
    e ∈ strs.present ↔ strs.get e.1 = some e.2 := by
  obtain ⟨str, val⟩ := e
  simp only [present, List.mem_filterMap, Option.map_eq_some_iff, Prod.mk.injEq]
  constructor
  · rintro ⟨_, -, _, hval, rfl, rfl⟩
    exact hval
  · intro hval
    exact ⟨str, by cases str <;> simp, val, hval, rfl, rfl⟩

lemma GadgetStrs.keys_present (strs : GadgetStrs) : KeysNodup Prod.fst strs.present := by
  obtain ⟨_ | m, _ | p, _ | s⟩ := strs <;> simp [KeysNodup, present, get]

/-- `usbg_set_gadget_strs` writes the strings that are present. -/
lemma usbgSetGadgetStrs_eq {κ : Type} (K : Kernel κ) (g : Gadget) (lang : ℤ) (strs : GadgetStrs) :
    usbgSetGadgetStrs K g lang strs = (require (langPath g lang).Fits .pathTooLong >>= fun _ =>
      usbgCheckDir K (langPath g lang) >>= fun _ =>
        forEach (fun e => usbgWriteString K (langPath g lang) [] e.1.name (some e.2)) strs.present) := by
  rw [usbgSetGadgetStrs]
  obtain ⟨_ | m, _ | p, _ | s⟩ := strs <;>
    simp only [GadgetStrs.present, GadgetStrs.get, List.filterMap_cons, List.filterMap_nil, Option.map_none,
      Option.map_some, whenSome_none, whenSome_some, forEach_cons, forEach_nil, Prog.pure_bind, Prog.bind_pure] <;>
    rfl

lemma langPath_ne_nil (g : Gadget) (lang : ℤ) : langPath g lang ≠ [] := by simp [langPath]

/-- It provides the directory, and writes what is present. -/
lemma usbgSetGadgetStrs_ends {strs : GadgetStrs} :
    Ends (fun _ w' => Makeable w.tree (langPath g lang).resolve ∧ (langPath g lang).Fits ∧
        StrsWritten (langPath g lang) (M.withDir w.tree (langPath g lang).resolve) strs.present w'.tree)
      (fun _ _ => True) False (usbgSetGadgetStrs M.kernel g lang strs w) := by
  rw [usbgSetGadgetStrs_eq]
  refine Ends.require_bind (fun hfits => ?_) fun _ => trivial
  refine Ends.bind (usbgCheckDir_ends.mono (fun _ _ h => h) fun _ _ _ => trivial) ?_
  rintro _ w₁ ⟨hmakeable, ht₁⟩
  refine (Ends.forEachDone (fun done w' =>
    StrsWritten (langPath g lang) (M.withDir w.tree (langPath g lang).resolve) done w'.tree) ?_ ?_).mono
    (fun _ _ h => ⟨hmakeable, hfits, h⟩) fun _ _ h => h
  · intro done e w₂ hpre hdone
    refine usbgWriteString_ends.mono ?_ fun _ _ _ => trivial
    rintro _ w₃ ⟨hfits, hfile, ht₃⟩
    rw [ht₃]
    exact hdone.snoc (langPath_ne_nil g lang) (strs.keys_present.ne_of_prefix hpre) hfits hfile
  · rw [ht₁]
    exact .nil _ _

/-! ## One by one -/

/-- A call that sets one string: by its code, or by the function for it. -/
structure StrCall where
  str : GadgetStr
  val : CStr
  byCode : Bool

namespace StrCall

/-- The string and its value. -/
def entry (c : StrCall) : GadgetStr × CStr := (c.str, c.val)

/-- The call. -/
def run {κ : Type} (K : Kernel κ) (g : Gadget) (lang : ℤ) (c : StrCall) : Io κ Unit :=
  if c.byCode then usbgSetGadgetStr K g c.str lang (some c.val)
  else
    match c.str with
    | .manufacturer => usbgSetGadgetManufacturer K g lang (some c.val)
    | .product => usbgSetGadgetProduct K g lang (some c.val)
    | .serialNumber => usbgSetGadgetSerialNumber K g lang (some c.val)

/-- Both ways do the same. -/
lemma run_eq {κ : Type} (K : Kernel κ) (g : Gadget) (lang : ℤ) (c : StrCall) :
    c.run K g lang = setGadgetStrFile K g lang c.str.name (some c.val) := by
  obtain ⟨_ | _ | _, val, _ | _⟩ := c <;> rfl

end StrCall

/-- The strings that the calls have set up to now: with the directory provided, they have been written. -/
structure CallsDone (M : Machine) (dir : Path) (T : Tree) (done : List StrCall) (T' : Tree) : Prop where
  written : StrsWritten dir (M.withDir T dir.resolve) (done.map StrCall.entry) (M.withDir T' dir.resolve)
  start : done = [] ∧ T' = T ∨ T'.IsDir dir.resolve

/-- What has to be there for the calls to succeed. -/
structure CallsPossible (M : Machine) (dir : Path) (T : Tree) (calls : List StrCall) : Prop where
  makeable : Makeable T dir.resolve
  fits : dir.Fits
  files : ∀ c ∈ calls, (strPath dir c.str).Fits ∧
    ∃ content, (M.withDir T dir.resolve).get (strPath dir c.str).resolve = some (.file content)

/-- One more call. -/
lemma strCall_ends {calls done : List StrCall} {c : StrCall} (hnodup : KeysNodup StrCall.str calls)
    (hpre : done ++ [c] <+: calls) (hdone : CallsDone M (langPath g lang) T done w.tree) :
    Ends (fun _ w' => CallsDone M (langPath g lang) T (done ++ [c]) w'.tree)
      (fun _ _ => M.Willing → ¬ CallsPossible M (langPath g lang) T calls) False (c.run M.kernel g lang w) := by
  have hnew : ∀ e ∈ done.map StrCall.entry, e.1 ≠ c.entry.1 := by
    intro e he
    obtain ⟨c', hc', rfl⟩ := List.mem_map.mp he
    exact hnodup.ne_of_prefix hpre c' hc'
  have hmem : c ∈ calls := hpre.subset (by simp)
  rw [StrCall.run_eq]
  refine Ends.require_bind (fun hfits => ?_) fun hfits _ h => hfits h.fits
  refine Ends.bind (usbgCheckDir_ends.mono (fun _ _ h => h) ?_) ?_
  · -- the directory can be made as long as none of the calls has made it
    intro e w₁ hnot hwilling hpossible
    rcases hdone.start with ⟨-, hstart⟩ | hdir
    · exact hnot hwilling (hstart ▸ hpossible.makeable)
    · exact hnot hwilling (.inl hdir)
  · rintro _ w₁ ⟨hmakeable, (ht₁ : w₁.tree = M.withDir w.tree (langPath g lang).resolve)⟩
    have hwritten := hdone.written
    rw [← ht₁] at hwritten
    have hfile := hwritten.get_new (langPath_ne_nil g lang) hnew
    refine usbgWriteString_ends.mono ?_ ?_
    · rintro _ w₂ ⟨hstrFits, hcontent, ht₂⟩
      have hsnoc := hwritten.snoc (langPath_ne_nil g lang) hnew hstrFits hcontent
      have hdir : w₂.tree.IsDir (langPath g lang).resolve := by
        rw [ht₂]
        refine ((StrsWritten.nil (langPath g lang) w₁.tree).snoc (e := c.entry) (langPath_ne_nil g lang)
          (fun _ h => absurd h List.not_mem_nil) hstrFits hcontent).isDir ?_
        rw [ht₁]
        exact isDir_withDir M hmakeable
      refine ⟨?_, .inr hdir⟩
      rw [withDir_of_isDir M hdir, ht₂, List.map_append]
      exact hsnoc
    · intro e w₂ hnot hwilling hpossible
      obtain ⟨hstrFits, content, hcontent⟩ := hpossible.files c hmem
      exact hnot hwilling ⟨hstrFits, content, hfile.trans hcontent⟩

/-- All of them. -/
lemma strCalls_ends {calls : List StrCall} (hnodup : KeysNodup StrCall.str calls) :
    Ends (fun _ w' => CallsDone M (langPath g lang) w.tree calls w'.tree)
      (fun _ _ => M.Willing → ¬ CallsPossible M (langPath g lang) w.tree calls) False
      (forEach (StrCall.run M.kernel g lang) calls w) :=
  Ends.forEachDone (fun done (w' : World Fs) => CallsDone M (langPath g lang) w.tree done w'.tree)
    (fun _ _ _ hpre hdone => strCall_ends hnodup hpre hdone) ⟨.nil _ _, .inl ⟨rfl, rfl⟩⟩

/-! ## The languages apart -/

/-- Two languages have two directories. -/
lemma langDir_injective {lang lang' : ℤ} (hlang : -2 ^ 31 ≤ lang ∧ lang < 2 ^ 31)
    (hlang' : -2 ^ 31 ≤ lang' ∧ lang' < 2 ^ 31) (h : langDir lang = langDir lang') : lang = lang' := by
  have hprint : printHex 0 lang = printHex 0 lang' := List.append_cancel_left h
  have hscan := scanDigits_printHex 0 lang (r := []) rfl
  rw [hprint, scanDigits_printHex 0 lang' (r := []) rfl, Prod.mk.injEq] at hscan
  omega

lemma langPath_resolve (g : Gadget) (lang : ℤ) :
    (langPath g lang).resolve = g.dir.resolve ++ [stringsDir, langDir lang] := by
  have hpath : langPath g lang = g.dir ++ [stringsDir, langDir lang] := by simp [langPath, Gadget.dir]
  rw [hpath, Path.resolve_append (by simp [Gadget.dir])]
  have hlang : langDir lang ≠ [] := by simp [langDir]
  simp [hlang]

/-- What is in the directory of one language is not in that of another. -/
lemma langPath_apart {lang' : ℤ} (hne : langDir lang' ≠ langDir lang) {q : Path}
    (hq : (langPath g lang').resolve <+: q) : ¬ (langPath g lang).resolve <+: q := by
  intro hq'
  rw [langPath_resolve] at hq hq'
  have heq := (List.prefix_of_prefix_length_le hq hq' (by simp)).eq_of_length (by simp)
  exact hne (by simpa using heq)

/-- Writing the strings of one language leaves the directory of another as it is. -/
lemma StrsWritten.outside {done : List (GadgetStr × CStr)}
    (h : StrsWritten (langPath g lang) (M.withDir T (langPath g lang).resolve) done T') {q : Path}
    (hq : ¬ (langPath g lang).resolve <+: q) : T'.get q = T.get q := by
  rw [h.other q, get_withDir_outside M hq]
  rintro e he rfl
  rw [strPath_resolve (langPath_ne_nil g lang)] at hq
  exact hq (List.prefix_append ..)

/-! ## Setting and getting -/

/-- What `usbg_set_gadget_strs` has done when it has succeeded in the language: the strings that were given are
read back, the others have the content they had, and so has every other language. -/
structure StrsSet (M : Machine) (ended : ℕ → Path → Bool) (g : Gadget) (lang : ℤ) (strs : GadgetStrs)
    (w w' : World Fs) : Prop where
  returned : Ends (fun got _ => ∀ str val, strs.get str = some val → got.get str = some val)
    (fun _ _ => M.Reads → ¬ StrsReadable w'.tree (langPath g lang)) False
    (usbgGetGadgetStrs (M.endingLines ended) g lang w')
  absent : ∀ str, strs.get str = none → ∀ n, w.tree.get (strPath (langPath g lang) str).resolve = some n →
    w'.tree.get (strPath (langPath g lang) str).resolve = some n
  absentRead : ∀ str, strs.get str = none → ∀ old got v v',
    usbgGetGadgetStrs (M.endingLines ended) g lang w = (.ok old, v) →
    usbgGetGadgetStrs (M.endingLines ended) g lang w' = (.ok got, v') → got.get str = old.get str
  others : ∀ lang', -2 ^ 31 ≤ lang' ∧ lang' < 2 ^ 31 → lang' ≠ lang →
    ∀ q, (langPath g lang').resolve <+: q → w'.tree.get q = w.tree.get q
  othersRead : ∀ lang', -2 ^ 31 ≤ lang' ∧ lang' < 2 ^ 31 → lang' ≠ lang → ∀ old got v v',
    usbgGetGadgetStrs (M.endingLines ended) g lang' w = (.ok old, v) →
    usbgGetGadgetStrs (M.endingLines ended) g lang' w' = (.ok got, v') → got = old

/-- The calls, one after the other, lead to the tree of `w'`; a kernel that refuses nothing lets them
succeed. -/
def EachSame (M : Machine) (ended : ℕ → Path → Bool) (g : Gadget) (lang : ℤ) (calls : List StrCall)
    (w w' : World Fs) : Prop :=
  Ends (fun _ v => v.tree.Same w'.tree) (fun _ _ => ¬ M.Willing) False
    (forEach (StrCall.run (M.endingLines ended) g lang) calls w)

lemma GadgetStrs.ext_get {a b : GadgetStrs} (h : ∀ str, a.get str = b.get str) : a = b := by
  have hm := h .manufacturer
  have hp := h .product
  have hs := h .serialNumber
  cases a
  cases b
  simp_all [get]

/-- What is read is determined by the files. -/
lemma StrsRead.get_eq {dir : Path} {old got : GadgetStrs} {str : GadgetStr} (h : StrsRead T dir old) (h' : StrsRead T' dir got)
    (hsame : ∀ n, T.get (strPath dir str).resolve = some n → T'.get (strPath dir str).resolve = some n) :
    got.get str = old.get str := by
  obtain ⟨content, hfile, hold⟩ := h str
  obtain ⟨content', hfile', hgot⟩ := h' str
  rw [hsame _ hfile, Option.some.injEq, Node.file.injEq] at hfile'
  rw [hold, hgot, hfile']

lemma usbgGetGadgetStrs_read {got : GadgetStrs} {v : World Fs}
    (h : usbgGetGadgetStrs (M.endingLines ended) g lang w = (.ok got, v)) : StrsRead w.tree (langPath g lang) got := by
  have hends : Ends _ _ _ (usbgGetGadgetStrs (M.endingLines ended) g lang w) := usbgGetGadgetStrs_ends
  rw [h] at hends
  exact hends.2

lemma strsSet_of_written {strs : GadgetStrs} {w' : World Fs} (hlang : -2 ^ 31 ≤ lang ∧ lang < 2 ^ 31)
    (hplain : ∀ str val, strs.get str = some val → PlainString val)
    (h : StrsWritten (langPath g lang) (M.withDir w.tree (langPath g lang).resolve) strs.present w'.tree) :
    StrsSet M ended g lang strs w w' := by
  have habsent : ∀ str, strs.get str = none → ∀ n, w.tree.get (strPath (langPath g lang) str).resolve = some n →
      w'.tree.get (strPath (langPath g lang) str).resolve = some n := by
    intro str hnone n hn
    rw [h.other, get_withDir M hn]
    intro e he heq
    have hstr : str = e.1 := strPath_injective (langPath_ne_nil g lang) heq
    rw [GadgetStrs.mem_present, ← hstr, hnone] at he
    cases he
  have hothers : ∀ lang', -2 ^ 31 ≤ lang' ∧ lang' < 2 ^ 31 → lang' ≠ lang →
      ∀ q, (langPath g lang').resolve <+: q → w'.tree.get q = w.tree.get q := by
    intro lang' hlang' hne q hq
    exact h.outside (langPath_apart (fun heq => hne (langDir_injective hlang' hlang heq)) hq)
  refine ⟨?_, habsent, ?_, hothers, ?_⟩
  · refine usbgGetGadgetStrs_ends.mono ?_ fun _ _ hnot => hnot
    rintro got v ⟨-, hread⟩ str val hval
    obtain ⟨content, hfile, hgot⟩ := hread str
    rw [h.set (str, val) (GadgetStrs.mem_present.mpr hval), Option.some.injEq, Node.file.injEq] at hfile
    rw [hgot, ← hfile, (hplain str val hval).stringIn]
  · intro str hnone old got v v' hold hgot
    exact (usbgGetGadgetStrs_read hold).get_eq (usbgGetGadgetStrs_read hgot) (habsent str hnone)
  · intro lang' hlang' hne old got v v' hold hgot
    refine GadgetStrs.ext_get fun str => (usbgGetGadgetStrs_read hold).get_eq (usbgGetGadgetStrs_read hgot) fun n hn => ?_
    rw [hothers lang' hlang' hne, hn]
    rw [strPath_resolve (langPath_ne_nil g lang')]
    exact List.prefix_append ..

/-- For every gadget, every language and all strings that a file can hold: when `usbg_set_gadget_strs` succeeds, the
strings are read back and nothing else changes; and setting the strings one by one, in any order and with either
kind of setter, leads to the same tree, if there is a string to set or the directory was there before. -/
theorem gadgetStrs_set (M : Machine) (ended : ℕ → Path → Bool) (g : Gadget) (lang : ℤ)
    (hlang : -2 ^ 31 ≤ lang ∧ lang < 2 ^ 31) (strs : GadgetStrs)
    (hplain : ∀ str val, strs.get str = some val → PlainString val) (w w' : World Fs)
    (hset : usbgSetGadgetStrs (M.endingLines ended) g lang strs w = (.ok (), w')) :
    StrsSet M ended g lang strs w w' ∧
      ∀ calls, (calls.map StrCall.entry).Perm strs.present →
        calls ≠ [] ∨ w.tree.IsDir (langPath g lang).resolve → EachSame M ended g lang calls w w' := by
  have hends : Ends _ _ _ (usbgSetGadgetStrs (M.endingLines ended) g lang strs w) := usbgSetGadgetStrs_ends (M := M)
  rw [hset] at hends
  obtain ⟨hmakeable, hfits, hwritten⟩ := hends
  refine ⟨strsSet_of_written hlang hplain hwritten, fun calls hperm hdir => ?_⟩
  have hnodup : KeysNodup StrCall.str calls := by
    have := strs.keys_present.perm hperm
    rwa [KeysNodup, List.map_map] at this
  have hpossible : CallsPossible M (langPath g lang) w.tree calls := by
    refine ⟨hmakeable, hfits, fun c hc => hwritten.files c.entry (hperm.subset (List.mem_map_of_mem hc))⟩
  refine (strCalls_ends (M := M) hnodup).mono ?_ fun _ _ hnot hwilling => hnot hwilling hpossible
  intro _ v hdone
  have hisDir : v.tree.IsDir (langPath g lang).resolve := by
    rcases hdone.start with ⟨hnil, hstart⟩ | h
    · rw [hstart]
      exact hdir.resolve_left fun hne => hne hnil
    · exact h
  have hall := hdone.written
  rw [withDir_of_isDir M hisDir] at hall
  exact hwritten.same hall hperm

/-! ## An example -/

/-- A kernel that puts the files for the strings into every directory of a language. -/
def langMachine : Machine where
  groups p :=
    if p.dropLast.getLastD [] = stringsDir then
      [GadgetStr.manufacturer, .product, .serialNumber].map fun str => ([str.name], some [])
    else []
  fault _ _ := none
  stale _ := []

/-- The directory for the strings of a gadget, which is empty. -/
def noLangs : World Fs :=
  worldOf ⟨[(plainGadget.dir ++ [stringsDir], .dir false)], List.nodup_singleton _⟩

/-- Only the product has a name. -/
def productOnly : GadgetStrs := { manufacturer := none, product := some "Foo".toList, serial := none }

/-- No string. -/
def noStrs : GadgetStrs := { manufacturer := none, product := none, serial := none }

/-- The strings are set; every file that is read ends in a newline. -/
def afterStrs (strs : GadgetStrs) : World Fs :=
  (usbgSetGadgetStrs (langMachine.endingLines fun _ _ => true) plainGadget langUsEng strs noLangs).2

lemma set_productOnly : usbgSetGadgetStrs (langMachine.endingLines fun _ _ => true) plainGadget langUsEng productOnly
    noLangs = (.ok (), afterStrs productOnly) :=
  Prod.ext (by decide +kernel) rfl

lemma set_noStrs : usbgSetGadgetStrs (langMachine.endingLines fun _ _ => true) plainGadget langUsEng noStrs
    noLangs = (.ok (), afterStrs noStrs) :=
  Prod.ext (by decide +kernel) rfl

lemma plain_productOnly (str : GadgetStr) (val : CStr) (h : productOnly.get str = some val) : PlainString val := by
  cases str with
  | manufacturer => cases h
  | product =>
    obtain rfl : "Foo".toList = val := Option.some.inj h
    exact ⟨by simp, by simp, by decide⟩
  | serialNumber => cases h

/-- For the product. -/
theorem gadgetStrs_set_productOnly :
    StrsSet langMachine (fun _ _ => true) plainGadget langUsEng productOnly noLangs (afterStrs productOnly) ∧
      ∀ calls, (calls.map StrCall.entry).Perm productOnly.present →
        calls ≠ [] ∨ noLangs.tree.IsDir (langPath plainGadget langUsEng).resolve →
        EachSame langMachine (fun _ _ => true) plainGadget langUsEng calls noLangs (afterStrs productOnly) :=
  gadgetStrs_set langMachine (fun _ _ => true) plainGadget langUsEng (by decide) productOnly plain_productOnly noLangs
    (afterStrs productOnly) set_productOnly

lemma langDir_afterStrs : (afterStrs noStrs).tree.get (langPath plainGadget langUsEng).resolve = some (.dir true) := by
  decide +kernel

lemma langDir_before : noLangs.tree.get (langPath plainGadget langUsEng).resolve = none := by
  decide +kernel

/-- Without any string `usbg_set_gadget_strs` makes the directory of the language, and setting the strings one by
one makes nothing. -/
theorem gadgetStrs_set_fails :
    usbgSetGadgetStrs (langMachine.endingLines fun _ _ => true) plainGadget langUsEng noStrs noLangs =
        (.ok (), afterStrs noStrs) ∧
      ¬ ∀ calls, (calls.map StrCall.entry).Perm noStrs.present →
        EachSame langMachine (fun _ _ => true) plainGadget langUsEng calls noLangs (afterStrs noStrs) := by
  refine ⟨set_noStrs, fun hall => ?_⟩
  have hsame : noLangs.tree.Same (afterStrs noStrs).tree := hall [] .nil
  have hdir := hsame (langPath plainGadget langUsEng).resolve
  rw [langDir_afterStrs, langDir_before] at hdir
  cases hdir

end Libusbgx
