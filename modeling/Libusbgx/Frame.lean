import Libusbgx.Source.Create
import Libusbgx.Source.Function.Types
import Libusbgx.Source.Remove
import Libusbgx.Source.Udc
import Mathlib.Data.List.Infix

/-!
# What the functions leave alone

A function that only makes system calls and allocates keeps every property of the world that
system calls and allocation keep.  There is one lemma for each such function, so that the
proofs about a particular property only look at the calls themselves.
-/

namespace Libusbgx

open Prog

variable {κ τ α β : Type} {K : Kernel κ}

/-- The call takes something away. -/
def Syscall.Removes : Syscall → Prop
  | .rmdir _ | .unlink _ | .remove _ => True
  | _ => False

/-- The path leads to something below `p`, and not to `p` itself. -/
def Under (p q : Path) : Prop := ∃ r, q = p ++ r ∧ ∃ name ∈ r, name ≠ []

/-- Kept by every system call about something below `p` that does not remove `p` itself, and by
allocation. -/
structure StableIn (K : Kernel κ) (p : Path) (I : World κ → Prop) : Prop where
  atCall : ∀ c w, p <+: c.path → (c.Removes → Under p c.path) → I w → I { w with sys := (K.call c w.sys).2 }
  atMalloc : ∀ w, I w → I { w with next := w.next + 1 }

/-- Also kept when `p` is removed. -/
structure Stable (K : Kernel κ) (p : Path) (I : World κ → Prop) : Prop extends StableIn K p I where
  atRemoval : ∀ c w, p <+: c.path → c.Removes → I w → I { w with sys := (K.call c w.sys).2 }

/-- Also kept when the directories on the way to `p` are made, as the video functions try to. -/
structure StableUpIn (K : Kernel κ) (p : Path) (I : World κ → Prop) : Prop extends StableIn K p I where
  atMkdir : ∀ q w, q <+: p → I w → I { w with sys := (K.call (.mkdir q) w.sys).2 }

/-- Both. -/
structure StableUp (K : Kernel κ) (p : Path) (I : World κ → Prop) : Prop extends
  Stable K p I, StableUpIn K p I

/-- What every call about something below `p` keeps. -/
lemma Stable.of_calls {p : Path} {I : World κ → Prop}
    (hcall : ∀ c w, p <+: c.path → I w → I { w with sys := (K.call c w.sys).2 })
    (hmalloc : ∀ w, I w → I { w with next := w.next + 1 }) : Stable K p I where
  atCall c w hc _ := hcall c w hc
  atMalloc := hmalloc
  atRemoval c w hc _ := hcall c w hc

/-- Addresses are handed out in increasing order. -/
lemma stable_next (K : Kernel κ) (n : Addr) : StableUp K [] fun w => n ≤ w.next :=
  { Stable.of_calls (fun _ _ _ h => h) fun _ h => Nat.le_succ_of_le h with
    atMkdir := fun _ _ _ h => h }

/-! ## System calls have a meaning -/

lemma defined_rawCall (c : Syscall) : Defined (rawCall K c) := fun _ => by simp [rawCall]

lemma defined_call (c : Syscall) : Defined (call K c) := by
  rw [call_eq]
  exact .bind (defined_rawCall c) fun _ => .ofExcept _

lemma defined_scandir {p : Path} {sel : Dirent → Bool} : Defined (scandir K p sel) :=
  .bind (defined_call _) fun _ => .pure _

lemma defined_usbgReadString {path : Path} {name file : CStr} :
    Defined (usbgReadString K path name file) :=
  .bind (.bind (.require _) fun _ => .bind (defined_call _) fun _ => .pure _) fun _ => .pure _

lemma defined_usbgRmDir {path : Path} {name : CStr} : Defined (usbgRmDir K path name) :=
  .bind (.require _) fun _ => defined_call _

/-! ## What calls keep -/

/-- Below a directory is below what that is below. -/
lemma below {p path : Path} (hp : p <+: path) (rest : Path) : p <+: path ++ rest :=
  hp.trans (List.prefix_append ..)

/-- The same for a path in two parts. -/
lemma below_cons {p path : Path} {name : CStr} (hp : p <+: path ++ [name]) (rest : Path) :
    p <+: path ++ name :: rest := by
  have := below hp rest
  rwa [List.append_assoc] at this

lemma Under.prefix {p q : Path} (h : Under p q) : p <+: q := by
  obtain ⟨r, rfl, -⟩ := h
  exact List.prefix_append ..

lemma Under.below {p path : Path} (h : Under p path) (rest : Path) : Under p (path ++ rest) := by
  obtain ⟨r, rfl, name, hname, hne⟩ := h
  exact ⟨r ++ rest, List.append_assoc .., name, List.mem_append_left _ hname, hne⟩

/-- Something in a directory below `p`. -/
lemma Under.of_below {p path : Path} {name : CStr} (hp : p <+: path) (hname : name ≠ []) (rest : Path) :
    Under p (path ++ name :: rest) := by
  obtain ⟨r, rfl⟩ := hp
  exact ⟨r ++ name :: rest, List.append_assoc .., name, by simp, hname⟩

namespace StableIn

variable {I : World κ → Prop} {p : Path} (h : StableIn K p I)

include h

/-! ### System calls -/

lemma keeps_call {c : Syscall} (hc : p <+: c.path) (hr : c.Removes → Under p c.path) : Keeps I (call K c) :=
  fun w hw => h.atCall c w hc hr hw

lemma keeps_rawCall {c : Syscall} (hc : p <+: c.path) (hr : c.Removes → Under p c.path) :
    Keeps I (rawCall K c) :=
  fun w hw => h.atCall c w hc hr hw

lemma keeps_tryCall {c : Syscall} (hc : p <+: c.path) (hr : c.Removes → Under p c.path) :
    Keeps I (tryCall K c) :=
  fun w hw => h.atCall c w hc hr hw

lemma keeps_malloc : Keeps I (malloc : Io κ Addr) := fun w hw => h.atMalloc w hw

lemma keeps_scandir {path : Path} {sel : Dirent → Bool} (hp : p <+: path) :
    Keeps I (scandir K path sel) :=
  .bind (h.keeps_call hp False.elim) fun _ => .pure _

/-! ### Files and directories -/

section Files

variable {path : Path} {name file : CStr} (hp : p <+: path ++ [name])

include hp

lemma keeps_usbgReadBufLimited {len : ℕ} : Keeps I (usbgReadBufLimited K path name file len) :=
  .bind (.require _) fun _ => .bind (h.keeps_call (below_cons hp _) False.elim) fun _ => .pure _

lemma keeps_usbgReadStringLimited {len : ℕ} :
    Keeps I (usbgReadStringLimited K path name file len) :=
  .bind (h.keeps_usbgReadBufLimited hp) fun _ => .pure _

lemma keeps_usbgReadString : Keeps I (usbgReadString K path name file) :=
  h.keeps_usbgReadStringLimited hp

lemma keeps_usbgWriteBuf {buf : CStr} : Keeps I (usbgWriteBuf K path name file buf) :=
  .bind (.require _) fun _ => h.keeps_call (below_cons hp _) False.elim

lemma keeps_usbgWriteDec {v : ℤ} : Keeps I (usbgWriteDec K path name file v) :=
  h.keeps_usbgWriteBuf hp

lemma keeps_usbgWriteHex16 {v : ℤ} : Keeps I (usbgWriteHex16 K path name file v) :=
  h.keeps_usbgWriteBuf hp

lemma keeps_usbgWriteHex8 {v : ℤ} : Keeps I (usbgWriteHex8 K path name file v) :=
  h.keeps_usbgWriteBuf hp

lemma keeps_usbgWriteBool {v : Bool} : Keeps I (usbgWriteBool K path name file v) :=
  h.keeps_usbgWriteDec hp

lemma keeps_usbgWriteString {buf : Option CStr} : Keeps I (usbgWriteString K path name file buf) := by
  cases buf with
  | none => exact .fail _
  | some buf => exact h.keeps_usbgWriteBuf hp

lemma keeps_set {kind : AttrKind} {val : AttrVal} : Keeps I (kind.set K path name file val) := by
  cases kind <;> cases val <;>
    first
    | exact .undef
    | exact h.keeps_usbgWriteDec hp
    | exact h.keeps_usbgWriteBool hp
    | exact h.keeps_usbgWriteString hp
    | exact h.keeps_usbgWriteBuf hp
    | skip
  refine .bind (.deref _) fun buf => .bind (.require _) fun _ => ?_
  cases scanGuid buf 16 with
  | none => exact .fail _
  | some bin => exact h.keeps_usbgWriteBuf hp

end Files

section Directories

variable {path : Path} (hp : p <+: path)

include hp

lemma keeps_usbgCheckDir : Keeps I (usbgCheckDir K path) := by
  refine .bind (h.keeps_rawCall hp False.elim) fun r => ?_
  cases r with
  | ok _ => exact .pure _
  | error e => exact .ite (fun _ => h.keeps_call hp False.elim) (fun _ => .fail _)

end Directories

/-! ### Objects -/

lemma keeps_usbgAllocateGadget {path : Path} {name : CStr} :
    Keeps I (usbgAllocateGadget path name) :=
  .bind h.keeps_malloc fun _ => .pure _

lemma keeps_usbgAllocateConfig {path : Path} {label : CStr} {id : ℤ} :
    Keeps I (usbgAllocateConfig path label id) :=
  .bind h.keeps_malloc fun _ => .pure _

lemma keeps_usbgAllocateFunction {path : Path} {type : FunctionType} {inst : CStr} :
    Keeps I (usbgAllocateFunction path type inst) :=
  .bind h.keeps_malloc fun _ => .pure _

/-! ### Attributes and strings -/

lemma keeps_usbgSetGadgetAttrs {g : Gadget} {attrs : GadgetAttrs} (hp : p <+: g.path ++ [g.name]) :
    Keeps I (usbgSetGadgetAttrs K g attrs) :=
  .bind (h.keeps_usbgWriteHex16 hp) fun _ => .bind (h.keeps_usbgWriteHex8 hp) fun _ =>
  .bind (h.keeps_usbgWriteHex8 hp) fun _ => .bind (h.keeps_usbgWriteHex8 hp) fun _ =>
  .bind (h.keeps_usbgWriteHex8 hp) fun _ => .bind (h.keeps_usbgWriteHex16 hp) fun _ =>
  .bind (h.keeps_usbgWriteHex16 hp) fun _ => h.keeps_usbgWriteHex16 hp

lemma keeps_usbgSetGadgetStrs {g : Gadget} {lang : ℤ} {strs : GadgetStrs}
    (hp : p <+: g.path ++ [g.name]) : Keeps I (usbgSetGadgetStrs K g lang strs) :=
  have hs : p <+: g.path ++ [g.name, stringsDir, langDir lang] := below_cons hp _
  .bind (.require _) fun _ => .bind (h.keeps_usbgCheckDir hs) fun _ =>
  .bind (.whenSome fun _ _ => h.keeps_usbgWriteString (below hs _)) fun _ =>
  .bind (.whenSome fun _ _ => h.keeps_usbgWriteString (below hs _)) fun _ =>
  .whenSome fun _ _ => h.keeps_usbgWriteString (below hs _)

lemma keeps_usbgSetConfigAttrs {c : Config} {attrs : ConfigAttrs} (hp : p <+: c.path ++ [c.name]) :
    Keeps I (usbgSetConfigAttrs K c attrs) :=
  .bind (h.keeps_usbgWriteDec hp) fun _ => h.keeps_usbgWriteHex8 hp

lemma keeps_usbgSetConfigString {c : Config} {lang : ℤ} {str : Option CStr}
    (hp : p <+: c.path ++ [c.name, stringsDir]) : Keeps I (usbgSetConfigString K c lang str) := by
  have hs : p <+: c.path ++ [c.name, stringsDir, langDir lang] := by
    have := below hp [langDir lang]
    rwa [List.append_assoc] at this
  cases str with
  | none => exact .fail _
  | some str =>
    exact .bind (.require _) fun _ => .bind (h.keeps_usbgCheckDir hs) fun _ =>
      h.keeps_usbgWriteString (below hs _)

lemma keeps_usbgSetInterfOsDesc {f : Func} {iname : CStr} {desc : FunctionOsDesc}
    (hp : p <+: f.path ++ [f.name]) : Keeps I (usbgSetInterfOsDesc K f iname desc) := by
  have hs : p <+: f.path ++ [f.name, osDescDir, "interface.".toList ++ iname] := below_cons hp _
  exact .bind (.require _) fun _ => .bind (h.keeps_usbgWriteString (below hs _)) fun _ =>
    h.keeps_usbgWriteString (below hs _)

/-! ### What the function types share -/

omit h in
lemma keeps_importTable {table : List Attr} {set : Attr → AttrVal → Io κ Unit} {root : Setting}
    (hset : ∀ a v, Keeps I (set a v)) : Keeps I (importTable table set root) := by
  refine .forEach fun a _ => .when fun _ => .bind (.ofExcept _) fun r => ?_
  cases r with
  | none => exact .pure _
  | some v => exact hset a v

omit h in
lemma keeps_setTable {table : List Attr} {set : Attr → AttrVal → Io κ Unit}
    {vals : List AttrVal} (hset : ∀ a v, Keeps I (set a v)) :
    Keeps I (setTable table set vals) :=
  .ite (fun _ => .forEach fun _ _ => .when fun _ => hset _ _) fun _ => .undef

omit h in
lemma keeps_logError {m : Io κ Unit} (hm : Keeps I m) : Keeps I (logError m) :=
  .bind (.attempt hm) fun _ => .pure _

section Paths

variable {path : Path} (hp : p <+: path)

include hp

lemma keeps_uvcLink {target from_ : Path} : Keeps I (uvcLink K path target from_) :=
  .bind (.require _) fun _ => .bind (.require _) fun _ => h.keeps_call (below hp _) False.elim

lemma keeps_uvcLinkFormat {format from_ : Path} : Keeps I (uvcLinkFormat K path format from_) := by
  refine .bind (.require _) fun _ => .bind (h.keeps_rawCall (below hp _) False.elim) fun r => ?_
  cases r with
  | ok _ => exact h.keeps_uvcLink hp
  | error e => exact .pure _

omit hp in
lemma keeps_removeDirContent (hu : Under p path) : Keeps I (removeDirContent K path) := by
  have hp : p <+: path := hu.prefix
  refine .bind (h.keeps_rawCall hp False.elim) fun r => ?_
  cases r with
  | ok ps => exact .forEach fun _ _ => h.keeps_tryCall (below hp _) fun _ => hu.below _
  | error e => exact .fail _

omit hp in
lemma keeps_removeDir (hu : Under p path) : Keeps I (removeDir K path) := by
  have hp : p <+: path := hu.prefix
  refine .bind (h.keeps_rawCall hp False.elim) fun r => ?_
  cases r with
  | ok ps => exact .forEach fun _ _ => h.keeps_tryCall (below hp _) fun _ => hu.below _
  | error e => exact .fail _

end Paths

end StableIn

namespace Stable

variable {I : World κ → Prop} {p : Path} (h : Stable K p I)

include h

/-! ### Removals -/

lemma keeps_call {c : Syscall} (hc : p <+: c.path) : Keeps I (call K c) := by
  intro w hw
  by_cases hr : c.Removes
  · exact h.atRemoval c w hc hr hw
  · exact h.atCall c w hc (absurd · hr) hw

lemma keeps_tryCall {c : Syscall} (hc : p <+: c.path) : Keeps I (tryCall K c) :=
  fun w hw => h.keeps_call hc w hw

lemma keeps_usbgRmFile {path : Path} {name : CStr} (hp : p <+: path ++ [name]) :
    Keeps I (usbgRmFile K path name) :=
  .bind (.require _) fun _ => h.keeps_call hp

lemma keeps_usbgRmDir {path : Path} {name : CStr} (hp : p <+: path ++ [name]) :
    Keeps I (usbgRmDir K path name) :=
  .bind (.require _) fun _ => h.keeps_call hp

lemma keeps_usbgRmAllDirs {path : Path} (hp : p <+: path) : Keeps I (usbgRmAllDirs K path) :=
  .bind (h.keeps_scandir hp) fun _ => .forEach fun _ _ => h.keeps_usbgRmDir (Libusbgx.below hp _)

end Stable

namespace StableUpIn

variable {I : World κ → Prop} {p path : Path} (h : StableUpIn K p I) (hp : p <+: path)

include h hp

/-- Every directory on the way to a path is one on the way to `p`, or one below it. -/
lemma keeps_uvcCreateDir : Keeps I (uvcCreateDir K path) := by
  refine .bind (.require _) fun _ => .forEach fun q hq => .bind ?_ fun r => ?_
  · have hq : q <+: path := by
      have hq := (List.mem_inits ..).mp (List.mem_of_mem_tail hq)
      split at hq
      · exact hq.trans (List.dropLast_prefix _)
      · exact hq
    rcases List.prefix_or_prefix_of_prefix hq hp with hqp | hpq
    · exact fun w hw => h.atMkdir q w hqp hw
    · exact h.keeps_rawCall hpq False.elim
  · cases r with
    | ok _ => exact .pure _
    | error e => exact .require _

lemma keeps_uvcSetFrame {format : CStr} {attrs : UvcFrameAttrs} :
    Keeps I (uvcSetFrame K path format attrs) :=
  have hf : ∀ name, p <+: path ++ splitSlash format ++ [name] := fun _ => below (below hp _) _
  .bind (.require _) fun _ => .bind (.require _) fun _ =>
  .bind (h.keeps_uvcCreateDir (hf _)) fun _ =>
  .bind (h.keeps_usbgWriteDec (hf _)) fun _ => .bind (h.keeps_usbgWriteDec (hf _)) fun _ =>
  .bind (h.keeps_usbgWriteDec (hf _)) fun _ => .bind (h.keeps_usbgWriteDec (hf _)) fun _ =>
  .bind (h.keeps_usbgWriteDec (hf _)) fun _ => .bind (h.keeps_usbgWriteDec (hf _)) fun _ =>
  h.keeps_usbgWriteDec (hf _)

lemma keeps_uvcSetStreaming {attrs : UvcFormatAttrs} : Keeps I (uvcSetStreaming K path attrs) :=
  .bind (.require _) fun _ =>
  .bind (.forEach fun _ _ => StableIn.keeps_logError (h.keeps_uvcSetFrame (below hp _))) fun _ =>
  h.keeps_usbgWriteDec (below (below (below hp _) _) _)

end StableUpIn

/-! ## With an object at hand -/

/-- A property of the world and one of the object. -/
def With (I : World κ → Prop) (P : τ → Prop) (s : World κ × τ) : Prop := I s.1 ∧ P s.2

section Object

variable {I : World κ → Prop} {P : τ → Prop}

lemma keeps_io {m : Io κ α} (hm : Keeps I m) : Keeps (With I P) (io m) :=
  fun s hs => ⟨hm s.1 hs.1, hs.2⟩

lemma keeps_self : Keeps (With I P) (self : On κ τ τ) := fun _ hs => hs

/-- The object at hand has the property. -/
lemma keeps_self_bind {k : τ → On κ τ β} (hk : ∀ t, P t → Keeps (With I P) (k t)) :
    Keeps (With I P) (self >>= k) :=
  fun s hs => hk s.2 hs.2 s hs

lemma keeps_update {f : τ → τ} (hf : ∀ t, P t → P (f t)) :
    Keeps (With I P) (update f : On κ τ Unit) :=
  fun _ hs => ⟨hs.1, hf _ hs.2⟩

end Object

/-! ## Functions -/

/-- What the operations of a function type leave alone. -/
structure Func.Core where
  addr : Addr
  name : CStr
  path : Path
  inst : CStr
  label : Option CStr
  type : FunctionType

/-- The members of a function that its operations leave alone. -/
def Func.core (f : Func) : Func.Core :=
  { addr := f.addr, name := f.name, path := f.path, inst := f.inst, label := f.label,
    type := f.type }

/-- A property of the world, and the core of a function. -/
abbrev OnCore (I : World κ → Prop) (c : Func.Core) : World κ × Func → Prop :=
  With I fun f => f.core = c

/-- The directory of a function. -/
def Func.Core.dir (c : Func.Core) : Path := c.path ++ [c.name]

/-- The directory of a function is where its core says. -/
lemma below_dir {p : Path} {c : Func.Core} {f : Func} (hp : p <+: c.dir) (hf : f.core = c) :
    p <+: f.path ++ [f.name] := by
  subst hf
  exact hp

/-- A unit is in the directory of its function. -/
lemma under_lunPath {p : Path} {c : Func.Core} {f : Func} {id : ℤ} (hp : p <+: c.dir) (hf : f.core = c) :
    Under p (lunPath f id) := by
  have hname : lunDir id ≠ [] := by simp [lunDir]
  have := Under.of_below (below_dir hp hf) hname [[]]
  rwa [List.append_assoc] at this

namespace StableIn

variable {I : World κ → Prop} {p : Path} (h : StableIn K p I) {c : Func.Core} (hp : p <+: c.dir)

include h hp

/-! ### Mass storage -/

lemma keeps_initLuns : Keeps (OnCore I c) (initLuns K) := by
  refine keeps_self_bind fun f hf => .bind (.require _) fun _ =>
    .bind (keeps_io (h.keeps_call (below_cons (below_dir hp hf) _) False.elim)) fun ds => .forEach fun d _ => ?_
  cases scanIndex "lun.".toList d.name with
  | mismatch => exact .pure _
  | eof => exact .undef
  | index id => exact .ite (fun _ => keeps_update fun _ hf => hf) (fun _ => .undef)

lemma keeps_getLunMask : Keeps (OnCore I c) (getLunMask K) := by
  refine .bind keeps_self fun f => .bind ?_ fun _ => .bind keeps_self fun _ => .pure _
  refine .when fun _ => .bind (.attempt (h.keeps_initLuns hp)) fun r => ?_
  cases r with
  | ok _ => exact keeps_update fun _ hf => hf
  | error e => exact .pure _

lemma keeps_usbgFMsSetStall {stall : Bool} : Keeps (OnCore I c) (usbgFMsSetStall K stall) :=
  keeps_self_bind fun _ hf => keeps_io (h.keeps_usbgWriteBool (below_dir hp hf))

lemma keeps_usbgFMsSetLunAttrVal {id : ℤ} {a : Attr} {v : AttrVal} :
    Keeps (OnCore I c) (usbgFMsSetLunAttrVal K id a v) :=
  keeps_self_bind fun _ hf => .bind (.require _) fun _ =>
    keeps_io (h.keeps_set (below (below_cons (below_dir hp hf) _) _))

lemma keeps_usbgFMsSetLunAttrs {id : ℤ} {attrs : MsLunAttrs} :
    Keeps (OnCore I c) (usbgFMsSetLunAttrs K id attrs) :=
  .ite (fun _ => .forEach fun _ _ => h.keeps_usbgFMsSetLunAttrVal hp) fun _ => .undef

lemma keeps_usbgFMsCreateLun {id : ℤ} {attrs : Option MsLunAttrs} :
    Keeps (OnCore I c) (usbgFMsCreateLun K id attrs) :=
  .bind (.require _) fun _ => .bind (h.keeps_getLunMask hp) fun _ =>
    .ite (fun _ => .undef) fun _ => .bind (.require _) fun _ => keeps_self_bind fun f hf =>
    have hd : p <+: lunPath f id := below_cons (below_dir hp hf) _
    .bind (.require _) fun _ => .bind (keeps_io (h.keeps_call hd False.elim)) fun _ =>
    .bind (.whenSome fun _ _ =>
      .onFail (h.keeps_usbgFMsSetLunAttrs hp) (keeps_io (h.keeps_tryCall hd fun _ => under_lunPath hp hf))) fun _ =>
    keeps_update fun _ hf => hf

lemma keeps_usbgFMsRmLun {id : ℤ} : Keeps (OnCore I c) (usbgFMsRmLun K id) :=
  .bind (.require _) fun _ => .bind (h.keeps_getLunMask hp) fun _ =>
  .ite (fun _ => .undef) fun _ => .bind (.require _) fun _ => keeps_self_bind fun _ hf =>
  .bind (.require _) fun _ =>
  .bind (keeps_io (h.keeps_call (below_cons (below_dir hp hf) _) fun _ => under_lunPath hp hf)) fun _ =>
  keeps_update fun _ hf => hf

lemma keeps_msSetAttrsRound {attrs : MsAttrs} {toBe : List ℤ} {i : ℕ} :
    Keeps (OnCore I c) (msSetAttrsRound K attrs toBe i) :=
  .bind keeps_self fun _ => .ite
    (fun _ => .ite (fun _ => .bind (.deref _) fun _ => .bind (.deref _) fun _ =>
      h.keeps_usbgFMsSetLunAttrs hp) fun _ => h.keeps_usbgFMsRmLun hp)
    fun _ => .when fun _ => .bind (.deref _) fun _ => h.keeps_usbgFMsCreateLun hp

lemma keeps_msCleanupRound {toBe : List ℤ} {i : ℕ} :
    Keeps (OnCore I c) (msCleanupRound K toBe i) :=
  .bind keeps_self fun _ =>
    .when fun _ => .bind (.attempt (h.keeps_usbgFMsRmLun hp)) fun _ => .pure _

lemma keeps_msSetAttrsLoop {attrs : MsAttrs} {toBe : List ℤ} {todo : List ℕ} :
    ∀ done, Keeps (OnCore I c) (msSetAttrsLoop K attrs toBe done todo) := by
  induction todo with
  | nil => exact fun _ => .pure _
  | cons i todo ih =>
    exact fun done => .bind (.onFail (h.keeps_msSetAttrsRound hp)
      (.forEach fun _ _ => h.keeps_msCleanupRound hp)) fun _ => ih _

lemma keeps_msSetAttrs {attrs : FunctionAttrs} : Keeps (OnCore I c) (msSetAttrs K attrs) := by
  cases attrs with
  | ms attrs =>
    exact .bind (h.keeps_usbgFMsSetStall hp) fun _ => .bind (h.keeps_getLunMask hp) fun _ =>
      .bind (h.keeps_getLunMask hp) fun _ => .bind (.deref _) fun _ => h.keeps_msSetAttrsLoop hp _
  | portNum | name | table | uvc => exact .undef

lemma keeps_msImportLunAttrs {id : ℤ} {root : Setting} :
    Keeps (OnCore I c) (msImportLunAttrs K id root) := by
  refine .forEach fun a _ => .bind (.ofExcept _) fun r => ?_
  cases r with
  | none => exact .pure _
  | some v => exact h.keeps_usbgFMsSetLunAttrVal hp

lemma keeps_msImportLun {i : ℕ} {node : Setting} : Keeps (OnCore I c) (msImportLun K i node) :=
  .bind (.require _) fun _ => .bind keeps_self fun _ =>
  .bind (.ite (fun _ => .undef) fun _ => .when fun _ => h.keeps_usbgFMsCreateLun hp)
    fun _ => h.keeps_msImportLunAttrs hp

lemma keeps_msLibconfigImport {root : Setting} :
    Keeps (OnCore I c) (msLibconfigImport K root) := by
  refine .bind (.ofExcept _) fun stall =>
    .bind (.whenSome fun _ _ => h.keeps_usbgFMsSetStall hp) fun _ => ?_
  cases root.getMember "luns".toList with
  | none => exact .fail _
  | some node =>
    exact .bind (.require _) fun _ => .bind (h.keeps_getLunMask hp) fun _ =>
      .forEach fun _ _ => h.keeps_msImportLun hp

lemma keeps_msRemove {opts : RmOpts} : Keeps (OnCore I c) (msRemove K opts) :=
  .bind (h.keeps_getLunMask hp) fun _ => .forEach fun _ _ => .bind keeps_self fun _ =>
    .when fun _ => h.keeps_usbgFMsRmLun hp

/-! ### Video -/

omit h in
lemma below_uvcFormatPath {f : Func} {format : Path} (hf : f.core = c) :
    p <+: uvcFormatPath f format :=
  below (below (below_cons (below_dir hp hf) _) _) _

omit h in
lemma below_uvcFramePath {f : Func} {format : Path} {id : ℤ} (hf : f.core = c) :
    p <+: uvcFramePath f format id :=
  below (below (below_cons (below_dir hp hf) _) _) _

lemma keeps_initFrames {j : ℕ} {format : Path} : Keeps (OnCore I c) (initFrames K j format) := by
  refine keeps_self_bind fun f hf => .bind (.require _) fun _ =>
    .bind (keeps_io (h.keeps_call (StableIn.below_uvcFormatPath hp hf) False.elim)) fun ds => .forEach fun d _ => ?_
  cases scanIndex "frame.".toList d.name with
  | mismatch => exact .pure _
  | eof => exact .undef
  | index id => exact .ite (fun _ => keeps_update fun _ hf => hf) (fun _ => .undef)

lemma keeps_getFormatsMask : Keeps (OnCore I c) (getFormatsMask K) := by
  refine .bind keeps_self fun f => .when fun _ =>
    .bind (keeps_update fun _ hf => hf) fun _ => .forEach fun jf _ =>
    .bind (.attempt (h.keeps_initFrames hp)) fun r => ?_
  cases r with
  | ok _ => exact .pure _
  | error e => exact keeps_update fun _ hf => hf

lemma keeps_uvcRemove {opts : RmOpts} : Keeps (OnCore I c) (uvcRemove K opts) :=
  keeps_self_bind fun _ hf =>
    have hs : ∀ name : CStr, name ≠ [] → Under p (_ ++ [name]) := fun name hname =>
      Under.of_below (below_dir hp hf) hname []
    have hstreaming := hs uvcPathStreaming (by decide)
    have hcontrol := hs uvcPathControl (by decide)
    keeps_io (.bind (.require _) fun _ => .bind (.require _) fun _ => .bind (.require _) fun _ =>
      .bind (h.keeps_removeDirContent hstreaming) fun _ => .bind (h.keeps_removeDirContent hcontrol) fun _ =>
      .bind (h.keeps_removeDir hstreaming) fun _ => h.keeps_removeDir hcontrol)

/-! ### Tables -/

lemma keeps_tableSetAttrs {table : List Attr} {attrs : FunctionAttrs} :
    Keeps (OnCore I c) (tableSetAttrs K table attrs) := by
  refine keeps_self_bind fun f hf => ?_
  cases attrs with
  | table vals => exact keeps_io (keeps_setTable fun _ _ => h.keeps_set (below_dir hp hf))
  | portNum | name | ms | uvc => exact .undef

lemma keeps_tableImport {table : List Attr} {root : Setting} :
    Keeps (OnCore I c) (tableImport K table root) :=
  keeps_self_bind fun _ hf =>
    keeps_io (StableIn.keeps_importTable fun _ _ => h.keeps_set (below_dir hp hf))

lemma keeps_etherSetAttrs {attrs : FunctionAttrs} :
    Keeps (OnCore I c) (etherSetAttrs K attrs) := by
  rw [etherSetAttrs.eq_def]
  split
  · exact .bind (.require _) fun _ => h.keeps_tableSetAttrs hp
  · exact .undef

lemma keeps_loopbackLibconfigImport {root : Setting} :
    Keeps (OnCore I c) (loopbackLibconfigImport K root) := by
  refine keeps_self_bind fun f hf => keeps_io (.forEach fun a _ => ?_)
  cases root.getMember a.name with
  | none => exact .pure _
  | some node => exact .bind (.require _) fun _ => h.keeps_set (below_dir hp hf)

omit h hp in
lemma keeps_serialSetAttrs {attrs : FunctionAttrs} :
    Keeps (OnCore I c) (serialSetAttrs attrs : On κ Func Unit) := by
  cases attrs with
  | portNum n => exact .require _
  | name | table | ms | uvc => exact .undef

omit h hp in
lemma keeps_nameSetAttrs {attrs : FunctionAttrs} :
    Keeps (OnCore I c) (nameSetAttrs attrs : On κ Func Unit) := by
  cases attrs with
  | name s => exact .require _
  | portNum | table | ms | uvc => exact .undef

end StableIn

namespace StableUpIn

variable {I : World κ → Prop} {p : Path} (h : StableUpIn K p I) {c : Func.Core} (hp : p <+: c.dir)

include h hp

lemma keeps_uvcSetClass {cs : CStr} : Keeps (OnCore I c) (uvcSetClass K cs) :=
  keeps_self_bind fun f hf =>
    have hd : p <+: f.path ++ [f.name, cs] := below_cons (below_dir hp hf) _
    keeps_io (.bind (.require _) fun _ => .bind (.require _) fun _ =>
      .bind (h.keeps_uvcCreateDir (below hd _)) fun _ => .bind
        (.when fun _ => .bind (h.keeps_uvcLinkFormat hd) fun _ =>
          .bind (h.keeps_uvcLinkFormat hd) fun _ => h.keeps_uvcLink hd)
      fun _ => .bind (h.keeps_uvcLink hd) fun _ => h.keeps_uvcLink hd)

lemma keeps_uvcImportFrame {format : Path} {j i : ℕ} {node : Setting} :
    Keeps (OnCore I c) (uvcImportFrame K format j i node) :=
  .bind (.require _) fun _ => keeps_self_bind fun _ hf => .bind (.deref _) fun _ =>
    .bind (.ite (fun _ => .undef) fun _ => .when fun _ => keeps_self_bind fun _ hf =>
      .bind (.require _) fun _ =>
      .bind (keeps_io (h.keeps_uvcCreateDir (StableIn.below_uvcFramePath hp hf))) fun _ =>
      keeps_update fun _ hf => hf) fun _ =>
    keeps_io (StableIn.keeps_importTable fun _ _ => .bind (.require _) fun _ =>
      h.keeps_set (below (StableIn.below_uvcFramePath hp hf) _))

lemma keeps_uvcImportFormat {format : Path} {j : ℕ} {root : Setting} :
    Keeps (OnCore I c) (uvcImportFormat K format j root) := by
  rw [uvcImportFormat]
  cases root.getMember "frames".toList with
  | none => exact .fail _
  | some node => exact .bind (.require _) fun _ => .forEach fun _ _ => h.keeps_uvcImportFrame hp

lemma keeps_uvcImportConfig {root : Setting} : Keeps (OnCore I c) (uvcImportConfig K root) := by
  rw [uvcImportConfig]
  cases root.getMember "config".toList with
  | none => exact .fail _
  | some node =>
    exact .bind (.require _) fun _ => keeps_self_bind fun _ hf =>
      keeps_io (StableIn.keeps_importTable fun _ _ => .bind (.require _) fun _ =>
        h.keeps_set (below (below_cons (below_dir hp hf) _) _))

lemma keeps_uvcLibconfigImport {root : Setting} :
    Keeps (OnCore I c) (uvcLibconfigImport K root) := by
  rw [uvcLibconfigImport]
  cases root.getMember "formats".toList with
  | none => exact .fail _
  | some node =>
    refine .bind (.require _) fun _ => .bind (h.keeps_getFormatsMask hp) fun _ =>
      .bind (.forEach fun _ _ => ?_) fun _ => .bind (h.keeps_uvcImportConfig hp) fun _ =>
      .bind (h.keeps_uvcSetClass hp) fun _ => h.keeps_uvcSetClass hp
    exact .bind (.require _) fun _ => .bind (.require _) fun _ =>
      .bind (h.keeps_uvcImportFormat hp) fun _ => keeps_self_bind fun _ hf =>
      keeps_io (StableIn.keeps_importTable fun _ _ => .bind (.require _) fun _ =>
        h.keeps_set (below (StableIn.below_uvcFormatPath hp hf) _))

lemma keeps_uvcSetAttrs {attrs : FunctionAttrs} : Keeps (OnCore I c) (uvcSetAttrs K attrs) := by
  cases attrs with
  | uvc formats =>
    exact keeps_self_bind fun _ hf => .bind (.require _) fun _ =>
      .bind (keeps_io (.forEach fun _ _ =>
        StableIn.keeps_logError (h.keeps_uvcSetStreaming (below_dir hp hf)))) fun _ =>
      .bind (h.keeps_uvcSetClass hp) fun _ => h.keeps_uvcSetClass hp
  | portNum | name | table | ms => exact .undef

end StableUpIn

/-- The operations of a table work below the directory of the function, and change only what a
function keeps for itself. -/
structure OpsStable (K : Kernel κ) (ops : FunctionType → FunctionOps κ) : Prop where
  remove : ∀ {p I}, StableUpIn K p I → ∀ c : Func.Core, p <+: c.dir → ∀ t r opts,
    (ops t).remove = some r → Keeps (OnCore I c) (r opts)
  setAttrs : ∀ {p I}, StableUpIn K p I → ∀ c : Func.Core, p <+: c.dir → ∀ t r a,
    (ops t).setAttrs = some r → Keeps (OnCore I c) (r a)
  imprt : ∀ {p I}, StableUpIn K p I → ∀ c : Func.Core, p <+: c.dir → ∀ t r n,
    (ops t).imprt = some r → Keeps (OnCore I c) (r n)

lemma functionOps_stable (K : Kernel κ) : OpsStable K (functionOps K) where
  remove h c hp t r opts ht := by
    cases t <;> cases ht <;> first | exact h.keeps_msRemove hp | exact h.keeps_uvcRemove hp
  setAttrs h c hp t r a ht := by
    cases t <;> cases ht <;>
      first
      | exact StableIn.keeps_serialSetAttrs
      | exact StableIn.keeps_nameSetAttrs
      | exact h.keeps_etherSetAttrs hp
      | exact h.keeps_tableSetAttrs hp
      | exact h.keeps_msSetAttrs hp
      | exact h.keeps_uvcSetAttrs hp
  imprt h c hp t r n ht := by
    cases t <;> cases ht <;>
      first
      | exact .pure _
      | exact h.keeps_tableImport hp
      | exact h.keeps_loopbackLibconfigImport hp
      | exact h.keeps_msLibconfigImport hp
      | exact h.keeps_uvcLibconfigImport hp

/-! ## Configurations and gadgets -/

/-- A part of an object that is found by address: the world goes on, and the part is put back. -/
lemma keeps_part {ρ : Type} {I : World κ → Prop} {P : τ → Prop} (look : τ → Option ρ)
    (put : ρ → τ → τ) (Q : ρ → ρ → Prop) {m : On κ ρ α} (hm : ∀ r, Keeps (With I (Q r)) m) (hQ : ∀ r, Q r r)
    (hput : ∀ t r r', look t = some r → P t → Q r r' → P (put r' t)) :
    Keeps (With I P) (zoom (fun s => (look s.2).map (s.1, ·)) (fun t s => (t.1, put t.2 s.2)) m) := by
  intro s hs
  cases hl : look s.2 with
  | none =>
    rw [zoom_none (by rw [hl]; rfl)]
    exact hs
  | some r =>
    rw [zoom_some (by rw [hl]; rfl)]
    have h := hm r (s.1, r) ⟨hs.1, hQ r⟩
    exact ⟨h.1, hput _ _ _ hl hs.2 h.2⟩

/-- What changes to the lists of a gadget leave alone. -/
structure Gadget.Core where
  addr : Addr
  name : CStr
  path : Path
  udc : Option Addr

/-- The members of a gadget that changes to its lists leave alone. -/
def Gadget.core (g : Gadget) : Gadget.Core :=
  { addr := g.addr, name := g.name, path := g.path, udc := g.udc }

/-- A property of the world, and the core of a gadget. -/
abbrev OnGadgetCore (I : World κ → Prop) (c : Gadget.Core) : World κ × Gadget → Prop :=
  With I fun g => g.core = c

/-- What changes to its bindings leave alone of a configuration. -/
structure Config.Core where
  addr : Addr
  name : CStr
  path : Path
  label : CStr
  id : ℤ

/-- The members of a configuration that changes to its bindings leave alone. -/
def Config.core (c : Config) : Config.Core :=
  { addr := c.addr, name := c.name, path := c.path, label := c.label, id := c.id }

/-- The links of a configuration are below `p`. -/
def BindingsBelow (p : Path) (c : Config) : Prop := ∀ b ∈ c.bindings, p <+: b.path ++ [b.name]

/-- The configurations of the gadgets with the property `P` are below `p`, and `P` does not depend
on their bindings as long as these are below `p`. -/
structure ConfigsBelow (p : Path) (P : Gadget → Prop) : Prop where
  config : ∀ g, P g → ∀ c ∈ g.configs, p <+: c.path ++ [c.name] ∧ BindingsBelow p c
  put : ∀ g a c c', P g → g.config? a = some c → c'.core = c.core → BindingsBelow p c' →
    P (g.setConfig c')

/-- A gadget keeps its core whatever happens to its configurations. -/
lemma configsBelow_core (c : Gadget.Core) : ConfigsBelow [] fun g => g.core = c where
  config _ _ _ _ := ⟨List.nil_prefix, fun _ _ => List.nil_prefix⟩
  put _ _ _ _ hg _ _ _ := hg

namespace Stable

variable {I : World κ → Prop} {p : Path} (h : Stable K p I) {P : Gadget → Prop}

include h

/-! ### Bindings -/

lemma keeps_usbgRmBinding {b : Binding} {P : Config → Prop} (hb : p <+: b.path ++ [b.name])
    (hP : ∀ c, P c → P { c with bindings := c.bindings.erase b }) :
    Keeps (With I P) (usbgRmBinding K b) :=
  .bind keeps_self fun _ => .ite (fun _ => .bind (keeps_io (h.keeps_usbgRmFile hb)) fun _ =>
    keeps_update hP) fun _ => .undef

lemma keeps_usbgRmBinding_core {b : Binding} {k : Config.Core} (hb : p <+: b.path ++ [b.name]) :
    Keeps (With I fun c => c.core = k ∧ BindingsBelow p c) (usbgRmBinding K b) :=
  h.keeps_usbgRmBinding hb fun _ hc => ⟨hc.1, fun b' hb' => hc.2 b' (List.mem_of_mem_erase hb')⟩

lemma keeps_rmAllBindings {k : Config.Core} :
    Keeps (With I fun c => c.core = k ∧ BindingsBelow p c) (rmAllBindings K) :=
  keeps_self_bind fun _ hc => .forEach fun b hb => h.keeps_usbgRmBinding_core (hc.2 b hb)

lemma keeps_rmBindingsTo {k : Config.Core} {f : Addr} :
    Keeps (With I fun c => c.core = k ∧ BindingsBelow p c) (rmBindingsTo K f) :=
  keeps_self_bind fun _ hc => .forEach fun b hb =>
    h.keeps_usbgRmBinding_core (hc.2 b (List.mem_of_mem_filter hb))

omit h in
lemma keeps_onConfig (hP : ConfigsBelow p P) {a : Addr} {m : On κ Config α}
    (hm : ∀ k, Keeps (With I fun c => c.core = k ∧ BindingsBelow p c) m) :
    Keeps (With I P) (onConfig a m) := by
  intro s hs
  cases hc : s.2.config? a with
  | none =>
    rw [onConfig, zoom_none (by rw [hc]; rfl)]
    exact hs
  | some c =>
    rw [onConfig, zoom_some (by rw [hc]; rfl)]
    have hc' := hm c.core (s.1, c) ⟨hs.1, rfl, (hP.config _ hs.2 c (List.mem_of_find?_eq_some hc)).2⟩
    exact ⟨hc'.1, hP.put _ a c _ hs.2 hc hc'.2.1 hc'.2.2⟩

/-! ### The OS descriptor link -/

lemma keeps_usbgRmOsDescLink (hp : ∀ g, P g → p <+: g.path ++ [g.name]) :
    Keeps (With I P) (usbgRmOsDescLink K) := by
  refine keeps_self_bind fun g hg => .bind (.require _) fun _ =>
    .bind (keeps_io (h.keeps_scandir (below_cons (hp g hg) _))) fun names => ?_
  cases names with
  | nil => exact .fail _
  | cons name _ => exact keeps_io (h.keeps_usbgRmFile (below (below_cons (hp g hg) _) _))

/-! ### Configurations -/

lemma keeps_rmConfigContent (hP : ConfigsBelow p P) {c : Config} (hc : p <+: c.path ++ [c.name])
    (hos : (∃ g, P g ∧ g.osDescBinding = some c.addr) → ∀ g, P g → p <+: g.path ++ [g.name]) :
    Keeps (With I P) (rmConfigContent K c) :=
  keeps_self_bind fun g hg =>
    .bind (.when fun ho => h.keeps_usbgRmOsDescLink (hos ⟨g, hg, ho⟩)) fun _ =>
    .bind (keeps_onConfig hP fun _ => h.keeps_rmAllBindings) fun _ => .bind (.require _) fun _ =>
    keeps_io (h.keeps_usbgRmAllDirs (below_cons hc _))

lemma keeps_usbgRmConfig (hP : ConfigsBelow p P)
    (hdrop : ∀ g a, P g → P { g with configs := g.configs.filter (·.addr ≠ a) })
    (hos : ∀ g, P g → p <+: g.path ++ [g.name]) {a : Addr} {opts : RmOpts} :
    Keeps (With I P) (usbgRmConfig K a opts) :=
  keeps_self_bind fun g hg => .deref_bind fun c hc =>
    have hc := (hP.config g hg c (List.mem_of_find?_eq_some hc)).1
    .bind (.when fun _ => h.keeps_rmConfigContent hP hc fun _ => hos) fun _ =>
    .bind (keeps_io (h.keeps_usbgRmDir hc)) fun _ => keeps_update fun g hg => hdrop g a hg

end Stable

/-! ### Functions -/

/-- The functions of the gadgets with the property `P` are below `p`, and `P` does not depend on
what their operations change. -/
structure FunctionsBelow (p : Path) (P : Gadget → Prop) : Prop where
  function : ∀ g, P g → ∀ f ∈ g.functions, p <+: f.path ++ [f.name]
  put : ∀ g a f f', P g → g.function? a = some f → f'.core = f.core → P (g.setFunction f')

/-- A gadget keeps its core whatever happens to its functions. -/
lemma functionsBelow_core (c : Gadget.Core) : FunctionsBelow [] fun g => g.core = c where
  function _ _ _ _ := List.nil_prefix
  put _ _ _ _ hg _ _ := hg

lemma keeps_onFunction {I : World κ → Prop} {p : Path} {P : Gadget → Prop}
    (hP : FunctionsBelow p P) {a : Addr} {m : On κ Func α}
    (hm : ∀ k : Func.Core, p <+: k.dir → Keeps (OnCore I k) m) :
    Keeps (With I P) (onFunction a m) := by
  intro s hs
  cases hf : s.2.function? a with
  | none =>
    rw [onFunction, zoom_none (by rw [hf]; rfl)]
    exact hs
  | some f =>
    rw [onFunction, zoom_some (by rw [hf]; rfl)]
    have hd := hP.function _ hs.2 f (List.mem_of_find?_eq_some hf)
    have hf' := hm f.core hd (s.1, f) ⟨hs.1, rfl⟩
    exact ⟨hf'.1, hP.put _ a f _ hs.2 hf hf'.2⟩

namespace StableUp

variable {I : World κ → Prop} {p : Path} (h : StableUp K p I) {P : Gadget → Prop}
  {ops : FunctionType → FunctionOps κ} (hops : OpsStable K ops)

include h hops

lemma keeps_usbgRmFunction (hC : ConfigsBelow p P) (hF : FunctionsBelow p P)
    (hdrop : ∀ g a, P g → P { g with functions := g.functions.filter (·.addr ≠ a) }) {a : Addr}
    {opts : RmOpts} : Keeps (With I P) (usbgRmFunction K ops a opts) :=
  keeps_self_bind fun g hg => .deref_bind fun f hf =>
    .bind (.when fun _ => .forEach fun _ _ =>
      Stable.keeps_onConfig hC fun _ => h.keeps_rmBindingsTo) fun _ =>
    .bind (.whenSome fun r hr => keeps_onFunction hF fun k hk => hops.remove h.toStableUpIn k hk _ r opts hr)
      fun _ =>
    .bind (keeps_io (h.keeps_usbgRmDir (hF.function g hg f (List.mem_of_find?_eq_some hf))))
      fun _ => keeps_update fun g hg => hdrop g a hg

end StableUp

/-! ### Gadgets -/

lemma StableUp.keeps_rmGadgetContent {I : World κ → Prop} (h : StableUp K [] I)
    {ops : FunctionType → FunctionOps κ} (hops : OpsStable K ops) {c : Gadget.Core} :
    Keeps (With I fun g => g.core = c) (rmGadgetContent K ops) :=
  .bind keeps_self fun _ => .bind (.forEach fun _ _ =>
      h.keeps_usbgRmConfig (configsBelow_core c) (fun _ _ hg => hg) fun _ _ => List.nil_prefix)
    fun _ => .bind keeps_self fun _ => .bind (.forEach fun _ _ =>
      h.keeps_usbgRmFunction hops (configsBelow_core c) (functionsBelow_core c) fun _ _ hg => hg)
    fun _ => .bind (.require _) fun _ => keeps_io (h.keeps_usbgRmAllDirs List.nil_prefix)

/-! ## Reading the tree -/

namespace StableIn

variable {I : World κ → Prop} (h : StableIn K [] I) {g : Gadget} {path : Path}

include h

lemma keeps_readlink {p : Path} : Keeps I (readlink K p) :=
  .bind (h.keeps_call List.nil_prefix False.elim) fun _ => .pure _

omit h in
lemma keeps_lastPart {target : CStr} : Keeps I (lastPart target : Io κ CStr) :=
  .bind (.deref _) fun _ => .pure _

lemma keeps_usbgParseConfigBinding {conf : Config} {name : CStr} :
    Keeps I (usbgParseConfigBinding K g conf name) := by
  refine .bind h.keeps_readlink fun _ => .bind keeps_lastPart fun _ => .bind (.ofExcept _) fun p => ?_
  obtain ⟨type, inst⟩ := p
  dsimp only
  cases usbgGetFunction g type inst with
  | none => exact .fail _
  | some f => exact .bind (.pure _) fun _ => .pure _

lemma keeps_usbgParseConfigBindings {conf : Config} : Keeps I (usbgParseConfigBindings K g conf) :=
  .bind (.require _) fun _ => .bind (h.keeps_scandir List.nil_prefix) fun _ =>
    .foldlM (fun _ _ _ => .bind (.require _) fun _ => h.keeps_usbgParseConfigBinding) conf

lemma keeps_usbgParseFunctions : Keeps I (usbgParseFunctions K path g) :=
  .bind (.require _) fun _ => .bind (h.keeps_scandir List.nil_prefix) fun _ =>
    .foldlM (fun _ _ _ => .bind (.ofExcept _) fun _ => .bind h.keeps_usbgAllocateFunction
      fun _ => .pure _) g

lemma keeps_usbgParseConfig {name : CStr} : Keeps I (usbgParseConfig K path name g) :=
  .bind (.ofExcept _) fun _ => .ite (fun _ => .pure _) fun _ =>
    .bind h.keeps_usbgAllocateConfig fun _ => .bind h.keeps_usbgParseConfigBindings fun _ =>
    .pure _

lemma keeps_usbgParseConfigs : Keeps I (usbgParseConfigs K path g) :=
  .bind (.require _) fun _ => .bind (h.keeps_scandir List.nil_prefix) fun _ =>
    .foldlM (fun _ _ _ => h.keeps_usbgParseConfig) g

lemma keeps_usbgParseGadgetOsDescBinding : Keeps I (usbgParseGadgetOsDescBinding K g) := by
  refine .bind (.require _) fun _ => .bind (h.keeps_scandir List.nil_prefix) fun names => ?_
  cases names with
  | nil => exact .pure _
  | cons name _ =>
    refine .bind (.require _) fun _ => .bind h.keeps_readlink fun _ => .bind keeps_lastPart fun _ =>
      .bind (.ofExcept _) fun p => .ite (fun _ => .pure _) fun _ => ?_
    cases usbgGetConfig g p.2 (some p.1) with
    | none => exact .fail _
    | some _ => exact .pure _

lemma keeps_parseGadgetContent : Keeps I (parseGadgetContent K g) :=
  .bind h.keeps_usbgParseFunctions fun _ => .bind h.keeps_usbgParseConfigs fun _ =>
    h.keeps_usbgParseGadgetOsDescBinding

end StableIn

section Core

variable {c : Gadget.Core} {path : Path} {g : Gadget}

/-- Parsing gives back the gadget with its lists filled. -/
lemma yields_usbgParseFunctions (hg : g.core = c) :
    Yields (fun g : Gadget => g.core = c) (usbgParseFunctions K path g) := by
  refine .bind' fun _ => .bind' fun _ => .foldlM (fun g' _ _ hg' => ?_) g hg
  exact .bind' fun _ => .bind' fun _ => .pure hg'

lemma yields_usbgParseConfigs (hg : g.core = c) :
    Yields (fun g : Gadget => g.core = c) (usbgParseConfigs K path g) := by
  refine .bind' fun _ => .bind' fun _ => .foldlM (fun g' _ _ hg' => ?_) g hg
  exact .bind' fun _ => .ite (fun _ => .pure hg') fun _ => .bind' fun _ => .bind' fun _ => .pure hg'

lemma yields_usbgParseGadgetOsDescBinding (hg : g.core = c) :
    Yields (fun g : Gadget => g.core = c) (usbgParseGadgetOsDescBinding K g) := by
  refine .bind' fun _ => .bind' fun names => ?_
  cases names with
  | nil => exact .pure hg
  | cons name _ =>
    refine .bind' fun _ => .bind' fun _ => .bind' fun _ => .bind' fun p => .ite (fun _ => .pure hg) fun _ => ?_
    cases usbgGetConfig g p.2 (some p.1) with
    | none => exact .fail _
    | some _ => exact .pure hg

lemma yields_parseGadgetContent :
    Yields (fun g' : Gadget => g'.core = g.core) (parseGadgetContent K g) :=
  .bind (yields_usbgParseFunctions rfl) fun _ h => .bind (yields_usbgParseConfigs h) fun _ h =>
    yields_usbgParseGadgetOsDescBinding h

end Core

end Libusbgx
