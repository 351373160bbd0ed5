import Libusbgx.Base.Prog
import Libusbgx.Source.Types
import Mathlib.Data.List.Sort

/-!
# The system calls

The library reaches configfs through the calls of `Syscall`.  What a call answers is up to a
`Kernel`: the parts of the library that are correct under any answers are verified over an
arbitrary one.  A read or write of a whole file, from `fopen` to `fclose`, is one call.
-/

namespace Libusbgx

/-- A directory entry: its name, and whether its `d_type` is `DT_LNK`. -/
structure Dirent where
  name : CStr
  isLink : Bool
deriving DecidableEq, Repr

/-- The calls of the library. -/
inductive Syscall where
  /-- `opendir` and `closedir` -/
  | opendir (p : Path)
  /-- the entries of a directory, in any order -/
  | scandir (p : Path)
  | readlink (p : Path)
  /-- the content of a file -/
  | read (p : Path)
  /-- write to a file, opened with `"w"` -/
  | write (p : Path) (data : CStr)
  | mkdir (p : Path)
  | rmdir (p : Path)
  | unlink (p : Path)
  | symlink (target p : Path)
  | stat (p : Path)
  /-- `nftw` with `FTW_DEPTH`: the paths under `p`, each after those below it -/
  | nftw (p : Path)
  /-- `remove` of the C library -/
  | remove (p : Path)
deriving DecidableEq, Repr

/-- The path a call is about: for `symlink`, that of the link. -/
def Syscall.path : Syscall → Path
  | .opendir p | .scandir p | .readlink p | .read p | .write p _ | .mkdir p | .rmdir p | .unlink p
  | .symlink _ p | .stat p | .nftw p | .remove p => p

/-- What a call gives back when it succeeds. -/
def Syscall.Ret : Syscall → Type
  | .scandir _ => List Dirent
  | .readlink _ => CStr
  | .read _ => CStr
  | .nftw _ => List Path
  | _ => Unit

/-- How the system answers calls.  `stale` are the bytes that happen to follow the part of a
buffer on the stack that a read has filled. -/
structure Kernel (κ : Type) where
  call : (c : Syscall) → κ → Except Errno c.Ret × κ
  stale : κ → CStr

/-- The state outside of the library's objects: that of the system, and the first address that
was not handed out yet. -/
structure World (κ : Type) where
  sys : κ
  next : Addr

/-- A function of the library that changes none of its objects. -/
abbrev Io (κ α : Type) : Type := Prog UsbgError (World κ) α

/-- A function of the library that changes an object of type `τ`. -/
abbrev On (κ τ α : Type) : Type := Prog UsbgError (World κ × τ) α

variable {κ τ α : Type} (K : Kernel κ)

/-- A call whose `errno` the caller looks at itself. -/
def rawCall (c : Syscall) : Io κ (Except Errno c.Ret) := fun w =>
  (.ok (K.call c w.sys).1, { w with sys := (K.call c w.sys).2 })

/-- A call whose error is passed through `usbg_translate_error`. -/
def call (c : Syscall) : Io κ c.Ret := fun w =>
  ((match (K.call c w.sys).1 with
    | .ok a => .ok a
    | .error e => .fail (usbgTranslateError e)), { w with sys := (K.call c w.sys).2 })

/-- A call whose result is ignored. -/
def tryCall (c : Syscall) : Io κ Unit := fun w =>
  (.ok (), { w with sys := (K.call c w.sys).2 })

/-- Allocate an object. -/
def malloc : Io κ Addr := fun w => (.ok w.next, { w with next := w.next + 1 })

/-- The bytes after the filled part of a buffer. -/
def staleBytes : Io κ CStr := fun w => (.ok (K.stale w.sys), w)

/-- Run a function that changes no object where an object is at hand. -/
def io (m : Io κ α) : On κ τ α :=
  Prog.zoom (fun s => some s.1) (fun w s => (w, s.2)) m

/-- The object at hand. -/
def self : On κ τ τ := fun s => (.ok s.2, s)

/-- Change the object at hand. -/
def update (f : τ → τ) : On κ τ Unit := Prog.modify fun s => (s.1, f s.2)

/-- Run a function on an object that is not part of any list yet.  When the function fails the
object is lost. -/
def withNew (t : τ) (m : On κ τ α) : Io κ (α × τ) := fun w =>
  match m (w, t) with
  | (.ok a, s) => (.ok (a, s.2), s.1)
  | (.fail e, s) => (.fail e, s.1)
  | (.undef, s) => (.undef, s.1)

/-! ### Computing a run -/

lemma call_eq (c : Syscall) : call K c = rawCall K c >>= fun r => Prog.ofExcept (r.mapError usbgTranslateError) := by
  funext w
  rw [call, Prog.bind_apply, rawCall]
  cases (K.call c w.sys).1 <;> rfl

/-- A call that the system has answered. -/
lemma call_of_ok {c : Syscall} {w : World κ} {a : c.Ret} (h : (K.call c w.sys).1 = .ok a) :
    call K c w = (.ok a, { w with sys := (K.call c w.sys).2 }) := by
  rw [call, h]

/-- A call that has failed. -/
lemma call_of_error {c : Syscall} {w : World κ} {e : Errno} (h : (K.call c w.sys).1 = .error e) :
    call K c w = (.fail (usbgTranslateError e), { w with sys := (K.call c w.sys).2 }) := by
  rw [call, h]

variable {β : Type}

lemma io_apply (m : Io κ α) (s : World κ × τ) : io m s = ((m s.1).1, ((m s.1).2, s.2)) := rfl

lemma io_onFail (m : Io κ α) (c : Io κ Unit) : (io (Prog.onFail m c) : On κ τ α) = Prog.onFail (io m) (io c) := by
  funext s
  rw [io_apply, Prog.onFail_apply, Prog.onFail_apply, io_apply]
  rcases m s.1 with ⟨_ | _ | _, w⟩ <;> rfl

@[simp] lemma self_apply (s : World κ × τ) : (self : On κ τ τ) s = (.ok s.2, s) := rfl

@[simp] lemma update_apply (f : τ → τ) (s : World κ × τ) :
    (update f : On κ τ Unit) s = (.ok (), (s.1, f s.2)) := rfl

@[simp] lemma self_bind_apply (k : τ → On κ τ β) (s : World κ × τ) :
    ((self : On κ τ τ) >>= k) s = k s.2 s := rfl

@[simp] lemma update_bind_apply (f : τ → τ) (k : Unit → On κ τ β) (s : World κ × τ) :
    ((update f : On κ τ Unit) >>= k) s = k () (s.1, f s.2) := rfl

@[simp] lemma malloc_bind_apply (k : Addr → Io κ β) (w : World κ) :
    (malloc >>= k) w = k w.next { w with next := w.next + 1 } := rfl

lemma io_ok {m : Io κ α} {s : World κ × τ} {a : α} {w : World κ} (h : m s.1 = (.ok a, w)) :
    io m s = (.ok a, (w, s.2)) := by
  rw [io_apply, h]

lemma io_fail {m : Io κ α} {s : World κ × τ} {e : UsbgError} {w : World κ}
    (h : m s.1 = (.fail e, w)) : io m s = (.fail e, (w, s.2)) := by
  rw [io_apply, h]

lemma io_undef {m : Io κ α} {s : World κ × τ} {w : World κ} (h : m s.1 = (.undef, w)) :
    io m s = (.undef, (w, s.2)) := by
  rw [io_apply, h]

/-- A program that only works on the world leaves the object at hand as it is. -/
lemma ends_io {Q : α → World κ × τ → Prop} {E : UsbgError → World κ × τ → Prop}
    {U : Prop} {m : Io κ α} {w : World κ} {t : τ}
    (h : Prog.Ends (fun a w => Q a (w, t)) (fun e w => E e (w, t)) U (m w)) :
    Prog.Ends Q E U (io m (w, t)) := by
  rw [io_apply]
  rcases hm : m w with ⟨_ | _ | _, w'⟩ <;> rw [hm] at h <;> exact h

/-- The same, with the run of the program. -/
lemma ends_io_run {Q : α → World κ × τ → Prop} {E : UsbgError → World κ × τ → Prop} {U : Prop} {m : Io κ α}
    {w : World κ} {t : τ} (hok : ∀ a w', m w = (.ok a, w') → Q a (w', t))
    (hfail : ∀ e w', m w = (.fail e, w') → E e (w', t)) (hundef : ∀ w', m w = (.undef, w') → U) :
    Prog.Ends Q E U (io m (w, t)) :=
  ends_io (.intro hok hfail hundef)

lemma withNew_eq_ok {t t' : τ} {m : On κ τ α} {w w' : World κ} {a : α} :
    withNew t m w = (.ok (a, t'), w') ↔ m (w, t) = (.ok a, (w', t')) := by
  rw [withNew]
  constructor
  · intro h
    rcases hm : m (w, t) with ⟨b | _ | _, u⟩
    · rw [hm] at h
      simp only [Prod.mk.injEq, Outcome.ok.injEq] at h
      obtain ⟨⟨rfl, rfl⟩, rfl⟩ := h
      rfl
    · rw [hm] at h
      simp at h
    · rw [hm] at h
      simp at h
  · intro h
    rw [h]

lemma ends_withNew {t : τ} {m : On κ τ α} {w : World κ} {Q : α × τ → World κ → Prop}
    {E : UsbgError → World κ → Prop} {U : Prop}
    (h : Prog.Ends (fun a s => Q (a, s.2) s.1) (fun e s => E e s.1) U (m (w, t))) :
    Prog.Ends Q E U (withNew t m w) := by
  rw [withNew]
  rcases hm : m (w, t) with ⟨_ | _ | _, u⟩ <;> rw [hm] at h <;> exact h

/-- `file_select` -/
def fileSelect (d : Dirent) : Bool := d.name ≠ ".".toList ∧ d.name ≠ "..".toList

/-- `bindings_select` -/
def bindingsSelect (d : Dirent) : Bool := d.isLink

/-- `scandir` with a filter and `alphasort`: the names of the selected entries. -/
def scandir (p : Path) (sel : Dirent → Bool) : Io κ (List CStr) := do
  let ds ← call K (.scandir p)
  pure ((ds.filter sel).map Dirent.name |>.insertionSort (· ≤ ·))

end Libusbgx
