import Libusbgx.Base.FileTree
import Libusbgx.Frame

/-!
# A kernel with a configfs tree

The system calls over an actual tree of directories, attribute files and links.  What the
kernel puts into a new directory is a parameter, and so is which calls it refuses for reasons
that the tree does not show; a refused call changes nothing.
-/

namespace Libusbgx

open Prog

/-- A configfs tree. -/
abbrev Tree : Type := FileTree CStr CStr

/-- The text of a path. -/
def Path.render (p : Path) : CStr := ['/'].intercalate p

/-- The path without empty names, which stand between two slashes or after the last one. -/
def Path.resolve : Path → Path
  | [] => []
  | a :: p => a :: p.filter (· ≠ [])

/-- A name that the file system gives to an entry of a directory: a C string, and one step of a path. -/
def ProperName (name : CStr) : Prop :=
  name ≠ [] ∧ name ≠ ".".toList ∧ name ≠ "..".toList ∧ '/' ∉ name ∧ '\x00' ∉ name

instance (name : CStr) : Decidable (ProperName name) := inferInstanceAs (Decidable (_ ∧ _))

/-- The kernel that answers the calls. -/
structure Machine where
  /-- what the kernel puts into a new directory: directories, and files with their contents -/
  groups : Path → List (Path × Option CStr)
  /-- the error of a call that the kernel refuses; calls are numbered from the first on -/
  fault : ℕ → Syscall → Option Errno
  /-- the bytes on the stack behind what a read has filled -/
  stale : ℕ → CStr

/-- The tree, and the calls made so far, the last one first. -/
structure Fs where
  tree : Tree
  log : List Syscall

/-- The error of a call that needs a directory. -/
def notDir : Option (Node CStr CStr) → Errno
  | none => .enoent
  | some _ => .enotdir

/-- The node for an entry of `groups`. -/
def groupNode : Option CStr → Node CStr CStr
  | none => .dir false
  | some content => .file content

namespace Machine

variable (M : Machine)

/-- The nodes that appear when a directory is made. -/
def newDir (p : Path) : List (Path × Node CStr CStr) :=
  (p, .dir true) :: (M.groups p).map fun e => (p ++ e.1, groupNode e.2)

/-- `opendir` -/
def opendir (T : Tree) (p : Path) : Except Errno Unit :=
  if T.IsDir p then .ok () else .error (notDir (T.get p))

/-- `scandir`, without the entries `.` and `..`, which every caller filters out -/
def readDir (T : Tree) (p : Path) : Except Errno (List Dirent) :=
  if T.IsDir p then .ok ((T.children p).map fun e => { name := e.1, isLink := e.2.isLink })
  else .error (notDir (T.get p))

/-- `readlink` -/
def readLink (T : Tree) (p : Path) : Except Errno CStr :=
  match T.get p with
  | some (.link text _) => .ok text
  | some _ => .error .einval
  | none => .error .enoent

/-- read a file -/
def readFile (T : Tree) (p : Path) : Except Errno CStr :=
  match T.get p with
  | some (.file content) => .ok content
  | some _ => .error .other
  | none => .error .enoent

/-- write a file; files cannot be created -/
def writeFile (T : Tree) (p : Path) (data : CStr) : Except Errno Tree :=
  match T.get p with
  | some (.file _) => .ok (T.replace p (.file data))
  | some _ => .error .other
  | none => .error .eacces

/-- `mkdir` -/
def mkdir (T : Tree) (p : Path) : Except Errno Tree :=
  if (T.get p).isSome then .error .eexist
  else if ¬ T.IsDir p.dropLast then .error (notDir (T.get p.dropLast))
  else if ¬ ProperName (p.getLastD []) then .error .einval
  else .ok (T.addAll (M.newDir p))

/-- `rmdir`: only directories that the user has made can be removed, and only when the user has
made nothing below them and no link points to them. -/
def rmdir (T : Tree) (p : Path) : Except Errno Tree :=
  match T.get p with
  | some (.dir made) =>
    if made = false then .error .eperm
    else if T.MadeBelow p then .error .enotempty
    else if T.Pinned p then .error .ebusy
    else .ok (T.prune p)
  | some _ => .error .enotdir
  | none => .error .enoent

/-- `unlink` -/
def unlink (T : Tree) (p : Path) : Except Errno Tree :=
  match T.get p with
  | some (.link _ _) => .ok (T.erase p)
  | some _ => .error .eperm
  | none => .error .enoent

/-- `symlink`: a link can only be made to a directory. -/
def symlink (T : Tree) (text : CStr) (target p : Path) : Except Errno Tree :=
  if (T.get p).isSome then .error .eexist
  else if ¬ T.IsDir p.dropLast then .error (notDir (T.get p.dropLast))
  else if ¬ ProperName (p.getLastD []) then .error .einval
  else if ¬ T.IsDir target then .error (notDir (T.get target))
  else .ok (T.add p (.link text target))

/-- `nftw` -/
def walk (T : Tree) (p : Path) : Except Errno (List Path) :=
  if (T.get p).isSome then
    .ok ((((T.entries.map Prod.fst).filter (p <+: ·)).map (·.drop p.length)).insertionSort
      (fun q r => r.length ≤ q.length))
  else .error .enoent

/-- `remove` -/
def remove (T : Tree) (p : Path) : Except Errno Tree :=
  match T.get p with
  | some (.dir _) => rmdir T p
  | _ => unlink T p

/-- What a call does when the kernel does not refuse it. -/
def exec : (c : Syscall) → Tree → Except Errno (c.Ret × Tree)
  | .opendir p, T => (opendir T p.resolve).map (·, T)
  | .scandir p, T => (readDir T p.resolve).map (·, T)
  | .readlink p, T => (readLink T p.resolve).map (·, T)
  | .read p, T => (readFile T p.resolve).map (·, T)
  | .write p data, T => (writeFile T p.resolve data).map ((), ·)
  | .mkdir p, T => (M.mkdir T p.resolve).map ((), ·)
  | .rmdir p, T => (rmdir T p.resolve).map ((), ·)
  | .unlink p, T => (unlink T p.resolve).map ((), ·)
  | .symlink target p, T => (symlink T target.render target.resolve p.resolve).map ((), ·)
  | .stat p, T => if (T.get p.resolve).isSome then .ok ((), T) else .error .enoent
  | .nftw p, T => (walk T p.resolve).map (·, T)
  | .remove p, T => (remove T p.resolve).map ((), ·)

/-- The kernel. -/
def kernel : Kernel Fs where
  call c fs :=
    match M.fault fs.log.length c with
    | some e => (.error e, { fs with log := c :: fs.log })
    | none =>
      match M.exec c fs.tree with
      | .error e => (.error e, { fs with log := c :: fs.log })
      | .ok (a, T) => (.ok a, { tree := T, log := c :: fs.log })
  stale fs := M.stale fs.log.length

end Machine

/-- The kernel refuses nothing. -/
def willing : Machine := { groups := fun _ => [], fault := fun _ _ => none, stale := fun _ => [] }

/-- A gadget of the file system at `/c`, as it is allocated. -/
def plainGadget : Gadget := .allocated 0 ["/c".toList, gadgetsDir] "g".toList

/-- A function of this gadget. -/
def plainFunc (type : FunctionType) : Func := .allocated 0 (plainGadget.dir ++ [functionsDir]) type "0".toList

end Libusbgx
