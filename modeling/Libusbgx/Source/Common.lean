import Libusbgx.Source.Kernel

/-!
# Reading and writing attributes

The helpers of `usbg_common.c`.  Each takes the directory in two parts, as its callers have
them, and the name of a file in it.
-/

namespace Libusbgx

open Prog

variable {κ : Type} (K : Kernel κ)

/-- `usbg_read_buf_limited` -/
def usbgReadBufLimited (path : Path) (name file : CStr) (len : ℕ) : Io κ CStr := do
  require (path ++ [name, file]).Fits .pathTooLong
  let content ← call K (.read (path ++ [name, file]))
  pure (content.take len)

/-- `usbg_read_buf` -/
def usbgReadBuf (path : Path) (name file : CStr) : Io κ CStr :=
  usbgReadBufLimited K path name file usbgMaxStrLength

/-- `usbg_read_int`: the buffer is not terminated, so `strtol` goes on into what follows. -/
def usbgReadInt (path : Path) (name file : CStr) (base : ℕ) : Io κ ℤ := do
  let buf ← usbgReadBuf K path name file
  let stale ← staleBytes K
  pure (toInt (strtol base (ofBuffer (buf ++ stale))).value)

/-- `usbg_read_dec` -/
def usbgReadDec (path : Path) (name file : CStr) : Io κ ℤ := usbgReadInt K path name file 10

/-- `usbg_read_hex` -/
def usbgReadHex (path : Path) (name file : CStr) : Io κ ℤ := usbgReadInt K path name file 16

/-- `usbg_read_bool` -/
def usbgReadBool (path : Path) (name file : CStr) : Io κ Bool := do
  let v ← usbgReadDec K path name file
  pure (v ≠ 0)

/-- `usbg_read_string_limited`, for a buffer of at least one byte -/
def usbgReadStringLimited (path : Path) (name file : CStr) (len : ℕ) : Io κ CStr := do
  let buf ← usbgReadBufLimited K path name file len
  pure (untilNewline (ofBuffer (buf.take (len - 1))))

/-- `usbg_read_string` -/
def usbgReadString (path : Path) (name file : CStr) : Io κ CStr :=
  usbgReadStringLimited K path name file usbgMaxStrLength

/-- `usbg_read_string_alloc` -/
def usbgReadStringAlloc (path : Path) (name file : CStr) : Io κ CStr :=
  usbgReadStringLimited K path name file usbgMaxFileSize

/-- `usbg_write_buf` -/
def usbgWriteBuf (path : Path) (name file buf : CStr) : Io κ Unit := do
  require (path ++ [name, file]).Fits .pathTooLong
  call K (.write (path ++ [name, file]) buf)

/-- `usbg_write_int` with the number already printed; no `int` takes the 256 characters at
which the function gives up. -/
def usbgWriteInt (path : Path) (name file str : CStr) : Io κ Unit :=
  usbgWriteBuf K path name file str

/-- `usbg_write_dec` -/
def usbgWriteDec (path : Path) (name file : CStr) (value : ℤ) : Io κ Unit :=
  usbgWriteInt K path name file (printDec value ++ ['\n'])

/-- `usbg_write_hex` -/
def usbgWriteHex (path : Path) (name file : CStr) (value : ℤ) : Io κ Unit :=
  usbgWriteInt K path name file ("0x".toList ++ printHex 0 value ++ ['\n'])

/-- `usbg_write_hex16` -/
def usbgWriteHex16 (path : Path) (name file : CStr) (value : ℤ) : Io κ Unit :=
  usbgWriteInt K path name file ("0x".toList ++ printHex 4 value ++ ['\n'])

/-- `usbg_write_hex8` -/
def usbgWriteHex8 (path : Path) (name file : CStr) (value : ℤ) : Io κ Unit :=
  usbgWriteInt K path name file ("0x".toList ++ printHex 2 value ++ ['\n'])

/-- `usbg_write_bool` -/
def usbgWriteBool (path : Path) (name file : CStr) (value : Bool) : Io κ Unit :=
  usbgWriteDec K path name file (if value then 1 else 0)

/-- `usbg_write_string`; `none` is the null pointer. -/
def usbgWriteString (path : Path) (name file : CStr) : Option CStr → Io κ Unit
  | none => fail .invalidParam
  | some buf => usbgWriteBuf K path name file buf

/-- `usbg_rm_file` -/
def usbgRmFile (path : Path) (name : CStr) : Io κ Unit := do
  require (path ++ [name]).Fits .pathTooLong
  call K (.unlink (path ++ [name]))

/-- `usbg_rm_dir` -/
def usbgRmDir (path : Path) (name : CStr) : Io κ Unit := do
  require (path ++ [name]).Fits .pathTooLong
  call K (.rmdir (path ++ [name]))

/-- `usbg_rm_all_dirs` -/
def usbgRmAllDirs (path : Path) : Io κ Unit := do
  let names ← scandir K path fileSelect
  forEach (usbgRmDir K path) names

/-- `usbg_check_dir` -/
def usbgCheckDir (path : Path) : Io κ Unit := do
  match ← rawCall K (.opendir path) with
  | .ok _ => pure ()
  | .error e =>
    if e = .enoent then call K (.mkdir path)
    else fail (usbgTranslateError e)

end Libusbgx
