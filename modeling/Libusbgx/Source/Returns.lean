import Libusbgx.Source.Function.Export
import Libusbgx.Source.Function.Uvc

/-!
# What the readers return

The readers of `usbg_common.c` once more, down to the numbers they return.  Here a file is opened and read in
two steps: `fopen` may fail, and the stream may break off before the end of the file.
-/

namespace Libusbgx

/-- The constants of `usbg_error` -/
def UsbgError.code : UsbgError → ℤ
  | .noMem => -1
  | .noAccess => -2
  | .invalidParam => -3
  | .notFound => -4
  | .io => -5
  | .exist => -6
  | .noDev => -7
  | .busy => -8
  | .notSupported => -9
  | .pathTooLong => -10
  | .invalidFormat => -11
  | .missingTag => -12
  | .invalidType => -13
  | .invalidValue => -14
  | .notEmpty => -15
  | .otherError => -99

/-- What `fopen` comes to: it fails, or `fread` can have the bytes of `content`, behind which is the end of
the file or, in a `broken` stream, an error. -/
inductive Stream where
  | refused (e : Errno)
  | opened (content : CStr) (broken : Bool)
deriving DecidableEq, Repr

/-- What the readers depend on: the files, the memory that is left, and the bytes that follow the part of a
buffer that a read has filled. -/
structure Surroundings where
  fopen : Path → Stream
  mem : Bool
  stale : CStr

namespace Raw

variable (S : Surroundings)

/-- `usbg_read_buf_limited`: the number it returns, and what it has put into the buffer. -/
def usbgReadBufLimited (path : Path) (name file : CStr) (len : ℕ) : ℤ × CStr :=
  if (path ++ [name, file]).Fits then
    match S.fopen (path ++ [name, file]) with
    | .refused e => ((usbgTranslateError e).code, [])
    | .opened content broken =>
      let buf := content.take len
      if buf.length < len ∧ broken then (UsbgError.io.code, buf) else (buf.length, buf)
  else (UsbgError.pathTooLong.code, [])

/-- `usbg_read_buf` -/
def usbgReadBuf (path : Path) (name file : CStr) : ℤ × CStr :=
  usbgReadBufLimited S path name file usbgMaxStrLength

/-- `usbg_read_int`; behind the number returned is what it has stored, if it has.  `strtol` always sets the
pointer that the code tests. -/
def usbgReadInt (path : Path) (name file : CStr) (base : ℕ) : ℤ × Option ℤ :=
  let (ret, buf) := usbgReadBuf S path name file
  if 0 ≤ ret then (0, some (toInt (strtol base (ofBuffer (buf ++ S.stale))).value)) else (ret, none)

/-- `usbg_read_dec` -/
def usbgReadDec (path : Path) (name file : CStr) : ℤ × Option ℤ := usbgReadInt S path name file 10

/-- `usbg_read_bool` -/
def usbgReadBool (path : Path) (name file : CStr) : ℤ × Option Bool :=
  let (ret, buf) := usbgReadDec S path name file
  if ret ≠ 0 then (ret, none) else (ret, buf.map fun v => decide (v ≠ 0))

/-- `usbg_read_string_limited`, for a buffer of at least one byte -/
def usbgReadStringLimited (path : Path) (name file : CStr) (len : ℕ) : ℤ × CStr :=
  let (ret, buf) := usbgReadBufLimited S path name file len
  if 0 ≤ ret then (0, untilNewline (ofBuffer (buf.take (if ret < len - 1 then ret.toNat else len - 1))))
  else (ret, [])

/-- `usbg_read_string_alloc` -/
def usbgReadStringAlloc (path : Path) (name file : CStr) : ℤ × Option CStr :=
  let (ret, buf) := usbgReadStringLimited S path name file usbgMaxFileSize
  if ret ≠ 0 then (ret, none) else if S.mem then (ret, some buf) else (UsbgError.noMem.code, none)

/-- `usbg_read_buf_alloc`, for a length of at most `usbgMaxFileSize`, that of its buffer -/
def usbgReadBufAlloc (path : Path) (name file : CStr) (len : ℕ) : ℤ × Option CStr :=
  let (ret, buf) := usbgReadBufLimited S path name file len
  if ret ≠ len then (ret, none) else if S.mem then (0, some (buf.take len)) else (UsbgError.noMem.code, none)

/-- `usbg_get_guid` -/
def usbgGetGuid (path : Path) (name attr : CStr) : ℤ × Option CStr :=
  usbgReadBufAlloc S path name attr guidBinLength

/-- `usbg_f_uvc_get_format_attr_val` -/
def usbgFUvcGetFormatAttrVal (f : Func) (format : Path) (a : Attr) : ℤ × Option AttrVal :=
  if (uvcFormatPath f format).Fits then
    match a.kind with
    | .guid =>
      let (ret, bin) := usbgGetGuid S (uvcFormatPath f format) [] a.name
      (ret, bin.map fun b => .string (some b))
    | _ =>
      let (ret, v) := usbgReadDec S (uvcFormatPath f format) [] a.name
      (ret, v.map .int)
  else (UsbgError.pathTooLong.code, none)

/-- A loop over attributes that ends at the first one for which `ret` is not 0. -/
def firstNonzero {α : Type} (ret : α → ℤ) : List α → ℤ
  | [] => 0
  | a :: l => if ret a ≠ 0 then ret a else firstNonzero ret l

/-- `usbg_f_uvc_get_format_attrs`, the number it returns -/
def usbgFUvcGetFormatAttrs (f : Func) (format : Path) : ℤ :=
  firstNonzero (fun a => (usbgFUvcGetFormatAttrVal S f format a).1) uvcFormatAttr

end Raw

end Libusbgx
