import Libusbgx.Source.Objects

/-!
# The operations of a function type

`struct usbg_function_type`: what each type of function does in its own way.  The library calls
these through pointers, and the functions of `usbg.c` and of the schemes are modelled over any
table of them.
-/

namespace Libusbgx

/-- The value of one attribute of a function, as the union it is passed in holds it. -/
inductive AttrVal where
  | int (v : ℤ)
  | bool (b : Bool)
  /-- a pointer to a string, which may be null -/
  | string (s : Option CStr)
  /-- the octets of a `struct ether_addr` -/
  | etherAddr (octets : List UInt8)
  /-- the bytes of a report descriptor -/
  | reportDesc (desc : CStr)
deriving DecidableEq, Repr

/-- `struct usbg_f_ms_lun_attrs`: the attributes stand in the order of the table. -/
structure MsLunAttrs where
  id : ℤ
  vals : List AttrVal
deriving DecidableEq, Repr

/-- `struct usbg_f_ms_attrs`, with the entries of `luns` before the null pointer -/
structure MsAttrs where
  stall : Bool
  luns : List MsLunAttrs
deriving DecidableEq, Repr

/-- `struct usbg_f_uvc_frame_attrs` -/
structure UvcFrameAttrs where
  bFrameIndex : ℤ
  dwMinBitRate : ℤ
  dwMaxBitRate : ℤ
  dwMaxVideoFrameBufferSize : ℤ
  dwDefaultFrameInterval : ℤ
  dwFrameInterval : ℤ
  wWidth : ℤ
  wHeight : ℤ
deriving DecidableEq, Repr

/-- `struct usbg_f_uvc_format_attrs`, with the entries of `frames` before the null pointer -/
structure UvcFormatAttrs where
  format : CStr
  bDefaultFrameIndex : ℤ
  frames : List UvcFrameAttrs
deriving DecidableEq, Repr

/-- What the `f_attrs` of `usbg_create_function` points to. -/
inductive FunctionAttrs where
  /-- the port number of a serial function -/
  | portNum (n : ℤ)
  /-- the string of a function whose only attribute is a name -/
  | name (s : Option CStr)
  /-- the attributes of a table-driven function, in the order of its table -/
  | table (vals : List AttrVal)
  | ms (attrs : MsAttrs)
  | uvc (formats : List UvcFormatAttrs)
deriving DecidableEq, Repr

/-- `struct usbg_function_type`; `none` is a null pointer. -/
structure FunctionOps (κ : Type) where
  /-- removes what the function keeps below its directory -/
  remove : Option (RmOpts → On κ Func Unit)
  setAttrs : Option (FunctionAttrs → On κ Func Unit)
  /-- reads the attributes from a setting -/
  imprt : Option (Setting → On κ Func Unit)

end Libusbgx
