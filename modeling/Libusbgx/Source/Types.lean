import Libusbgx.Base.Numeral
import Libusbgx.Source.Setting
import Mathlib.Data.Char
import Mathlib.Data.List.Lex

/-!
# The data of the library

Error codes, function types, and the objects the library keeps in memory.  The lists of the
library hold the objects themselves; a pointer from one object to another (the target of a
binding, the two ends of the link between a gadget and its UDC, the configuration with the OS
descriptors) is the address of the other object.  Addresses are never used twice, so a
pointer to freed memory finds nothing.
-/

namespace Libusbgx

/-! ## Errors -/

/-- `usbg_error`, without `USBG_SUCCESS`. -/
inductive UsbgError where
  | noMem | noAccess | invalidParam | notFound | io | exist | noDev | busy | notSupported
  | pathTooLong | invalidFormat | missingTag | invalidType | invalidValue | notEmpty | otherError
deriving DecidableEq, Repr

/-- The values of `errno` that the library tells apart; `other` is any of the rest. -/
inductive Errno where
  | enomem | eacces | erofs | eperm | enoent | enotdir | erange | einval | eio | eexist | enodev
  | ebusy | enotempty | other
deriving DecidableEq, Repr

/-- `usbg_translate_error` -/
def usbgTranslateError : Errno → UsbgError
  | .enomem => .noMem
  | .eacces | .erofs | .eperm => .noAccess
  | .enoent | .enotdir => .notFound
  | .erange | .einval => .invalidParam
  | .eio => .io
  | .eexist => .exist
  | .enodev => .noDev
  | .ebusy => .busy
  | .enotempty => .notEmpty
  | .other => .otherError

/-! ## Paths -/

/-- A path in the pieces the library joins with slashes.  The first piece is the mount point
of configfs. -/
abbrev Path : Type := List CStr

/-- The number of characters `snprintf` counts for the path. -/
def Path.len (p : Path) : ℕ := (p.map List.length).sum + (p.length - 1)

/-- `USBG_MAX_PATH_LENGTH` -/
def usbgMaxPathLength : ℕ := 4096

/-- The path fits in a buffer of `USBG_MAX_PATH_LENGTH` characters. -/
def Path.Fits (p : Path) : Prop := p.len < usbgMaxPathLength

instance (p : Path) : Decidable p.Fits := inferInstanceAs (Decidable (_ < _))

/-- `USBG_MAX_STR_LENGTH` -/
def usbgMaxStrLength : ℕ := 256

/-- `USBG_MAX_FILE_SIZE` -/
def usbgMaxFileSize : ℕ := 4096

/-- `STRINGS_DIR` -/
def stringsDir : CStr := "strings".toList

/-- `CONFIGS_DIR` -/
def configsDir : CStr := "configs".toList

/-- `FUNCTIONS_DIR` -/
def functionsDir : CStr := "functions".toList

/-- `GADGETS_DIR` -/
def gadgetsDir : CStr := "usb_gadget".toList

/-- `OS_DESC_DIR` -/
def osDescDir : CStr := "os_desc".toList

@[simp] lemma stringsDir_ne_nil : stringsDir ≠ [] := by decide

@[simp] lemma configsDir_ne_nil : configsDir ≠ [] := by decide

@[simp] lemma functionsDir_ne_nil : functionsDir ≠ [] := by decide

@[simp] lemma gadgetsDir_ne_nil : gadgetsDir ≠ [] := by decide

@[simp] lemma osDescDir_ne_nil : osDescDir ≠ [] := by decide

@[simp] lemma configsDir_ne_osDescDir : configsDir ≠ osDescDir := by decide

@[simp] lemma functionsDir_ne_osDescDir : functionsDir ≠ osDescDir := by decide

@[simp] lemma functionsDir_ne_configsDir : functionsDir ≠ configsDir := by decide

@[simp] lemma stringsDir_ne_osDescDir : stringsDir ≠ osDescDir := by decide

@[simp] lemma stringsDir_ne_configsDir : stringsDir ≠ configsDir := by decide

@[simp] lemma stringsDir_ne_functionsDir : stringsDir ≠ functionsDir := by decide

/-- The directory of a language, `0x%x`. -/
def langDir (lang : ℤ) : CStr := "0x".toList ++ printHex 0 lang

/-- `LANG_US_ENG` -/
def langUsEng : ℤ := 0x0409

/-- `DEFAULT_CONFIG_LABEL` -/
def defaultConfigLabel : CStr := "config".toList

/-! ## Function types -/

/-- `usbg_function_type`, in the order of the enumeration. -/
inductive FunctionType where
  | serial | acm | obex | ecm | subset | ncm | eem | rndis | phonet | ffs | massStorage | midi
  | loopback | hid | uac2 | uvc | printer | ninePfs
deriving DecidableEq, Repr

/-- The entries of `function_types`, from `USBG_FUNCTION_TYPE_MIN` on. -/
def functionTypes : List FunctionType :=
  [.serial, .acm, .obex, .ecm, .subset, .ncm, .eem, .rndis, .phonet, .ffs, .massStorage, .midi,
    .loopback, .hid, .uac2, .uvc, .printer, .ninePfs]

/-- The `name` member of `struct usbg_function_type`. -/
def FunctionType.name : FunctionType → CStr
  | .serial => "gser".toList
  | .acm => "acm".toList
  | .obex => "obex".toList
  | .ecm => "ecm".toList
  | .subset => "geth".toList
  | .ncm => "ncm".toList
  | .eem => "eem".toList
  | .rndis => "rndis".toList
  | .phonet => "phonet".toList
  | .ffs => "ffs".toList
  | .massStorage => "mass_storage".toList
  | .midi => "midi".toList
  | .loopback => "Loopback".toList
  | .hid => "hid".toList
  | .uac2 => "uac2".toList
  | .uvc => "uvc".toList
  | .printer => "printer".toList
  | .ninePfs => "usb9pfs".toList

/-- The `os_desc_iname` member of `struct usbg_function_type`. -/
def FunctionType.osDescIname : FunctionType → List CStr
  | .ncm => ["ncm".toList]
  | .rndis => ["rndis".toList]
  | _ => []

/-- `usbg_lookup_function_type`, which fails with `USBG_ERROR_NOT_FOUND` only. -/
def usbgLookupFunctionType (name : CStr) : Option FunctionType :=
  functionTypes.find? (·.name = name)

@[simp] lemma mem_functionTypes (t : FunctionType) : t ∈ functionTypes := by
  cases t <;> decide

@[simp] lemma usbgLookupFunctionType_name (t : FunctionType) :
    usbgLookupFunctionType t.name = some t := by
  cases t <;> decide

lemma FunctionType.name_injective : Function.Injective FunctionType.name := by
  intro t t' h
  have := usbgLookupFunctionType_name t
  rw [h, usbgLookupFunctionType_name] at this
  exact (Option.some.inj this).symm

lemma usbgLookupFunctionType_eq_some {name : CStr} {t : FunctionType} :
    usbgLookupFunctionType name = some t ↔ t.name = name := by
  constructor
  · intro h
    simpa using List.find?_some h
  · rintro rfl
    exact usbgLookupFunctionType_name t

/-! ## Objects -/

/-- The address of an object. -/
abbrev Addr : Type := ℕ

/-- `struct usbg_binding` -/
structure Binding where
  name : CStr
  path : Path
  /-- the function it links to -/
  target : Addr
deriving DecidableEq, Repr

/-- `struct usbg_config` -/
structure Config where
  addr : Addr
  name : CStr
  path : Path
  label : CStr
  id : ℤ
  bindings : List Binding
deriving DecidableEq, Repr

/-- `struct usbg_function`, with the members that `struct usbg_f_ms` and `struct usbg_f_uvc`
add to it.  A mask is the list of the indices at which it is set. -/
structure Func where
  addr : Addr
  name : CStr
  path : Path
  inst : CStr
  label : Option CStr
  type : FunctionType
  luns : List ℕ
  lunsInitiated : Bool
  /-- the `frames` masks of the entries of `formats` -/
  frames : List (List ℕ)
  formatsInitiated : Bool
deriving DecidableEq, Repr

/-- `struct usbg_gadget` -/
structure Gadget where
  addr : Addr
  name : CStr
  path : Path
  configs : List Config
  functions : List Func
  udc : Option Addr
  osDescBinding : Option Addr
  lastFailedImport : Option ConfigFile
deriving Repr

/-- `struct usbg_udc` -/
structure Udc where
  addr : Addr
  name : CStr
  gadget : Option Addr
deriving DecidableEq, Repr

/-- `struct usbg_state` -/
structure State where
  path : Path
  configfsPath : CStr
  gadgets : List Gadget
  udcs : List Udc
  lastFailedImport : Option ConfigFile
deriving Repr

/-! ## Attributes -/

/-- `struct usbg_gadget_attrs` -/
structure GadgetAttrs where
  bcdUSB : UInt16
  bDeviceClass : UInt8
  bDeviceSubClass : UInt8
  bDeviceProtocol : UInt8
  bMaxPacketSize0 : UInt8
  idVendor : UInt16
  idProduct : UInt16
  bcdDevice : UInt16
deriving DecidableEq, Repr

/-- `struct usbg_gadget_strs` -/
structure GadgetStrs where
  manufacturer : Option CStr
  product : Option CStr
  serial : Option CStr
deriving DecidableEq, Repr

/-- `struct usbg_gadget_os_descs` -/
structure GadgetOsDescs where
  use : Bool
  bVendorCode : UInt8
  qwSign : Option CStr
deriving DecidableEq, Repr

/-- `struct usbg_config_attrs` -/
structure ConfigAttrs where
  bmAttributes : UInt8
  bMaxPower : UInt8
deriving DecidableEq, Repr

/-- `struct usbg_config_strs` -/
structure ConfigStrs where
  configuration : Option CStr
deriving DecidableEq, Repr

/-- `struct usbg_function_os_desc` -/
structure FunctionOsDesc where
  compatibleId : Option CStr
  subCompatibleId : Option CStr
deriving DecidableEq, Repr

/-- `USBG_RM_RECURSE` given or not. -/
abbrev RmOpts : Type := Bool

end Libusbgx
