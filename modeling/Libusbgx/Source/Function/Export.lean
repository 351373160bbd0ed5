import Libusbgx.Source.Function.Uvc

/-!
# Reading and exporting attributes

The other two callbacks of an attribute: `get`, which reads it from its file, and `export`, which
adds it to a group.  On them rest the `get_attrs` and the `export` of the function types.
-/

namespace Libusbgx

open Prog

variable {κ : Type} (K : Kernel κ)

/-! ## Nodes -/

/-- The members of a group that an export adds to. -/
abbrev Members : Type := List (CStr × Setting)

/-- `config_setting_add` for a group, with the value the node is given. -/
def configSettingAdd (root : Members) (name : CStr) (node : Setting) : Except UsbgError Members :=
  match Setting.addMember root name node with
  | some root' => .ok root'
  | none => .error .noMem

/-- `usbg_set_config_node_int` -/
def usbgSetConfigNodeInt (root : Members) (name : CStr) (val : ℤ) : Except UsbgError Members :=
  configSettingAdd root name (.int val)

/-- `usbg_set_config_node_bool` -/
def usbgSetConfigNodeBool (root : Members) (name : CStr) (val : Bool) : Except UsbgError Members :=
  configSettingAdd root name (.bool val)

/-- `usbg_set_config_node_string` -/
def usbgSetConfigNodeString (root : Members) (name val : CStr) : Except UsbgError Members :=
  configSettingAdd root name (.string val)

/-- `usbg_set_config_node_ether_addr` -/
def usbgSetConfigNodeEtherAddr (root : Members) (name : CStr) (val : List UInt8) :
    Except UsbgError Members :=
  usbgSetConfigNodeString root name (usbgEtherNtoa val)

/-- `usbg_set_config_node_guid`, for the 16 bytes it is given -/
def usbgSetConfigNodeGuid (root : Members) (name bin : CStr) : Except UsbgError Members :=
  let digits := fun n m => ((bin.drop n).take m).flatMap fun c => printHex 2 c.toNat
  usbgSetConfigNodeString root name
    (['-'].intercalate [digits 0 4, digits 4 2, digits 6 2, digits 8 2, digits 10 6])

/-- The value of a `char` that is converted to an `int`. -/
def charToInt (c : Char) : ℤ := Int.bmod c.toNat 256

/-- `hid_set_config_node_report`; the nodes of a list have no names. -/
def hidSetConfigNodeReport (root : Members) (name desc : CStr) : Except UsbgError Members :=
  configSettingAdd root name (.list (desc.map fun c => .int (charToInt c)))

/-! ## Reading -/

/-- `usbg_get_ether_addr` -/
def usbgGetEtherAddr (path : Path) (name attr : CStr) : Io κ (List UInt8) := do
  let s ← usbgReadString K path name attr
  match etherAton s with
  | some octets => pure octets
  | none => fail .io

/-- `hid_get_report`; a descriptor of length 0 is a null pointer. -/
def hidGetReport (path : Path) (name attr : CStr) : Io κ CStr := usbgReadBuf K path name attr

/-- `GUID_BIN_LENGTH` -/
def guidBinLength : ℕ := 16

/-- `usbg_get_guid`.  Where the file is too short the number of its bytes takes the place of an
error, and that of an empty file is the code of success. -/
def usbgGetGuid (path : Path) (name attr : CStr) : Io κ CStr := do
  let buf ← usbgReadBufLimited K path name attr guidBinLength
  if buf = [] then undef
  else do
    require (buf.length = guidBinLength) .otherError
    pure buf

/-! ## Tables -/

/-- The `get` callback. -/
def AttrKind.get (kind : AttrKind) (path : Path) (name attr : CStr) : Io κ AttrVal :=
  match kind with
  | .dec => do
    let v ← usbgReadDec K path name attr
    pure (.int v)
  | .bool => do
    let b ← usbgReadBool K path name attr
    pure (.bool b)
  | .string => do
    let s ← usbgReadStringAlloc K path name attr
    pure (.string (some s))
  | .etherAddr => do
    let o ← usbgGetEtherAddr K path name attr
    pure (.etherAddr o)
  | .reportDesc => do
    let d ← hidGetReport K path name attr
    pure (.reportDesc d)
  | .guid => do
    let bin ← usbgGetGuid K path name attr
    pure (.string (some bin))

/-- The `export` callback.  The union it is given holds what `get` has read. -/
def AttrKind.exprt (kind : AttrKind) (root : Members) (name : CStr) (val : AttrVal) :
    Io κ Members :=
  match kind, val with
  | .dec, .int v => ofExcept (usbgSetConfigNodeInt root name v)
  | .bool, .bool b => ofExcept (usbgSetConfigNodeBool root name b)
  | .string, .string (some s) => ofExcept (usbgSetConfigNodeString root name s)
  | .etherAddr, .etherAddr o => ofExcept (usbgSetConfigNodeEtherAddr root name o)
  | .reportDesc, .reportDesc d => ofExcept (hidSetConfigNodeReport root name d)
  | .guid, .string (some bin) => ofExcept (usbgSetConfigNodeGuid root name bin)
  | _, _ => undef

/-- One round of an export over a table. -/
def exportAttr (get : Attr → Io κ AttrVal) (root : Members) (a : Attr) : Io κ Members := do
  let val ← get a
  a.kind.exprt root a.name val

/-- The loop of an export over a table. -/
def exportTable (table : List Attr) (get : Attr → Io κ AttrVal) (root : Members) : Io κ Members :=
  table.foldlM (exportAttr get) root

/-- The loop of a `get_attrs` over a table. -/
def getTable (get : Attr → Io κ AttrVal) : List Attr → Io κ (List AttrVal)
  | [] => pure []
  | a :: table => do
    let val ← get a
    let vals ← getTable get table
    pure (val :: vals)

/-- Read an attribute whose file is in the directory of the function. -/
def getAttrVal (f : Func) (a : Attr) : Io κ AttrVal := a.kind.get K f.path f.name a.name

/-! ## The function types -/

/-- The `export` of a table-driven type. -/
def tableExport (table : List Attr) (root : Members) : On κ Func Members := do
  let f ← self
  io (exportTable table (getAttrVal K f) root)

/-- `loopback_libconfig_export` -/
def loopbackLibconfigExport (root : Members) : On κ Func Members := do
  let f ← self
  io (loopbackAttr.foldlM (fun root a => do
    let tmp ← usbgReadDec K f.path f.name a.name
    require (0 ≤ tmp) .invalidValue
    ofExcept (configSettingAdd root a.name (.int tmp))) root)

/-! ## Report descriptors -/

/-- The entry of `hid_attr` for the report descriptor. -/
def hidReportDesc : Attr := .rw "report_desc" .reportDesc

/-- `usbg_f_hid_get_report_desc` -/
def usbgFHidGetReportDesc (f : Func) : Io κ AttrVal := getAttrVal K f hidReportDesc

/-- `usbg_f_hid_set_report_desc` -/
def usbgFHidSetReportDesc (f : Func) (desc : CStr) : Io κ Unit :=
  setAttrVal K f hidReportDesc (.reportDesc desc)

/-! ## Network functions -/

/-- The entry of `net_attr` with the name that the enumeration gives it. -/
def netDevAddr : Attr := .rw "dev_addr" .etherAddr

@[inherit_doc netDevAddr]
def netHostAddr : Attr := .rw "host_addr" .etherAddr

@[inherit_doc netDevAddr]
def netIfname : Attr := .readOnly "ifname" .string

@[inherit_doc netDevAddr]
def netQmult : Attr := .rw "qmult" .dec

@[inherit_doc netDevAddr]
def netClass : Attr := .rw "class_" .dec

@[inherit_doc netDevAddr]
def netSubclass : Attr := .rw "subclass" .dec

@[inherit_doc netDevAddr]
def netProtocol : Attr := .rw "protocol" .dec

/-- `usbg_f_net_set_attrs`, with the values in the order of the table -/
def usbgFNetSetAttrs (f : Func) (vals : List AttrVal) : Io κ Unit :=
  setTable netAttr (setAttrVal K f) vals

/-- `usbg_f_net_get_attrs` -/
def usbgFNetGetAttrs (f : Func) : Io κ (List AttrVal) := getTable (getAttrVal K f) netAttr

/-- A getter that lets `usbg_f_net_get_attr_val` write to the variable of its caller, which holds
`var`: the result is what the variable holds afterwards. -/
def netGetInto (a : Attr) (f : Func) (_var : AttrVal) : Io κ AttrVal := getAttrVal K f a

/-- A getter that lets `usbg_f_net_get_attr_val` write to a union of its own. -/
def netGetCopy (a : Attr) (f : Func) (var : AttrVal) : Io κ AttrVal := do
  let _ ← getAttrVal K f a
  pure var

/-- `usbg_f_net_get_dev_addr` -/
def usbgFNetGetDevAddr : Func → AttrVal → Io κ AttrVal := netGetCopy K netDevAddr

/-- `usbg_f_net_get_host_addr` -/
def usbgFNetGetHostAddr : Func → AttrVal → Io κ AttrVal := netGetCopy K netHostAddr

/-- `usbg_f_net_get_ifname` -/
def usbgFNetGetIfname : Func → AttrVal → Io κ AttrVal := netGetInto K netIfname

/-- `usbg_f_net_get_qmult` -/
def usbgFNetGetQmult : Func → AttrVal → Io κ AttrVal := netGetInto K netQmult

/-- `usbg_f_net_get_class` -/
def usbgFNetGetClass : Func → AttrVal → Io κ AttrVal := netGetInto K netClass

/-- `usbg_f_net_get_subclass` -/
def usbgFNetGetSubclass : Func → AttrVal → Io κ AttrVal := netGetInto K netSubclass

/-- `usbg_f_net_get_protocol` -/
def usbgFNetGetProtocol : Func → AttrVal → Io κ AttrVal := netGetInto K netProtocol

end Libusbgx
