import Libusbgx.Base.SortedInsert
import Libusbgx.Source.Parse
import Libusbgx.Source.Ops

/-!
# Setting attributes, and creating things

The setters of gadget and configuration attributes, and the constructors that make a
directory, fill it, and put the new object into its list.
-/

namespace Libusbgx

open Prog

variable {κ : Type} (K : Kernel κ) (ops : FunctionType → FunctionOps κ)

/-! ## Lists in the order of strings -/

/-- The loop of `INSERT_TAILQ_STRING_ORDER`: an element that comes after all others is not inserted. -/
def insertBeforeInStringOrder {α : Type} (nameField : α → CStr) (toInsert : α) : List α → List α
  | [] => []
  | cur :: l =>
    if 0 < strcmp (nameField toInsert) (nameField cur) then cur :: insertBeforeInStringOrder nameField toInsert l
    else toInsert :: cur :: l

/-- `INSERT_TAILQ_STRING_ORDER` -/
def insertTailqStringOrder {α : Type} (nameField : α → CStr) (toInsert : α) (head : List α) : List α :=
  match head with
  | [] => [toInsert]
  | first :: l =>
    if strcmp (nameField toInsert) (nameField first) < 0 then toInsert :: first :: l
    else if 0 < strcmp (nameField toInsert) (nameField ((first :: l).getLast (List.cons_ne_nil first l))) then
      (first :: l) ++ [toInsert]
    else insertBeforeInStringOrder nameField toInsert (first :: l)

/-! ## Gadget attributes and strings -/

/-- `usbg_set_gadget_attrs` -/
def usbgSetGadgetAttrs (g : Gadget) (attrs : GadgetAttrs) : Io κ Unit := do
  usbgWriteHex16 K g.path g.name "bcdUSB".toList attrs.bcdUSB.toNat
  usbgWriteHex8 K g.path g.name "bDeviceClass".toList attrs.bDeviceClass.toNat
  usbgWriteHex8 K g.path g.name "bDeviceSubClass".toList attrs.bDeviceSubClass.toNat
  usbgWriteHex8 K g.path g.name "bDeviceProtocol".toList attrs.bDeviceProtocol.toNat
  usbgWriteHex8 K g.path g.name "bMaxPacketSize0".toList attrs.bMaxPacketSize0.toNat
  usbgWriteHex16 K g.path g.name "idVendor".toList attrs.idVendor.toNat
  usbgWriteHex16 K g.path g.name "idProduct".toList attrs.idProduct.toNat
  usbgWriteHex16 K g.path g.name "bcdDevice".toList attrs.bcdDevice.toNat

/-- `usbg_gadget_attr` -/
inductive GadgetAttr where
  | bcdUSB
  | bDeviceClass
  | bDeviceSubClass
  | bDeviceProtocol
  | bMaxPacketSize0
  | idVendor
  | idProduct
  | bcdDevice
deriving DecidableEq, Repr

/-- `usbg_get_gadget_attr_str` -/
def GadgetAttr.name : GadgetAttr → CStr
  | bcdUSB => "bcdUSB".toList
  | bDeviceClass => "bDeviceClass".toList
  | bDeviceSubClass => "bDeviceSubClass".toList
  | bDeviceProtocol => "bDeviceProtocol".toList
  | bMaxPacketSize0 => "bMaxPacketSize0".toList
  | idVendor => "idVendor".toList
  | idProduct => "idProduct".toList
  | bcdDevice => "bcdDevice".toList

/-- `usbg_set_gadget_attr` -/
def usbgSetGadgetAttr (g : Gadget) (attr : GadgetAttr) (val : ℤ) : Io κ Unit :=
  usbgWriteHex K g.path g.name attr.name val

/-- `usbg_set_gadget_vendor_id` -/
def usbgSetGadgetVendorId (g : Gadget) (idVendor : UInt16) : Io κ Unit :=
  usbgWriteHex16 K g.path g.name "idVendor".toList idVendor.toNat

/-- `usbg_set_gadget_product_id` -/
def usbgSetGadgetProductId (g : Gadget) (idProduct : UInt16) : Io κ Unit :=
  usbgWriteHex16 K g.path g.name "idProduct".toList idProduct.toNat

/-- `usbg_set_gadget_device_class` -/
def usbgSetGadgetDeviceClass (g : Gadget) (bDeviceClass : UInt8) : Io κ Unit :=
  usbgWriteHex8 K g.path g.name "bDeviceClass".toList bDeviceClass.toNat

/-- `usbg_set_gadget_device_protocol` -/
def usbgSetGadgetDeviceProtocol (g : Gadget) (bDeviceProtocol : UInt8) : Io κ Unit :=
  usbgWriteHex8 K g.path g.name "bDeviceProtocol".toList bDeviceProtocol.toNat

/-- `usbg_set_gadget_device_subclass` -/
def usbgSetGadgetDeviceSubclass (g : Gadget) (bDeviceSubClass : UInt8) : Io κ Unit :=
  usbgWriteHex8 K g.path g.name "bDeviceSubClass".toList bDeviceSubClass.toNat

/-- `usbg_set_gadget_device_max_packet` -/
def usbgSetGadgetDeviceMaxPacket (g : Gadget) (bMaxPacketSize0 : UInt8) : Io κ Unit :=
  usbgWriteHex8 K g.path g.name "bMaxPacketSize0".toList bMaxPacketSize0.toNat

/-- `usbg_set_gadget_device_bcd_device` -/
def usbgSetGadgetDeviceBcdDevice (g : Gadget) (bcdDevice : UInt16) : Io κ Unit :=
  usbgWriteHex16 K g.path g.name "bcdDevice".toList bcdDevice.toNat

/-- `usbg_set_gadget_device_bcd_usb` -/
def usbgSetGadgetDeviceBcdUsb (g : Gadget) (bcdUSB : UInt16) : Io κ Unit :=
  usbgWriteHex16 K g.path g.name "bcdUSB".toList bcdUSB.toNat

/-- `usbg_set_gadget_strs` -/
def usbgSetGadgetStrs (g : Gadget) (lang : ℤ) (strs : GadgetStrs) : Io κ Unit := do
  let path := g.path ++ [g.name, stringsDir, langDir lang]
  require path.Fits .pathTooLong
  usbgCheckDir K path
  whenSome (fun val => usbgWriteString K path [] "manufacturer".toList (some val))
    strs.manufacturer
  whenSome (fun val => usbgWriteString K path [] "product".toList (some val)) strs.product
  whenSome (fun val => usbgWriteString K path [] "serialnumber".toList (some val)) strs.serial

/-- `usbg_gadget_str` -/
inductive GadgetStr where
  | manufacturer
  | product
  | serialNumber
deriving DecidableEq, Repr

/-- `usbg_get_gadget_str_name` -/
def GadgetStr.name : GadgetStr → CStr
  | manufacturer => "manufacturer".toList
  | product => "product".toList
  | serialNumber => "serialnumber".toList

/-- What the setters of a single string have in common. -/
def setGadgetStrFile (g : Gadget) (lang : ℤ) (file : CStr) (val : Option CStr) : Io κ Unit := do
  let path := g.path ++ [g.name, stringsDir, langDir lang]
  require path.Fits .pathTooLong
  usbgCheckDir K path
  usbgWriteString K path [] file val

/-- `usbg_set_gadget_str`; a null pointer is refused only after the directory has been made. -/
def usbgSetGadgetStr (g : Gadget) (str : GadgetStr) (lang : ℤ) (val : Option CStr) : Io κ Unit :=
  setGadgetStrFile K g lang str.name val

/-- `usbg_set_gadget_serial_number` -/
def usbgSetGadgetSerialNumber (g : Gadget) (lang : ℤ) (serno : Option CStr) : Io κ Unit := do
  require (serno ≠ none) .invalidParam
  setGadgetStrFile K g lang "serialnumber".toList serno

/-- `usbg_set_gadget_manufacturer` -/
def usbgSetGadgetManufacturer (g : Gadget) (lang : ℤ) (mnf : Option CStr) : Io κ Unit := do
  require (mnf ≠ none) .invalidParam
  setGadgetStrFile K g lang "manufacturer".toList mnf

/-- `usbg_set_gadget_product` -/
def usbgSetGadgetProduct (g : Gadget) (lang : ℤ) (prd : Option CStr) : Io κ Unit := do
  require (prd ≠ none) .invalidParam
  setGadgetStrFile K g lang "product".toList prd

/-- `usbg_set_gadget_os_descs` -/
def usbgSetGadgetOsDescs (g : Gadget) (descs : GadgetOsDescs) : Io κ Unit := do
  let spath := g.path ++ [g.name, osDescDir]
  require spath.Fits .pathTooLong
  usbgCheckDir K spath
  usbgWriteString K spath [] "qw_sign".toList descs.qwSign
  usbgWriteHex8 K spath [] "b_vendor_code".toList descs.bVendorCode.toNat
  usbgWriteDec K spath [] "use".toList (if descs.use then 1 else 0)

/-! ## Gadgets -/

/-- `usbg_create_empty_gadget`: the new gadget, which is in no list yet.  If the UDC file names
a controller, the controller is linked to the gadget. -/
def usbgCreateEmptyGadget (name : CStr) : On κ State Gadget := do
  let s ← self
  require (s.path ++ [name]).Fits .pathTooLong
  let gad ← io (usbgAllocateGadget s.path name)
  io (call K (.mkdir (s.path ++ [name])))
  -- the result of the `rmdir` is ignored
  let buf ← io (onFail (usbgReadString K gad.path gad.name udcFile)
    (tryCall K (.rmdir (s.path ++ [name]))))
  match (usbgGetUdc s buf).map Udc.addr with
  | some u =>
    update (State.setUdcGadget u (some gad.addr))
    pure { gad with udc := some u }
  | none => pure gad

/-- What both constructors of gadgets do around the step that sets the attributes. -/
def createGadgetWith (name : CStr) (setUp : Gadget → Io κ Unit) : On κ State Addr := do
  let s ← self
  require (usbgGetGadget s name = none) .exist
  let gad ← usbgCreateEmptyGadget K name
  io (onFail (setUp gad) (usbgRmDir K gad.path gad.name))
  update fun s => { s with gadgets := insertSorted Gadget.name gad s.gadgets }
  pure gad.addr

/-- `usbg_create_gadget_vid_pid` -/
def usbgCreateGadgetVidPid (name : CStr) (idVendor idProduct : UInt16) : On κ State Addr :=
  createGadgetWith K name fun gad => do
    usbgWriteHex16 K gad.path name "idVendor".toList idVendor.toNat
    usbgWriteHex16 K gad.path name "idProduct".toList idProduct.toNat

/-- `usbg_create_gadget` -/
def usbgCreateGadget (name : CStr) (attrs : Option GadgetAttrs) (strs : Option GadgetStrs) :
    On κ State Addr :=
  createGadgetWith K name fun gad => do
    whenSome (usbgSetGadgetAttrs K gad) attrs
    whenSome (usbgSetGadgetStrs K gad langUsEng) strs

/-! ## Functions -/

/-- `usbg_set_function_attrs`; the `set_attrs` pointer is not checked. -/
def usbgSetFunctionAttrs (attrs : FunctionAttrs) : On κ Func Unit := do
  let f ← self
  let setAttrs ← deref (ops f.type).setAttrs
  setAttrs attrs

/-- `usbg_create_function` -/
def usbgCreateFunction (type : FunctionType) (inst : CStr) (attrs : Option FunctionAttrs) :
    On κ Gadget Addr := do
  require (inst ≠ []) .invalidParam
  let g ← self
  require (usbgGetFunction g type inst = none) .exist
  let fpath := g.path ++ [g.name, functionsDir]
  require fpath.Fits .pathTooLong
  let func ← io (usbgAllocateFunction fpath type inst)
  require (fpath ++ [func.name]).Fits .pathTooLong
  io (call K (.mkdir (fpath ++ [func.name])))
  -- the function is in no list while its attributes are set
  let func ← (match attrs with
    | some attrs => do
      let r ← io (onFail (withNew func (usbgSetFunctionAttrs ops attrs))
        (usbgRmDir K (fpath ++ [func.name]) []))
      pure r.2
    | none => pure func)
  update fun g => { g with functions := insertSorted Func.name func g.functions }
  pure func.addr

/-- `usbg_set_interf_os_desc` -/
def usbgSetInterfOsDesc (f : Func) (iname : CStr) (desc : FunctionOsDesc) : Io κ Unit := do
  let spath := f.path ++ [f.name, osDescDir, "interface.".toList ++ iname]
  require spath.Fits .pathTooLong
  usbgWriteString K spath [] "compatible_id".toList desc.compatibleId
  usbgWriteString K spath [] "sub_compatible_id".toList desc.subCompatibleId

/-! ## Configurations -/

/-- `usbg_set_config_attrs` -/
def usbgSetConfigAttrs (c : Config) (attrs : ConfigAttrs) : Io κ Unit := do
  usbgWriteDec K c.path c.name "MaxPower".toList attrs.bMaxPower.toNat
  usbgWriteHex8 K c.path c.name "bmAttributes".toList attrs.bmAttributes.toNat

/-- `usbg_set_config_string` -/
def usbgSetConfigString (c : Config) (lang : ℤ) : Option CStr → Io κ Unit
  | none => fail .invalidParam
  | some str => do
    let path := c.path ++ [c.name, stringsDir, langDir lang]
    require path.Fits .pathTooLong
    usbgCheckDir K path
    usbgWriteString K path [] "configuration".toList (some str)

/-- `usbg_set_config_strs` -/
def usbgSetConfigStrs (c : Config) (lang : ℤ) (strs : ConfigStrs) : Io κ Unit :=
  usbgSetConfigString K c lang strs.configuration

/-- `usbg_create_config` -/
def usbgCreateConfig (id : ℤ) (label : Option CStr) (attrs : Option ConfigAttrs)
    (strs : Option ConfigStrs) : On κ Gadget Addr := do
  require (0 < id ∧ id ≤ 255) .invalidParam
  let label := label.getD defaultConfigLabel
  let g ← self
  -- no two configurations of a gadget share a number, whatever their labels
  require (usbgGetConfig g id none = none) .exist
  let cpath := g.path ++ [g.name, configsDir]
  require cpath.Fits .pathTooLong
  let conf ← io (usbgAllocateConfig cpath label id)
  require (cpath ++ [conf.name]).Fits .pathTooLong
  io (call K (.mkdir (cpath ++ [conf.name])))
  io (onFail (do
      whenSome (usbgSetConfigAttrs K conf) attrs
      whenSome (fun strs => usbgSetConfigString K conf langUsEng strs.configuration) strs)
    (tryCall K (.rmdir (cpath ++ [conf.name]))))
  update fun g => { g with configs := insertSorted Config.name conf g.configs }
  pure conf.addr

/-- `usbg_add_config_function`, on the configuration, for a function at hand; the name may be
the null pointer. -/
def usbgAddConfigFunction (name : Option CStr) (f : Func) : On κ Config Unit := do
  let name := name.getD f.name
  let c ← self
  -- neither the name nor the function may be bound already
  require (usbgGetBinding c name = none) .exist
  require (usbgGetLinkBinding c f = none) .exist
  require (f.path ++ [f.name]).Fits .pathTooLong
  let bpath := c.path ++ [c.name]
  require bpath.Fits .pathTooLong
  let b ← io (usbgAllocateBinding bpath name f)
  require (bpath ++ [name]).Fits .pathTooLong
  io (call K (.symlink (f.path ++ [f.name]) (bpath ++ [name])))
  update fun c => { c with bindings := insertSorted Binding.name b c.bindings }

end Libusbgx
