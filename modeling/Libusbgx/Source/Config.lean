import Libusbgx.Source.Label
import Libusbgx.Source.Strings

/-!
# Attributes of a gadget and of a configuration

The attributes of a gadget are read as numbers and cut down to the sizes of their fields.  So are the two of a
configuration, which a caller may set to any `int` and which take one byte each.  The export of a configuration
is here too.
-/

namespace Libusbgx

open Prog

variable {κ : Type} (K : Kernel κ)

/-! ## Attributes of a gadget -/

/-- `usbg_parse_gadget_attrs` -/
def usbgParseGadgetAttrs (path : Path) (name : CStr) : Io κ GadgetAttrs := do
  let bcdUSB ← usbgReadHex K path name "bcdUSB".toList
  let bDeviceClass ← usbgReadHex K path name "bDeviceClass".toList
  let bDeviceSubClass ← usbgReadHex K path name "bDeviceSubClass".toList
  let bDeviceProtocol ← usbgReadHex K path name "bDeviceProtocol".toList
  let bMaxPacketSize0 ← usbgReadHex K path name "bMaxPacketSize0".toList
  let idVendor ← usbgReadHex K path name "idVendor".toList
  let idProduct ← usbgReadHex K path name "idProduct".toList
  let bcdDevice ← usbgReadHex K path name "bcdDevice".toList
  pure
    { bcdUSB := UInt16.ofInt bcdUSB
      bDeviceClass := UInt8.ofInt bDeviceClass
      bDeviceSubClass := UInt8.ofInt bDeviceSubClass
      bDeviceProtocol := UInt8.ofInt bDeviceProtocol
      bMaxPacketSize0 := UInt8.ofInt bMaxPacketSize0
      idVendor := UInt16.ofInt idVendor
      idProduct := UInt16.ofInt idProduct
      bcdDevice := UInt16.ofInt bcdDevice }

/-- `usbg_get_gadget_attrs` -/
def usbgGetGadgetAttrs (g : Gadget) : Io κ GadgetAttrs := usbgParseGadgetAttrs K g.path g.name

/-! ## Attributes of a configuration -/

/-- `usbg_set_config_max_power` -/
def usbgSetConfigMaxPower (c : Config) (bMaxPower : ℤ) : Io κ Unit :=
  usbgWriteDec K c.path c.name "MaxPower".toList bMaxPower

/-- `usbg_set_config_bm_attrs` -/
def usbgSetConfigBmAttrs (c : Config) (bmAttributes : ℤ) : Io κ Unit :=
  usbgWriteHex8 K c.path c.name "bmAttributes".toList bmAttributes

/-- `usbg_parse_config_attrs` -/
def usbgParseConfigAttrs (path : Path) (name : CStr) : Io κ ConfigAttrs := do
  let bMaxPower ← usbgReadDec K path name "MaxPower".toList
  let bmAttributes ← usbgReadHex K path name "bmAttributes".toList
  pure { bmAttributes := UInt8.ofInt bmAttributes, bMaxPower := UInt8.ofInt bMaxPower }

/-- `usbg_get_config_attrs` -/
def usbgGetConfigAttrs (c : Config) : Io κ ConfigAttrs := usbgParseConfigAttrs K c.path c.name

/-! ## Export -/

/-- `usbg_export_config_attrs` -/
def usbgExportConfigAttrs (c : Config) : Io κ Setting := do
  let attrs ← usbgGetConfigAttrs K c
  pure (.group [("bmAttributes".toList, .int attrs.bmAttributes.toNat),
    ("bMaxPower".toList, .int attrs.bMaxPower.toNat)])

/-- `usbg_export_binding` -/
def usbgExportBinding (g : Gadget) (b : Binding) : Io κ Setting := do
  let target ← deref (g.function? b.target)
  let label := generateFunctionLabel target
  require (label.length < usbgMaxNameLength) .otherError
  pure (.group [("name".toList, .string b.name), ("function".toList, .string label)])

/-- `usbg_export_config_bindings` -/
def usbgExportConfigBindings (g : Gadget) (c : Config) : Io κ (List Setting) :=
  c.bindings.mapM (usbgExportBinding g)

/-- `usbg_export_config_prep`, and so `usbg_export_config` up to the printing -/
def usbgExportConfigPrep (g : Gadget) (c : Config) : Io κ Setting := do
  let attrs ← usbgExportConfigAttrs K c
  let strings ← usbgExportConfigStrings K c
  let functions ← usbgExportConfigBindings g c
  pure (.group [("name".toList, .string c.label), ("attrs".toList, attrs), ("strings".toList, .list strings),
    ("functions".toList, .list functions)])

end Libusbgx
