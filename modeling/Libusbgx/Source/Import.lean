import Libusbgx.Source.Config
import Libusbgx.Source.Create
import Libusbgx.Source.Function.Table
import Libusbgx.Source.Remove

/-!
# Importing schemes

The functions of `usbg_schemes_libconfig.c` that apply a parsed scheme to a gadget.  What cannot be
applied is left as far as it has come, except that a new configuration or a new gadget is removed
again.
-/

namespace Libusbgx

open Prog

variable {κ : Type} (K : Kernel κ) (ops : FunctionType → FunctionOps κ)

/-! ## Members of a section -/

/-- `GET_OPTIONAL_GADGET_ATTR` with a field of the given size: the value of a member that may be left
out. -/
def getOptionalGadgetAttr (bytes : ℕ) (root : Setting) (name : CStr) : Except UsbgError (Option ℤ) :=
  match root.getMember name with
  | none => .ok none
  | some node =>
    if ¬ node.isInt then .error .invalidType
    else if node.getInt < 0 ∨ 2 ^ (bytes * 8) - 1 < node.getInt then .error .invalidValue
    else .ok (some node.getInt)

/-- The member `qw_sign`, which may be left out. -/
def getOptionalQwSign (root : Setting) : Except UsbgError (Option CStr) :=
  match root.getMember "qw_sign".toList with
  | none => .ok none
  | some node => if ¬ node.isString then .error .invalidType else .ok node.getString

/-! ## OS descriptors -/

/-- The end of `usbg_import_gadget_os_descs`: `ret` is what has been returned so far.  It is also the
result when the configuration is no number, and when the link to it cannot be made. -/
def importOsDescConfig (root : Setting) (ret : Except UsbgError Unit) : On κ Gadget Unit := do
  match root.getMember "config_id".toList with
  | none => ofExcept ret
  | some node =>
    if ¬ node.isInt then ofExcept ret
    else do
      let g ← self
      match usbgGetConfig g node.getInt none with
      | none => fail .notFound
      | some target => do
        -- the error of the link is left in a variable that is not returned
        let _ ← attempt (usbgSetOsDescConfig K (some target.addr))
        ofExcept ret

/-- `usbg_import_gadget_os_descs`; a `bool` takes one byte. -/
def usbgImportGadgetOsDescs (root : Setting) : On κ Gadget Unit := do
  let use ← ofExcept (getOptionalGadgetAttr 1 root "use".toList)
  let bVendorCode ← ofExcept (getOptionalGadgetAttr 1 root "b_vendor_code".toList)
  let qwSign ← ofExcept (getOptionalQwSign root)
  let g ← self
  let ret ← attempt (io (usbgSetGadgetOsDescs K g
    { use := use.getD 0 ≠ 0, bVendorCode := UInt8.ofNat (bVendorCode.getD 0).toNat, qwSign }))
  importOsDescConfig K root ret

/-! ## Functions -/

/-- `usbg_import_function_attrs` -/
def usbgImportFunctionAttrs (root : Setting) : On κ Func Unit := do
  let f ← self
  match (ops f.type).imprt with
  | none => fail .notSupported
  | some imprt => imprt root

/-- `usbg_get_config_node_os_desc` -/
def usbgGetConfigNodeOsDesc (node : Setting) : Except UsbgError FunctionOsDesc := do
  let compatibleId ← usbgGetConfigNodeString node "compatible_id".toList
  let subCompatibleId ← usbgGetConfigNodeString node "sub_compatible_id".toList
  pure { compatibleId, subCompatibleId }

/-- One round of the loop of `usbg_import_function_os_descs`. -/
def importInterfOsDesc (node : Setting) : On κ Func Unit := do
  require (node.isGroup) .invalidType
  match node.getMember "interface".toList with
  | none => fail .missingTag
  | some interfNode =>
    match interfNode.getString with
    | none => fail .otherError
    | some interface => do
      let f ← self
      require (interface ∈ f.type.osDescIname) .notSupported
      let desc ← ofExcept (usbgGetConfigNodeOsDesc node)
      io (usbgSetInterfOsDesc K f interface desc)

/-- `usbg_import_function_os_descs` -/
def usbgImportFunctionOsDescs (root : Setting) : On κ Func Unit :=
  forEach (importInterfOsDesc K) root.elems

/-- `usbg_import_function_run`: the function stays when its attributes cannot be imported. -/
def usbgImportFunctionRun (root : Setting) (inst : CStr) : On κ Gadget Addr := do
  match root.getMember "type".toList with
  | none => fail .missingTag
  | some node =>
    match node.getString with
    | none => fail .invalidType
    | some typeStr =>
      match usbgLookupFunctionType typeStr with
      | none => fail .notSupported
      | some type => do
        let f ← usbgCreateFunction K ops type inst none
        -- from here on the function is in the gadget, and an error does not take it out
        whenSome (fun node => onFunction f (usbgImportFunctionAttrs ops node)) (root.getMember "attrs".toList)
        whenSome (fun node => onFunction f (usbgImportFunctionOsDescs K node)) (root.getMember "os_descs".toList)
        pure f

/-! ## Bindings -/

/-- The function with the label that a setting gives. -/
def importTarget (node : Setting) : On κ Gadget Func := do
  match node.getString with
  | none => fail .otherError
  | some funcLabel =>
    let g ← self
    match ← io (usbgLookupFunction g funcLabel) with
    | none => fail .notFound
    | some target => pure target

/-- `usbg_import_binding_string` -/
def usbgImportBindingString (root : Setting) (c : Addr) : On κ Gadget Unit := do
  let target ← importTarget root
  onConfig c (usbgAddConfigFunction K (some target.name) target)

/-- The function of a binding that is given as a group: an existing one, or one that is made for it. -/
def importBindingFunction (node : Setting) : On κ Gadget Func := do
  if node.isString then importTarget node
  else if node.isGroup then
    match node.getMember "instance".toList with
    | none => fail .missingTag
    | some instNode =>
      match instNode.getString with
      | none => fail .otherError
      | some inst => do
        -- an inline function belongs to the gadget, like any other
        let f ← usbgImportFunctionRun K ops node inst
        let g ← self
        deref (g.function? f)
  else fail .invalidType

/-- The name of a binding, which may be left out. -/
def importBindingName (root : Setting) (target : Func) : Except UsbgError CStr :=
  match root.getMember "name".toList with
  | none => .ok target.name
  | some node =>
    match node.getString with
    | none => .error .invalidType
    | some name => .ok name

/-- `usbg_import_binding_group` -/
def usbgImportBindingGroup (root : Setting) (c : Addr) : On κ Gadget Unit := do
  match root.getMember "function".toList with
  | none => fail .missingTag
  | some node => do
    let target ← importBindingFunction K ops node
    let name ← ofExcept (importBindingName root target)
    onConfig c (usbgAddConfigFunction K (some name) target)

/-- `usbg_import_config_bindings` -/
def usbgImportConfigBindings (root : Setting) (c : Addr) : On κ Gadget Unit :=
  forEach (fun node : Setting =>
    if node.isString then usbgImportBindingString K node c
    else if node.isGroup then usbgImportBindingGroup K ops node c
    else fail .invalidType) root.elems

/-! ## Configurations -/

/-- The language of a group of strings. -/
def importLang (root : Setting) : Except UsbgError ℤ :=
  match root.getMember "lang".toList with
  | none => .error .missingTag
  | some node => if node.isInt then .ok node.getInt else .error .invalidType

/-- `GET_OPTIONAL_GADGET_STR` -/
def getOptionalGadgetStr (root : Setting) (name : CStr) : Except UsbgError (Option CStr) :=
  match root.getMember name with
  | none => .ok none
  | some node => if ¬ node.isString then .error .invalidType else .ok node.getString

/-- `usbg_import_config_strs_lang` -/
def usbgImportConfigStrsLang (root : Setting) (c : Config) : Io κ Unit := do
  let lang ← ofExcept (importLang root)
  let configuration ← ofExcept (getOptionalGadgetStr root "configuration".toList)
  usbgSetConfigStrs K c lang { configuration }

/-- `usbg_import_config_strings` -/
def usbgImportConfigStrings (root : Setting) (c : Config) : Io κ Unit :=
  forEach (fun node : Setting => do
    require (node.isGroup) .invalidType
    usbgImportConfigStrsLang K node c) root.elems

/-- A number that may be left out, for which there is a setter that is not told how large it may
be. -/
def importConfigAttr (root : Setting) (name : CStr) (set : ℤ → Io κ Unit) : Io κ Unit :=
  match root.getMember name with
  | none => pure ()
  | some node =>
    if ¬ node.isInt then fail .invalidType
    else set node.getInt

/-- `usbg_import_config_attrs` -/
def usbgImportConfigAttrs (root : Setting) (c : Config) : Io κ Unit := do
  importConfigAttr root "bmAttributes".toList (usbgSetConfigBmAttrs K c)
  importConfigAttr root "bMaxPower".toList (usbgSetConfigMaxPower K c)

/-- What `usbg_import_config_run` does with a new configuration. -/
def importConfigContent (root : Setting) (newc : Addr) : On κ Gadget Unit := do
  let g ← self
  let c ← deref (g.config? newc)
  whenSome (fun node : Setting => do
    require (node.isGroup) .invalidType
    io (usbgImportConfigAttrs K node c)) (root.getMember "attrs".toList)
  whenSome (fun node : Setting => do
    require (node.isList) .invalidType
    io (usbgImportConfigStrings K node c)) (root.getMember "strings".toList)
  whenSome (fun node : Setting => do
    require (node.isList) .invalidType
    usbgImportConfigBindings K ops node newc) (root.getMember "functions".toList)

/-- `usbg_import_config_run` -/
def usbgImportConfigRun (root : Setting) (id : ℤ) : On κ Gadget Addr := do
  match root.getMember "name".toList with
  | none => fail .missingTag
  | some node =>
    match node.getString with
    | none => fail .invalidType
    | some name => do
      let newc ← usbgCreateConfig K id (some name) none none
      onFail (importConfigContent K ops root newc) (usbgRmConfig K newc true)
      pure newc

/-! ## Gadgets -/

/-- One round of the loop of `usbg_import_gadget_configs`. -/
def importGadgetConfig (node : Setting) : On κ Gadget Unit := do
  require (node.isGroup) .invalidType
  match node.getMember "id".toList with
  | none => fail .missingTag
  | some idNode => do
    require (idNode.isInt) .invalidType
    let _ ← usbgImportConfigRun K ops node idNode.getInt
    pure ()

/-- `usbg_import_gadget_configs` -/
def usbgImportGadgetConfigs (root : Setting) : On κ Gadget Unit :=
  forEach (importGadgetConfig K ops) root.elems

/-- One round of the loop of `usbg_import_gadget_functions`: the name of the member is the label. -/
def importGadgetFunction (label : CStr) (node : Setting) : On κ Gadget Unit := do
  require (node.isGroup) .invalidType
  match node.getMember "instance".toList with
  | none => fail .missingTag
  | some instNode =>
    match instNode.getString with
    | none => fail .invalidType
    | some inst => do
      let f ← usbgImportFunctionRun K ops node inst
      onFunction f (update fun f => { f with label := some label })

/-- `usbg_import_gadget_functions` -/
def usbgImportGadgetFunctions (root : Setting) : On κ Gadget Unit :=
  forEach (fun m : CStr × Setting => importGadgetFunction K ops m.1 m.2) root.members

/-- `usbg_import_gadget_strs_lang` -/
def usbgImportGadgetStrsLang (root : Setting) (g : Gadget) : Io κ Unit := do
  let lang ← ofExcept (importLang root)
  let manufacturer ← ofExcept (getOptionalGadgetStr root "manufacturer".toList)
  let product ← ofExcept (getOptionalGadgetStr root "product".toList)
  let serial ← ofExcept (getOptionalGadgetStr root "serialnumber".toList)
  usbgSetGadgetStrs K g lang { manufacturer, product, serial }

/-- `usbg_import_gadget_strings` -/
def usbgImportGadgetStrings (root : Setting) (g : Gadget) : Io κ Unit :=
  forEach (fun node : Setting => do
    require (node.isGroup) .invalidType
    usbgImportGadgetStrsLang K node g) root.elems

/-- One use of `GET_OPTIONAL_GADGET_ATTR` in `usbg_import_gadget_attrs`, with the setter of the
attribute. -/
def importGadgetAttr (bytes : ℕ) (root : Setting) (name : CStr) (set : ℤ → Io κ Unit) : Io κ Unit := do
  whenSome set (← ofExcept (getOptionalGadgetAttr bytes root name))

/-- `usbg_import_gadget_attrs` -/
def usbgImportGadgetAttrs (root : Setting) (g : Gadget) : Io κ Unit := do
  importGadgetAttr 2 root "bcdUSB".toList (usbgWriteHex16 K g.path g.name "bcdUSB".toList)
  importGadgetAttr 1 root "bDeviceClass".toList (usbgWriteHex8 K g.path g.name "bDeviceClass".toList)
  importGadgetAttr 1 root "bDeviceSubClass".toList (usbgWriteHex8 K g.path g.name "bDeviceSubClass".toList)
  importGadgetAttr 1 root "bDeviceProtocol".toList (usbgWriteHex8 K g.path g.name "bDeviceProtocol".toList)
  importGadgetAttr 1 root "bMaxPacketSize0".toList (usbgWriteHex8 K g.path g.name "bMaxPacketSize0".toList)
  importGadgetAttr 2 root "idVendor".toList (usbgWriteHex16 K g.path g.name "idVendor".toList)
  importGadgetAttr 2 root "idProduct".toList (usbgWriteHex16 K g.path g.name "idProduct".toList)
  importGadgetAttr 2 root "bcdDevice".toList (usbgWriteHex16 K g.path g.name "bcdDevice".toList)

/-- What `usbg_import_gadget_run` does with a new gadget. -/
def importGadgetContent (root : Setting) : On κ Gadget Unit := do
  let g ← self
  whenSome (fun node : Setting => do
    require (node.isGroup) .invalidType
    io (usbgImportGadgetAttrs K node g)) (root.getMember "attrs".toList)
  whenSome (fun node : Setting => do
    require (node.isList) .invalidType
    io (usbgImportGadgetStrings K node g)) (root.getMember "strings".toList)
  whenSome (fun node : Setting => do
    require (node.isGroup) .invalidType
    usbgImportGadgetFunctions K ops node) (root.getMember "functions".toList)
  whenSome (fun node : Setting => do
    require (node.isList) .invalidType
    usbgImportGadgetConfigs K ops node) (root.getMember "configs".toList)
  whenSome (fun node : Setting => do
    require (node.isGroup) .invalidType
    usbgImportGadgetOsDescs K node) (root.getMember "os_descs".toList)

/-- `usbg_import_gadget_run` -/
def usbgImportGadgetRun (root : Setting) (name : CStr) : On κ State Addr := do
  let newg ← usbgCreateGadget K name none none
  -- what the clean-up returns is ignored
  onFail (onGadget newg (importGadgetContent K ops root)) (usbgRmGadget K ops newg true)
  pure newg

/-! ## The record of a failed import -/

/-- The frame of the three functions that import a file: the file is kept in the object at hand when it
cannot be parsed or applied. -/
def importFile {τ : Type} (setFailed : Option ConfigFile → τ → τ) (run : Setting → On κ τ Addr) (cfg : ConfigFile) :
    On κ τ Addr := do
  match cfg with
  | .failed _ _ =>
    update (setFailed (some cfg))
    fail .invalidFormat
  | .parsed root =>
    match ← attempt (run root) with
    | .error e =>
      update (setFailed (some cfg))
      fail e
    | .ok a =>
      -- the record of an earlier failure is cleared
      update (setFailed none)
      pure a

/-- `usbg_set_failed_import` on the record of a gadget -/
def Gadget.setFailedImport (cfg : Option ConfigFile) (g : Gadget) : Gadget := { g with lastFailedImport := cfg }

/-- `usbg_set_failed_import` on the record of the state -/
def State.setFailedImport (cfg : Option ConfigFile) (s : State) : State := { s with lastFailedImport := cfg }

/-- `usbg_import_function` -/
def usbgImportFunction (cfg : ConfigFile) (inst : CStr) : On κ Gadget Addr :=
  importFile Gadget.setFailedImport (fun root => usbgImportFunctionRun K ops root inst) cfg

/-- `usbg_import_config` -/
def usbgImportConfig (cfg : ConfigFile) (id : ℤ) : On κ Gadget Addr := do
  require (0 ≤ id) .invalidParam
  importFile Gadget.setFailedImport (fun root => usbgImportConfigRun K ops root id) cfg

/-- `usbg_import_gadget` -/
def usbgImportGadget (cfg : ConfigFile) (name : CStr) : On κ State Addr :=
  importFile State.setFailedImport (fun root => usbgImportGadgetRun K ops root name) cfg

/-- `config_error_text` -/
def ConfigFile.errorText : ConfigFile → Option CStr
  | .parsed _ => none
  | .failed text _ => some text

/-- `config_error_line` -/
def ConfigFile.errorLine : ConfigFile → ℤ
  | .parsed _ => 0
  | .failed _ line => line

/-- The text of the error that is recorded: `NULL` without a record. -/
def importErrorText (failed : Option ConfigFile) : Option CStr := failed.bind ConfigFile.errorText

/-- The line of the error that is recorded: a negative number without a record. -/
def importErrorLine (failed : Option ConfigFile) : ℤ := (failed.map ConfigFile.errorLine).getD (-1)

/-- `usbg_get_func_import_error_text` -/
def usbgGetFuncImportErrorText (g : Gadget) : Option CStr := importErrorText g.lastFailedImport

/-- `usbg_get_func_import_error_line` -/
def usbgGetFuncImportErrorLine (g : Gadget) : ℤ := importErrorLine g.lastFailedImport

/-- `usbg_get_config_import_error_text` -/
def usbgGetConfigImportErrorText (g : Gadget) : Option CStr := importErrorText g.lastFailedImport

/-- `usbg_get_config_import_error_line` -/
def usbgGetConfigImportErrorLine (g : Gadget) : ℤ := importErrorLine g.lastFailedImport

end Libusbgx
