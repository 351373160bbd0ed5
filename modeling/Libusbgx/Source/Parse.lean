import Libusbgx.Source.Common
import Libusbgx.Source.Objects

/-!
# Reading the configfs tree

`usbg_init` and the functions below it, which build the objects of the library from the
directories, links and files that are there.
-/

namespace Libusbgx

open Prog

variable {κ : Type} (K : Kernel κ)

/-! ## Names -/

/-- `usbg_split_function_instance_type` -/
def usbgSplitFunctionInstanceType (fullName : CStr) : Except UsbgError (FunctionType × CStr) :=
  match cutFirst '.' fullName with
  | none => .error .invalidParam
  | some (typeName, inst) =>
    if typeName = [] ∨ inst = [] then .error .invalidParam
    else
      match usbgLookupFunctionType typeName with
      | some type => .ok (type, inst)
      | none => .error .notSupported

/-- `usbg_split_config_label_id` -/
def usbgSplitConfigLabelId (fullName : CStr) : Except UsbgError (CStr × ℤ) :=
  match cutLast '.' fullName with
  | none => .error .invalidParam
  | some (label, idString) =>
    if label = [] ∨ idString = [] ∨ idString.head?.any isSpace then .error .invalidParam
    else
      let r := strtol 10 idString
      if r.erange then .error (usbgTranslateError .erange)
      else if r.rest ≠ [] ∨ toInt r.value < 0 ∨ 255 < toInt r.value then .error .invalidParam
      else .ok (label, toInt r.value)

/-- What `readlink` leaves in a buffer of `USBG_MAX_PATH_LENGTH` characters. -/
def readlink (p : Path) : Io κ CStr := do
  let target ← call K (.readlink p)
  pure (ofBuffer (target.take (usbgMaxPathLength - 1)))

/-- The last part of a path, `strrchr(path, '/') + 1`.  The code does not check that there is
a slash. -/
def lastPart (path : CStr) : Io κ CStr := do
  let parts ← deref (cutLast '/' path)
  pure parts.2

/-! ## Functions -/

/-- `usbg_parse_functions` -/
def usbgParseFunctions (path : Path) (g : Gadget) : Io κ Gadget := do
  let fpath := path ++ [g.name, functionsDir]
  require fpath.Fits .pathTooLong
  let names ← scandir K fpath fileSelect
  names.foldlM (fun g name => do
    let (type, inst) ← ofExcept (usbgSplitFunctionInstanceType name)
    let f ← usbgAllocateFunction fpath type inst
    pure { g with functions := g.functions ++ [f] }) g

/-! ## Configurations -/

/-- `usbg_parse_config_binding`, for the link `name` in the directory of `c` -/
def usbgParseConfigBinding (g : Gadget) (c : Config) (name : CStr) : Io κ Config := do
  let target ← readlink K (c.path ++ [c.name, name])
  let targetName ← lastPart target
  let (type, inst) ← ofExcept (usbgSplitFunctionInstanceType targetName)
  match usbgGetFunction g type inst with
  -- the link leads to no function of the gadget
  | none => fail .otherError
  | some f =>
    let b ← usbgAllocateBinding (c.path ++ [c.name]) name f
    pure { c with bindings := c.bindings ++ [b] }

/-- `usbg_parse_config_bindings` -/
def usbgParseConfigBindings (g : Gadget) (c : Config) : Io κ Config := do
  require (c.path ++ [c.name]).Fits .pathTooLong
  let names ← scandir K (c.path ++ [c.name]) bindingsSelect
  names.foldlM (fun c name => do
    require (c.path ++ [c.name, name]).Fits .pathTooLong
    usbgParseConfigBinding K g c name) c

/-- `usbg_parse_config`: a directory whose id is 0 is passed over. -/
def usbgParseConfig (path : Path) (name : CStr) (g : Gadget) : Io κ Gadget := do
  let (label, id) ← ofExcept (usbgSplitConfigLabelId name)
  if id = 0 then pure g
  else
    -- the name is built from the label and the number, which is not always that of the directory
    let c ← usbgAllocateConfig path label id
    let c ← usbgParseConfigBindings K g c
    pure { g with configs := g.configs ++ [c] }

/-- `usbg_parse_configs` -/
def usbgParseConfigs (path : Path) (g : Gadget) : Io κ Gadget := do
  let cpath := path ++ [g.name, configsDir]
  require cpath.Fits .pathTooLong
  let names ← scandir K cpath fileSelect
  names.foldlM (fun g name => usbgParseConfig K cpath name g) g

/-- `usbg_parse_gadget_os_desc_binding`: only the first link counts. -/
def usbgParseGadgetOsDescBinding (g : Gadget) : Io κ Gadget := do
  let bpath := g.path ++ [g.name, osDescDir]
  require bpath.Fits .pathTooLong
  let names ← scandir K bpath bindingsSelect
  match names with
  | [] => pure g
  | name :: _ =>
    require (bpath ++ [name]).Fits .pathTooLong
    let target ← readlink K (bpath ++ [name])
    let targetName ← lastPart target
    let (label, id) ← ofExcept (usbgSplitConfigLabelId targetName)
    if id = 0 then pure g
    else
      match usbgGetConfig g id (some label) with
      | none => fail .noMem
      | some c => pure { g with osDescBinding := some c.addr }

/-! ## Gadgets and controllers -/

/-- The name of the file that says which controller a gadget is bound to. -/
def udcFile : CStr := "UDC".toList

/-- The part of `usbg_parse_gadget` that reads the directories below that of the gadget. -/
def parseGadgetContent (g : Gadget) : Io κ Gadget := do
  let g ← usbgParseFunctions K g.path g
  let g ← usbgParseConfigs K g.path g
  usbgParseGadgetOsDescBinding K g

/-- `usbg_parse_gadget` -/
def usbgParseGadget (g : Gadget) : On κ State Gadget := do
  let buf ← io (usbgReadString K g.path g.name udcFile)
  let s ← self
  -- a name that no controller has leaves the gadget unbound
  let udc := (usbgGetUdc s buf).map Udc.addr
  whenSome (fun u => update (State.setUdcGadget u (some g.addr))) udc
  io (parseGadgetContent K { g with udc })

/-- `usbg_parse_gadgets` -/
def usbgParseGadgets (path : Path) : On κ State Unit := do
  let names ← io (scandir K path fileSelect)
  forEach (fun name => do
    let g ← io (usbgAllocateGadget path name)
    let g ← usbgParseGadget K g
    update fun s => { s with gadgets := s.gadgets ++ [g] }) names

/-- The directory of the controllers. -/
def udcClassDir : Path := ["/sys/class/udc".toList]

/-- `usbg_parse_udcs` -/
def usbgParseUdcs : On κ State Unit := do
  let names ← io (scandir K udcClassDir fileSelect)
  forEach (fun name => do
    let u ← io (usbgAllocateUdc name)
    update fun s => { s with udcs := s.udcs ++ [u] }) names

/-- `usbg_parse_state`: a machine without controllers is accepted. -/
def usbgParseState : On κ State Unit := do
  let ret ← attempt (usbgParseUdcs K)
  (match ret with
    | .ok _ => pure ()
    | .error e => require (e = .notFound ∨ e = .noAccess) e)
  let s ← self
  usbgParseGadgets K s.path

/-- `usbg_init` -/
def usbgInit (configfsPath : CStr) : Io κ State := do
  let path : Path := [configfsPath, gadgetsDir]
  call K (.opendir path)
  let r ← withNew { path, configfsPath, gadgets := [], udcs := [], lastFailedImport := none }
    (usbgParseState K)
  pure r.2

end Libusbgx
