import Libusbgx.Source.Common
import Libusbgx.Source.Ops

/-!
# The OS descriptor link, and removing things

`usbg_set_os_desc_config` and the `usbg_rm_` functions.  The recursive removals walk the lists
of the object from the front; every step takes its element out of the list.
-/

namespace Libusbgx

open Prog

variable {κ : Type} (K : Kernel κ) (ops : FunctionType → FunctionOps κ)

/-! ## The OS descriptor link -/

/-- `usbg_create_os_desc_link` -/
def usbgCreateOsDescLink (c : Addr) : On κ Gadget Unit := do
  let g ← self
  let conf ← deref (g.config? c)
  require (conf.path ++ [conf.name]).Fits .pathTooLong
  require (g.path ++ [g.name, osDescDir, conf.name]).Fits .pathTooLong
  io (call K (.symlink (conf.path ++ [conf.name]) (g.path ++ [g.name, osDescDir, conf.name])))
  update fun g => { g with osDescBinding := some c }

/-- `usbg_rm_os_desc_link` -/
def usbgRmOsDescLink : On κ Gadget Unit := do
  let g ← self
  let bpath := g.path ++ [g.name, osDescDir]
  require bpath.Fits .pathTooLong
  let names ← io (scandir K bpath bindingsSelect)
  match names with
  | [] => fail .notFound
  | name :: _ => io (usbgRmFile K bpath name)

/-- `usbg_set_os_desc_config`; `none` is the null pointer. -/
def usbgSetOsDescConfig (c : Option Addr) : On κ Gadget Unit := do
  match c with
  | some c =>
    let g ← self
    require (g.osDescBinding = none) .exist
    usbgCreateOsDescLink K c
  | none => usbgRmOsDescLink K

/-! ## Removal -/

/-- `usbg_rm_binding`, on the configuration the binding belongs to -/
def usbgRmBinding (b : Binding) : On κ Config Unit := do
  let c ← self
  if b ∈ c.bindings then
    io (usbgRmFile K b.path b.name)
    update fun c => { c with bindings := c.bindings.erase b }
  else undef

/-- The loop of `usbg_rm_config` over the bindings. -/
def rmAllBindings : On κ Config Unit := do
  let c ← self
  forEach (usbgRmBinding K) c.bindings

/-- The part of `usbg_rm_config` that the recursive flag asks for. -/
def rmConfigContent (c : Config) : On κ Gadget Unit := do
  let g ← self
  -- this fails where the link is gone already, although the gadget remembers it
  when (g.osDescBinding = some c.addr) (usbgSetOsDescConfig K none)
  onConfig c.addr (rmAllBindings K)
  let spath := c.path ++ [c.name, stringsDir]
  require spath.Fits .pathTooLong
  io (usbgRmAllDirs K spath)

/-- `usbg_rm_config`, on the gadget the configuration belongs to -/
def usbgRmConfig (c : Addr) (opts : RmOpts) : On κ Gadget Unit := do
  let g ← self
  let conf ← deref (g.config? c)
  when opts (rmConfigContent K conf)
  io (usbgRmDir K conf.path conf.name)
  update fun g => { g with configs := g.configs.filter (·.addr ≠ c) }

/-- The loop of `usbg_rm_function` over the bindings of one configuration. -/
def rmBindingsTo (f : Addr) : On κ Config Unit := do
  let c ← self
  forEach (usbgRmBinding K) (c.bindings.filter (·.target = f))

/-- `usbg_rm_function`, on the gadget the function belongs to -/
def usbgRmFunction (f : Addr) (opts : RmOpts) : On κ Gadget Unit := do
  let g ← self
  let func ← deref (g.function? f)
  when opts (forEach (fun c => onConfig c.addr (rmBindingsTo K f)) g.configs)
  -- the callback runs in any case; what it does with the flag is its own affair
  whenSome (fun remove => onFunction f (remove opts)) (ops func.type).remove
  io (usbgRmDir K func.path func.name)
  update fun g => { g with functions := g.functions.filter (·.addr ≠ f) }

/-- The part of `usbg_rm_gadget` that the recursive flag asks for. -/
def rmGadgetContent : On κ Gadget Unit := do
  let g ← self
  forEach (fun c => usbgRmConfig K c.addr true) g.configs
  let g ← self
  forEach (fun f => usbgRmFunction K ops f.addr true) g.functions
  let spath := g.path ++ [g.name, stringsDir]
  require spath.Fits .pathTooLong
  io (usbgRmAllDirs K spath)

/-- `usbg_rm_gadget` -/
def usbgRmGadget (g : Addr) (opts : RmOpts) : On κ State Unit := do
  when opts (onGadget g (rmGadgetContent K ops))
  let gad ← derefGadget g
  io (usbgRmDir K gad.path gad.name)
  update fun s => { s with gadgets := s.gadgets.filter (·.addr ≠ g) }

/-! ## Language directories -/

/-- `usbg_rm_config_strs` -/
def usbgRmConfigStrs (c : Config) (lang : ℤ) : Io κ Unit := do
  let path := c.path ++ [c.name, stringsDir, langDir lang]
  require path.Fits .pathTooLong
  usbgRmDir K path []

/-- `usbg_rm_gadget_strs` -/
def usbgRmGadgetStrs (g : Gadget) (lang : ℤ) : Io κ Unit := do
  let path := g.path ++ [g.name, stringsDir, langDir lang]
  require path.Fits .pathTooLong
  usbgRmDir K path []

end Libusbgx
